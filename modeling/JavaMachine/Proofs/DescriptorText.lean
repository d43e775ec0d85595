import JavaMachine.Descriptor.Parser
import JavaMachine.Native.Intrinsics
import Mathlib.Data.List.TakeWhile

/-!
# Descriptors as texts

Reading a descriptor and writing one are inverse to each other. Not every type has a descriptor:
the name of a class ends at the first semicolon, so it must hold none, and it must not be empty. For
the others no descriptor begins another one, which is why a list of parameters needs no separators
and why a native method is found by a text.
-/
namespace JavaMachine

namespace FieldType

variable {t t' : FieldType} {ts : List FieldType} {s rest rest' : List Char}

/-- The names of classes in the type are not empty and hold no semicolon. -/
def WellNamed : FieldType → Prop
  | primitive _ => True
  | object name => name.toList ≠ [] ∧ ∀ c ∈ name.toList, c ≠ ';'
  | array component => component.WellNamed

/-! ### The front of a text -/

theorem letter_ne (p : Primitive) : p.letter ≠ '[' ∧ p.letter ≠ 'L' := by
  cases p <;> decide

theorem letter_of_ofLetter? {c : Char} {p : Primitive} (h : Primitive.ofLetter? c = some p) :
    p.letter = c := by
  simpa using List.find?_some h

theorem takeType_object {name : String} (named : (object name).WellNamed) (rest : List Char) :
    takeType ('L' :: (name.toList ++ ';' :: rest)) = some (object name, rest) := by
  obtain ⟨nonempty, free⟩ := named
  have plain : ∀ c ∈ name.toList, (c ≠ ';' : Bool) = true := by
    intro c member
    simpa using free c member
  have front : (name.toList ++ ';' :: rest).takeWhile (· ≠ ';') = name.toList := by
    rw [List.takeWhile_append_of_pos plain]
    simp
  have back : (name.toList ++ ';' :: rest).dropWhile (· ≠ ';') = ';' :: rest := by
    rw [List.dropWhile_append_of_pos plain]
    simp
  obtain ⟨d, tail, split⟩ := List.exists_cons_of_ne_nil nonempty
  rw [takeType, if_neg (by decide), if_pos rfl, front, back, split]
  simp [← split]

/-- A descriptor is read from the front of a text, whatever follows it. -/
theorem takeType_append (named : t.WellNamed) (rest : List Char) :
    takeType (t.chars ++ rest) = some (t, rest) := by
  induction t with
  | primitive p =>
    obtain ⟨noArray, noClass⟩ := letter_ne p
    simp [chars, takeType, noArray, noClass, Primitive.ofLetter?_letter]
  | object name => simpa [chars] using takeType_object named rest
  | array component ih => simp [chars, takeType, ih named]

/-- What is read from the front of a text is the descriptor that the text begins with. -/
theorem eq_append_of_takeType (h : takeType s = some (t, rest)) :
    t.WellNamed ∧ s = t.chars ++ rest := by
  induction s generalizing t rest with
  | nil => simp [takeType] at h
  | cons c s ih =>
    simp only [takeType] at h
    split at h
    case isTrue isArray =>
      obtain ⟨⟨component, after⟩, read, same⟩ := Option.map_eq_some_iff.1 h
      obtain ⟨rfl, rfl⟩ := Prod.mk.inj same
      obtain ⟨named, rfl⟩ := ih read
      exact ⟨named, by simp [chars, isArray]⟩
    case isFalse =>
      split at h
      case isTrue isClass =>
        split at h
        case h_1 d name semicolon after front back =>
          obtain ⟨rfl, rfl⟩ := Prod.mk.inj (Option.some.inj h)
          have ends : semicolon = ';' := by
            have first := List.head?_dropWhile_not (fun c => decide (c ≠ ';')) s
            rw [back] at first
            simpa using first
          have whole : s = (d :: name) ++ semicolon :: after := by
            rw [← front, ← back, List.takeWhile_append_dropWhile]
          refine ⟨⟨by simp, ?_⟩, by simp [chars, isClass, whole, ends]⟩
          intro c member
          rw [String.toList_ofList, ← front] at member
          simpa using List.mem_takeWhile_imp member
        case h_2 => simp at h
      case isFalse =>
        obtain ⟨p, letter, same⟩ := Option.map_eq_some_iff.1 h
        obtain ⟨rfl, rfl⟩ := Prod.mk.inj same
        exact ⟨trivial, by simp [chars, letter_of_ofLetter? letter]⟩

theorem takeType_eq_some_iff :
    takeType s = some (t, rest) ↔ t.WellNamed ∧ s = t.chars ++ rest := by
  refine ⟨eq_append_of_takeType, ?_⟩
  rintro ⟨named, rfl⟩
  exact takeType_append named rest

/-! ### Lists of types -/

theorem takeTypes_of_none (h : takeType s = none) : takeTypes s = ([], s) := by
  rw [takeTypes]
  split <;> simp_all

theorem takeTypes_of_some (h : takeType s = some (t, rest)) :
    takeTypes s = (t :: (takeTypes rest).1, (takeTypes rest).2) := by
  rw [takeTypes]
  split <;> simp_all

theorem takeTypes_append (named : ∀ t ∈ ts, t.WellNamed) (ends : takeType rest = none) :
    takeTypes (ts.flatMap chars ++ rest) = (ts, rest) := by
  induction ts with
  | nil => exact takeTypes_of_none ends
  | cons t ts ih =>
    rw [List.flatMap_cons, List.append_assoc,
      takeTypes_of_some (takeType_append (named t (by simp)) _),
      ih fun u member => named u (by simp [member])]

theorem eq_append_of_takeTypes (h : takeTypes s = (ts, rest)) :
    (∀ t ∈ ts, t.WellNamed) ∧ s = ts.flatMap chars ++ rest := by
  induction ts generalizing s with
  | nil =>
    cases read : takeType s with
    | none => simpa [takeTypes_of_none read] using h
    | some found => simp [takeTypes_of_some read] at h
  | cons t ts ih =>
    cases read : takeType s with
    | none => simp [takeTypes_of_none read] at h
    | some found =>
      obtain ⟨t₁, after⟩ := found
      rw [takeTypes_of_some read] at h
      obtain ⟨⟨rfl, rfl⟩, rfl⟩ := by simpa using h
      obtain ⟨named, rfl⟩ := eq_append_of_takeType read
      obtain ⟨named', split⟩ := ih rfl
      refine ⟨List.forall_mem_cons.2 ⟨named, named'⟩, ?_⟩
      rw [List.flatMap_cons, List.append_assoc, ← split]

/-! ### Whole texts -/

theorem ofChars?_eq_some_iff : ofChars? s = some t ↔ t.WellNamed ∧ s = t.chars := by
  have front : takeType s = some (t, []) ↔ t.WellNamed ∧ s = t.chars ++ [] := takeType_eq_some_iff
  rw [List.append_nil] at front
  rw [← front]
  unfold ofChars?
  split
  case h_1 found read => simp [read]
  case h_2 other =>
    constructor
    · intro h
      cases h
    · intro read
      exact absurd read (other t)

end FieldType

namespace ClassName

theorem text_ofText (text : String) : (ofText text).text = text := by
  unfold ofText
  split
  case h_1 component split =>
    split
    case h_1 t read =>
      obtain ⟨-, rfl⟩ := FieldType.ofChars?_eq_some_iff.1 read
      simp [ClassName.text, chars, ← split]
    case h_2 => simp [ClassName.text, chars]
  case h_2 => simp [ClassName.text, chars]

end ClassName

namespace MethodSignature

variable {s s' : MethodSignature} {parameters : List FieldType} {result : Option FieldType}
  {chars : List Char}

structure WellNamed (s : MethodSignature) : Prop where
  parameters : ∀ t ∈ s.parameters, t.WellNamed
  result : ∀ t, s.result = some t → t.WellNamed

/-- The descriptor of the result: of its type, or `V`. -/
def resultChars : Option FieldType → List Char
  | some t => t.chars
  | none => ['V']

theorem ofChars?_void : FieldType.ofChars? ['V'] = none := by
  decide +kernel

theorem resultOfChars?_eq_some_iff : resultOfChars? chars = some result ↔
    (∀ t, result = some t → t.WellNamed) ∧ chars = resultChars result := by
  by_cases void : chars = ['V']
  · subst void
    cases result with
    | none => simp [resultOfChars?, resultChars]
    | some t =>
      have unread := mt FieldType.ofChars?_eq_some_iff.2 (by simp [ofChars?_void] :
        ¬ FieldType.ofChars? ['V'] = some t)
      simpa [resultOfChars?, resultChars] using unread
  · have typed : resultOfChars? chars = (FieldType.ofChars? chars).map some := by
      unfold resultOfChars?
      split <;> simp_all
    rw [typed]
    cases result with
    | none => simp [resultChars, void]
    | some t => simp [resultChars, FieldType.ofChars?_eq_some_iff]

theorem takeType_close (rest : List Char) : FieldType.takeType (')' :: rest) = none := by
  have noLetter : Primitive.ofLetter? ')' = none := by decide
  simp [FieldType.takeType, noLetter]

theorem descriptorChars_eq (s : MethodSignature) :
    s.descriptorChars = '(' :: (s.parameters.flatMap FieldType.chars ++ ')' ::
      resultChars s.result) := by
  cases h : s.result <;> simp [descriptorChars, resultChars, h]

theorem ofChars?_eq_some_iff : ofChars? chars = some (s.parameters, s.result) ↔
    s.WellNamed ∧ chars = s.descriptorChars := by
  rw [descriptorChars_eq]
  constructor
  · intro h
    unfold ofChars? at h
    split at h
    case h_1 body =>
      split at h
      case h_1 ts after read =>
        obtain ⟨r, hr, same⟩ := Option.map_eq_some_iff.1 h
        obtain ⟨rfl, rfl⟩ := Prod.mk.inj same
        obtain ⟨named, rfl⟩ := FieldType.eq_append_of_takeTypes read
        obtain ⟨namedResult, rfl⟩ := resultOfChars?_eq_some_iff.1 hr
        exact ⟨⟨named, namedResult⟩, rfl⟩
      case h_2 => cases h
    case h_2 => cases h
  · rintro ⟨named, rfl⟩
    simp only [ofChars?, FieldType.takeTypes_append named.parameters (takeType_close _),
      resultOfChars?_eq_some_iff.2 ⟨named.result, rfl⟩, Option.map_some]

end MethodSignature

/-! ### Reading and writing -/

/-- Reading gives what has the text as its writing, and fails on every other text. -/
structure ReadsBack {α : Type} (read : String → Except Error α) (Writable : α → Prop)
    (write : α → String) (text : String) : Prop where
  ok : ∀ a, read text = .ok a ↔ Writable a ∧ write a = text
  error : read text = .error (.malformedDescriptor text) ↔ ∀ a, Writable a → write a ≠ text

theorem readsBack_of_ok {α : Type} {read : String → Except Error α} {Writable : α → Prop}
    {write : α → String} {text : String}
    (ok : ∀ a, read text = .ok a ↔ Writable a ∧ write a = text)
    (error : ∀ e, read text = .error e → e = .malformedDescriptor text) :
    ReadsBack read Writable write text := by
  refine ⟨ok, ?_⟩
  constructor
  · intro failed a writable written
    rw [(ok a).2 ⟨writable, written⟩] at failed
    cases failed
  · intro unwritten
    cases h : read text with
    | ok a =>
      obtain ⟨writable, written⟩ := (ok a).1 h
      exact absurd written (unwritten a writable)
    | error e => rw [error e h]

theorem FieldType.readsBack_ofDescriptor (text : String) :
    ReadsBack ofDescriptor WellNamed descriptor text := by
  apply readsBack_of_ok
  · intro t
    have whole := ofChars?_eq_some_iff (s := text.toList) (t := t)
    have written : t.descriptor = text ↔ text.toList = t.chars := by
      rw [descriptor, eq_comm, ← String.toList_inj, String.toList_ofList]
    rw [written, ← whole]
    unfold ofDescriptor
    split <;> simp_all
  · intro e failed
    unfold ofDescriptor at failed
    split at failed
    · cases failed
    · simpa [eq_comm] using failed

theorem MethodSignature.readsBack_ofDescriptor (name text : String) :
    ReadsBack (ofDescriptor name) (fun s => s.name = name ∧ s.WellNamed) descriptor text := by
  apply readsBack_of_ok
  · intro s
    have whole : ofChars? text.toList = some (s.parameters, s.result) ↔
        s.WellNamed ∧ text.toList = s.descriptorChars := ofChars?_eq_some_iff
    have written : s.descriptor = text ↔ text.toList = s.descriptorChars := by
      rw [descriptor, eq_comm, ← String.toList_inj, String.toList_ofList]
    obtain ⟨name', parameters, result⟩ := s
    rw [written, and_assoc, ← whole]
    unfold ofDescriptor
    split
    case h_1 parameters' result' read => simp [read, eq_comm]
    case h_2 read => simp [read]
  · intro e failed
    unfold ofDescriptor at failed
    split at failed
    · cases failed
    · simpa [eq_comm] using failed

/-- Signatures with the same name and the same descriptor are the same. -/
theorem MethodSignature.eq_of_descriptor_eq {s s' : MethodSignature} (named : s.WellNamed)
    (named' : s'.WellNamed) (name : s.name = s'.name) (same : s.descriptor = s'.descriptor) :
    s = s' := by
  have read := ((readsBack_ofDescriptor s.name s.descriptor).ok s).2 ⟨⟨rfl, named⟩, rfl⟩
  have read' := ((readsBack_ofDescriptor s.name s.descriptor).ok s').2
    ⟨⟨name.symm, named'⟩, same.symm⟩
  rw [read] at read'
  exact Except.ok.inj read'

theorem NativeRegistry.lookup?_register (r : NativeRegistry) (c c' : String)
    {s s' : MethodSignature} (m : NativeMethod) (named : s.WellNamed) (named' : s'.WellNamed) :
    (r.register c s.name s.descriptor m).lookup? c' s'.name s'.descriptor =
      if c' = c ∧ s' = s then some m else r.lookup? c' s'.name s'.descriptor := by
  unfold lookup? register
  rw [FiniteMap.get?_insert]
  congr 1
  rw [NativeKey.mk.injEq, eq_iff_iff]
  constructor
  · rintro ⟨sameClass, sameName, sameDescriptor⟩
    exact ⟨sameClass, MethodSignature.eq_of_descriptor_eq named' named sameName sameDescriptor⟩
  · rintro ⟨rfl, rfl⟩
    exact ⟨rfl, rfl, rfl⟩

/-- Types and signatures are read back from their descriptors, every other text is refused, class
names are read from any text, and a registered method is found under its own signature only. -/
theorem descriptors_read_back :
    (∀ text, ReadsBack FieldType.ofDescriptor FieldType.WellNamed FieldType.descriptor text) ∧
      (∀ name text, ReadsBack (MethodSignature.ofDescriptor name)
        (fun s => s.name = name ∧ s.WellNamed) MethodSignature.descriptor text) ∧
      (∀ text, (ClassName.ofText text).text = text) ∧
      ∀ s s' : MethodSignature, s.WellNamed → s'.WellNamed →
        (s.name = s'.name → s.descriptor = s'.descriptor → s = s') ∧
        ∀ (r : NativeRegistry) (c c' : String) (m : NativeMethod),
          (r.register c s.name s.descriptor m).lookup? c' s'.name s'.descriptor =
            if c' = c ∧ s' = s then some m else r.lookup? c' s'.name s'.descriptor := by
  refine ⟨FieldType.readsBack_ofDescriptor, MethodSignature.readsBack_ofDescriptor,
    ClassName.text_ofText, ?_⟩
  intro s s' named named'
  refine ⟨MethodSignature.eq_of_descriptor_eq named named', ?_⟩
  intro r c c' m
  exact r.lookup?_register c c' m named named'

def nestedSignature : MethodSignature :=
  ⟨"f", [.primitive .long, .array (.array (.object "a/B")), .primitive .int],
    some (.array (.primitive .double))⟩

theorem descriptors_read_back_nested :
    nestedSignature.WellNamed ∧
      MethodSignature.ofDescriptor "f" "(J[[La/B;I)[D" = .ok nestedSignature ∧
      ((NativeRegistry.standard.register "C" "f" "(J[[La/B;I)[D" Intrinsics.nothing).lookup? "C" "f"
        "(J[[La/B;I)[D").isSome = true := by
  have named : nestedSignature.WellNamed := by
    constructor
    · simp [nestedSignature, FieldType.WellNamed]
    · simp [nestedSignature, FieldType.WellNamed]
  have written : nestedSignature.descriptor = "(J[[La/B;I)[D" := by decide +kernel
  obtain ⟨-, reads, -, registered⟩ := descriptors_read_back
  refine ⟨named, ((reads "f" _).ok _).2 ⟨⟨rfl, named⟩, written⟩, ?_⟩
  have found := (registered _ _ named named).2 .standard "C" "C" Intrinsics.nothing
  rw [written, if_pos ⟨rfl, rfl⟩] at found
  exact Option.isSome_of_eq_some found

end JavaMachine
