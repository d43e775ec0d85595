import JavaMachine.Error.Basic

/-!
# Reading descriptors

A descriptor is accepted only as a whole. The name of a class extends to the first semicolon and
is not empty; it may hold any other character. `takeType` reads one type from the front of a text
and `takeTypes` as many as there are.
-/
namespace JavaMachine

namespace FieldType

/-- Reads one type and gives what follows it. -/
def takeType : List Char → Option (FieldType × List Char)
  | [] => none
  | c :: rest =>
    if c = '[' then (takeType rest).map fun (component, after) => (array component, after)
    else if c = 'L' then
      match rest.takeWhile (· ≠ ';'), rest.dropWhile (· ≠ ';') with
      | d :: name, _ :: after => some (object (String.ofList (d :: name)), after)
      | _, _ => none
    else (Primitive.ofLetter? c).map fun p => (primitive p, rest)

theorem length_of_takeType {s : List Char} {t : FieldType} {after : List Char}
    (h : takeType s = some (t, after)) : after.length < s.length := by
  induction s generalizing t after with
  | nil => simp [takeType] at h
  | cons c rest ih =>
    simp only [takeType] at h
    split at h
    · obtain ⟨⟨component, after'⟩, hr, he⟩ := Option.map_eq_some_iff.1 h
      have := ih hr
      simp only [Prod.mk.injEq] at he
      simp only [List.length_cons, ← he.2]
      omega
    · split at h
      · split at h
        · rename_i d name semicolon after' _ hd
          have hlen : (rest.dropWhile (· ≠ ';')).length ≤ rest.length :=
            (List.dropWhile_suffix _).length_le
          simp only [Option.some.injEq, Prod.mk.injEq] at h
          rw [hd] at hlen
          simp only [List.length_cons, ← h.2] at hlen ⊢
          omega
        · simp at h
      · obtain ⟨p, _, he⟩ := Option.map_eq_some_iff.1 h
        simp only [Prod.mk.injEq] at he
        simp [← he.2]

/-- Reads types until there are no more. -/
def takeTypes (s : List Char) : List FieldType × List Char :=
  match h : takeType s with
  | none => ([], s)
  | some (t, after) =>
    have := length_of_takeType h
    let (ts, after') := takeTypes after
    (t :: ts, after')
termination_by s.length

/-- The type that the whole text describes. -/
def ofChars? (s : List Char) : Option FieldType :=
  match takeType s with
  | some (t, []) => some t
  | _ => none

def ofDescriptor (text : String) : Except Error FieldType :=
  match ofChars? text.toList with
  | some t => .ok t
  | none => .error (.malformedDescriptor text)

end FieldType

namespace ClassName

/-- The class that a class file names: an array descriptor names an array class, and every other
text a class of that name. -/
def ofText (text : String) : ClassName :=
  match text.toList with
  | '[' :: component =>
    match FieldType.ofChars? component with
    | some t => array t
    | none => scalar text
  | _ => scalar text

end ClassName

namespace MethodSignature

/-- Reads what follows the parameters: a type, or `V` for no result. -/
def resultOfChars? : List Char → Option (Option FieldType)
  | ['V'] => some none
  | s => (FieldType.ofChars? s).map some

/-- The parameter types and the result that the whole text describes. -/
def ofChars? : List Char → Option (List FieldType × Option FieldType)
  | '(' :: s =>
    match FieldType.takeTypes s with
    | (parameters, ')' :: result) =>
      (resultOfChars? result).map fun r => (parameters, r)
    | _ => none
  | _ => none

def ofDescriptor (name descriptor : String) : Except Error MethodSignature :=
  match ofChars? descriptor.toList with
  | some (parameters, result) => .ok ⟨name, parameters, result⟩
  | none => .error (.malformedDescriptor descriptor)

example : ofChars? "(J[Lq;)V".toList =
    some ([.primitive .long, .array (.object "q")], none) := by decide +kernel
example : ofChars? "(I)VV".toList = none := by decide +kernel

end MethodSignature

end JavaMachine
