import JavaMachine.Proofs.HeapTyping
import JavaMachine.Proofs.PartialAccess

/-!
# Copying between arrays

A copy is exact: the elements of the target range are those that the source range had before,
however the two overlap, and no other element of any array changes. It is done as a whole or, for a
reference that the target may not hold, up to that reference; what fails for any other reason has
changed nothing. Positions and lengths are numbers of 32 bits, and their sums are compared with the
lengths of the arrays as integers.
-/
namespace JavaMachine

inductive Element
  | scalar (s : Scalar)
  | reference (r : Reference)
  deriving DecidableEq

namespace Entity

def element? (i : Nat) : Entity → Option Element
  | references _ elements => elements[i]?.map .reference
  | primitives _ storage => storage.elements[i]?.map .scalar
  | _ => none

/-- Both are arrays of references, or both are arrays of the same primitive type. -/
inductive Compatible : Entity → Entity → Prop
  | references (c d : ClassId) (xs ys : Array Reference) :
      Compatible (.references c xs) (.references d ys)
  | primitives (c d : ClassId) {s t : Storage} (same : s.type = t.type) :
      Compatible (.primitives c s) (.primitives d t)

end Entity

theorem Storage.getElem?_splice {α : Type} {target : Array α} {position : Nat} {source : List α}
    (room : position + source.length ≤ target.size) (i : Nat) :
    (splice target position source)[i]? =
      if position ≤ i ∧ i < position + source.length then source[i - position]?
      else target[i]? := by
  induction source generalizing target position with
  | nil =>
    rw [if_neg (by simp)]
    rfl
  | cons a rest ih =>
    rw [List.length_cons] at room ⊢
    rw [splice, ih (by rw [Array.size_setIfInBounds]; omega), Array.getElem?_setIfInBounds]
    by_cases first : position = i
    · subst first
      rw [if_neg (by omega), if_pos rfl, if_pos (by omega), if_pos (by omega), Nat.sub_self]
      rfl
    · rw [if_neg first]
      by_cases later : position + 1 ≤ i ∧ i < position + 1 + rest.length
      · obtain ⟨d, rfl⟩ := Nat.exists_eq_add_of_le later.1
        rw [if_pos later, if_pos (by omega), Nat.add_sub_cancel_left,
          show position + 1 + d - position = d + 1 by omega, List.getElem?_cons_succ]
      · rw [if_neg later, if_neg (by omega)]

namespace World

variable {w w' : World} {source target r : Reference}
  {sourcePosition targetPosition position length : Int32} {c : ClassId} {size start k : Nat}

/-! ### What a copy asks for -/

def InRange (position length : Int32) (size : Nat) : Prop :=
  0 ≤ position.toInt ∧ position.toInt + length.toInt ≤ size

/-- The array class allows the reference as an element: it is null, or leads to an instance of a
class that may be stored as the component class. -/
def Allows (w : World) (c : ClassId) (r : Reference) : Prop :=
  r = .null ∨ ∃ d, w.classOf? r = some d ∧
    ∀ k, w.classes.component? c = some k → w.classes.isAssignable d k = true

/-- The copy is one between compatible arrays, of a length that is not negative, and both ranges lie
in their arrays. -/
def Permits (w : World) (source : Reference) (sourcePosition : Int32) (target : Reference)
    (targetPosition length : Int32) : Prop :=
  ∃ s t n m, w.heap.get? source = some s ∧ w.heap.get? target = some t ∧ s.Compatible t ∧
    s.length? = some n ∧ t.length? = some m ∧ 0 ≤ length.toInt ∧
      InRange sourcePosition length n ∧ InRange targetPosition length m

def element? (w : World) (r : Reference) (i : Nat) : Option Element :=
  (w.heap.get? r).bind (Entity.element? i)

/-- The reference is element `k` of a range of the length, and the first one of it that the target
does not allow. -/
structure FirstMisfit (w : World) (source : Reference) (start : Nat) (target : Reference)
    (length : Nat) (k : Nat) (r : Reference) : Prop where
  inside : k < length
  here : w.element? source (start + k) = some (.reference r)
  refused : ∃ c, w.classOf? target = some c ∧ ¬ w.Allows c r
  before : ∀ j < k, ∀ x, w.element? source (start + j) = some (.reference x) →
    ∀ c, w.classOf? target = some c → w.Allows c x

/-- The second world is the first one with a range of the target overwritten: it holds what a range
of the source held in the first world. -/
structure Copied (w : World) (source : Reference) (start : Nat) (target : Reference)
    (position count : Nat) (w' : World) : Prop where
  elements : ∀ i, w'.element? target i =
    if position ≤ i ∧ i < position + count then w.element? source (start + (i - position))
    else w.element? target i
  shape : ∀ t, w.heap.get? target = some t →
    ∃ t', w'.heap.get? target = some t' ∧ t.SameShape t' ∧ t.Compatible t'
  others : ∀ x, x ≠ target → w'.heap.get? x = w.heap.get? x
  rest : w' = { w with heap := w'.heap }

theorem storable_iff : w.storable c r = true ↔ w.Allows c r := by
  unfold storable Allows
  cases found : w.classOf? r with
  | none => simp
  | some d =>
    have some : r ≠ .null := by
      rintro rfl
      cases found
    cases component : w.classes.component? c <;> simp [some]

theorem FirstMisfit.unique {k' : Nat} {r' : Reference} {n : Nat}
    (h : w.FirstMisfit source start target n k r) (h' : w.FirstMisfit source start target n k' r') :
    k = k' ∧ r = r' := by
  obtain ⟨c, class', refused⟩ := h.refused
  obtain ⟨c', class'', refused'⟩ := h'.refused
  rcases Nat.lt_trichotomy k k' with lower | rfl | higher
  · exact absurd (h'.before k lower r h.here c class') refused
  · refine ⟨rfl, ?_⟩
    have same := h.here.symm.trans h'.here
    cases same
    rfl
  · exact absurd (h.before k' higher r' h'.here c' class'') refused'

/-! ### Ranges -/

theorem checkRange_eq_ok_iff :
    checkRange position length size = .ok start ↔
      InRange position length size ∧ start = position.toInt.toNat := by
  unfold checkRange InRange
  dsimp only
  split
  · exact iff_of_false (by rintro ⟨⟩) (by omega)
  · split
    · exact iff_of_false (by rintro ⟨⟩) (by omega)
    · rw [Except.ok.injEq]
      omega

/-- The ranges are accepted exactly if the length is not negative and both lie in their arrays. -/
theorem checkRanges_eq_ok_iff {sourceSize targetSize other : Nat} :
    checkRanges sourcePosition sourceSize targetPosition targetSize length = .ok (start, other) ↔
      0 ≤ length.toInt ∧ InRange sourcePosition length sourceSize ∧
        InRange targetPosition length targetSize ∧
          start = sourcePosition.toInt.toNat ∧ other = targetPosition.toInt.toNat := by
  unfold checkRanges
  by_cases negative : length.toInt < 0
  · rw [if_pos negative]
    exact iff_of_false (by rintro ⟨⟩) fun h => absurd h.1 (Int.not_le.2 negative)
  · rw [if_neg negative]
    cases first : checkRange sourcePosition length sourceSize with
    | error e =>
      refine iff_of_false (by rintro ⟨⟩) fun h => ?_
      rw [checkRange_eq_ok_iff.2 ⟨h.2.1, rfl⟩] at first
      cases first
    | ok i =>
      obtain ⟨inSource, rfl⟩ := checkRange_eq_ok_iff.1 first
      cases second : checkRange targetPosition length targetSize with
      | error e =>
        refine iff_of_false (by rintro ⟨⟩) fun h => ?_
        rw [checkRange_eq_ok_iff.2 ⟨h.2.2.1, rfl⟩] at second
        cases second
      | ok j =>
        obtain ⟨inTarget, rfl⟩ := checkRange_eq_ok_iff.1 second
        constructor
        · rintro ⟨⟩
          exact ⟨Int.not_lt.1 negative, inSource, inTarget, rfl, rfl⟩
        · rintro ⟨-, -, -, rfl, rfl⟩
          rfl

/-! ### The copy -/

theorem element?_of_get? {e : Entity} (here : w.heap.get? r = some e) (i : Nat) :
    w.element? r i = e.element? i := by
  unfold element?
  rw [here, Option.bind_some]

theorem classOf?_of_get? {e : Entity} (here : w.heap.get? r = some e) :
    w.classOf? r = some e.owner := by
  unfold classOf? Heap.owner?
  rw [here, Option.map_some]

theorem copied_of_modify {s t : Entity} {f : Entity → Entity} {position count : Nat}
    (from' : w.heap.get? source = some s) (into : w.heap.get? target = some t)
    (shape : t.SameShape (f t)) (compatible : t.Compatible (f t))
    (elements : ∀ i, (f t).element? i =
      if position ≤ i ∧ i < position + count then s.element? (start + (i - position))
      else t.element? i) :
    w.Copied source start target position count { w with heap := w.heap.modify target f } := by
  have changed : (w.heap.modify target f).get? target = some (f t) := by
    rw [Heap.get?_modify, if_pos rfl, into, Option.map_some]
  refine ⟨fun i => ?_, fun t₀ here => ?_, fun x other => ?_, rfl⟩
  · rw [element?_of_get? (w := { w with heap := w.heap.modify target f }) changed,
      element?_of_get? from', element?_of_get? into, elements i]
  · cases into.symm.trans here
    exact ⟨f t, changed, shape, compatible⟩
  · exact (Heap.get?_modify w.heap target x f).trans (if_neg other)

theorem copied_scalars {c d : ClassId} {s t : Storage} {position count : Nat}
    (from' : w.heap.get? source = some (.primitives c s))
    (into : w.heap.get? target = some (.primitives d t)) (same : s.type = t.type)
    (inSource : start + count ≤ s.size) (inTarget : position + count ≤ t.size) :
    w.Copied source start target position count { w with
      heap := w.heap.modify target (.overwriteScalars position (s.extract start count)) } := by
  refine copied_of_modify from' into ⟨rfl, ?_⟩ (.primitives d d ?_) fun i => ?_
  · exact congrArg some (Storage.size_overwrite t position _)
  · exact (Storage.type_overwrite t position _).symm
  · have length : (s.extract start count).elements.toList.length = count := by
      unfold Storage.size at inSource
      simp only [Storage.extract, Array.length_toList, Array.size_extract]
      omega
    have written : (t.overwrite position (s.extract start count)).elements =
        Storage.splice t.elements position (s.extract start count).elements.toList := by
      unfold Storage.overwrite
      rw [dif_pos (show (s.extract start count).type = t.type from same)]
    change (t.overwrite position (s.extract start count)).elements[i]?.map Element.scalar = _
    rw [written, Storage.getElem?_splice (by rw [length]; exact inTarget), length]
    by_cases range : position ≤ i ∧ i < position + count
    · rw [if_pos range, if_pos range, Array.getElem?_toList]
      change (s.elements.extract start (start + count))[i - position]?.map _ = _
      rw [Array.getElem?_extract, if_pos (by unfold Storage.size at inSource; omega)]
      rfl
    · rw [if_neg range, if_neg range]
      rfl

/-- References are copied as far as they fit: all of the range, or up to the first misfit. -/
theorem copied_references {c d : ClassId} {s t : Array Reference} {position count : Nat}
    {fitting : List Reference} (from' : w.heap.get? source = some (.references c s))
    (into : w.heap.get? target = some (.references d t))
    (inTarget : position + count ≤ t.size) (length : fitting.length = count)
    (same : ∀ i < count, fitting[i]? = s[start + i]?) :
    w.Copied source start target position count { w with
      heap := w.heap.modify target (.overwriteReferences position fitting) } := by
  refine copied_of_modify from' into ⟨rfl, ?_⟩ (.references d d t _) fun i => ?_
  · exact congrArg some (Storage.size_splice t position fitting)
  · change (Storage.splice t position fitting)[i]?.map Element.reference = _
    rw [Storage.getElem?_splice (by rw [length]; exact inTarget), length]
    by_cases range : position ≤ i ∧ i < position + count
    · rw [if_pos range, if_pos range, same _ (by omega)]
      rfl
    · rw [if_neg range, if_neg range]
      rfl

/-! ### How a copy ends -/

/-- What a copy may come to: all of the range is there, or the part before the first reference that
the target does not allow, or nothing has changed. -/
inductive CopyResult (w : World) (source : Reference) (sourcePosition : Int32) (target : Reference)
    (targetPosition length : Int32) : EStateM.Result Error World Unit → Prop
  | whole {w' : World}
      (permits : w.Permits source sourcePosition target targetPosition length)
      (fits : ∀ k r,
        ¬ w.FirstMisfit source sourcePosition.toInt.toNat target length.toInt.toNat k r)
      (copied : w.Copied source sourcePosition.toInt.toNat target targetPosition.toInt.toNat
        length.toInt.toNat w') :
      CopyResult w source sourcePosition target targetPosition length (.ok () w')
  | part {w' : World} {k : Nat} {r : Reference} {c : ClassId}
      (permits : w.Permits source sourcePosition target targetPosition length)
      (misfit : w.FirstMisfit source sourcePosition.toInt.toNat target length.toInt.toNat k r)
      (class' : w.classOf? target = some c)
      (copied : w.Copied source sourcePosition.toInt.toNat target targetPosition.toInt.toNat k w') :
      CopyResult w source sourcePosition target targetPosition length
        (.error (.arrayStore (w.dottedClass r) (w.classes.name c).dotted) w')
  | refused {e : Error} (refused : ¬ w.Permits source sourcePosition target targetPosition length) :
      CopyResult w source sourcePosition target targetPosition length (.error e w)

theorem Permits.compatible {s t : Entity}
    (h : w.Permits source sourcePosition target targetPosition length)
    (from' : w.heap.get? source = some s) (into : w.heap.get? target = some t) :
    s.Compatible t := by
  obtain ⟨s', t', -, -, from'', into', compatible, -⟩ := h
  cases from'.symm.trans from''
  cases into.symm.trans into'
  exact compatible

theorem permits_iff (sourcePosition targetPosition length : Int32) {s t : Entity} {n m : Nat}
    (from' : w.heap.get? source = some s) (into : w.heap.get? target = some t)
    (compatible : s.Compatible t) (size : s.length? = some n) (size' : t.length? = some m) :
    w.Permits source sourcePosition target targetPosition length ↔
      checkRanges sourcePosition n targetPosition m length =
        .ok (sourcePosition.toInt.toNat, targetPosition.toInt.toNat) := by
  rw [checkRanges_eq_ok_iff]
  constructor
  · rintro ⟨s', t', n', m', from'', into', -, here, there, nonneg, inSource, inTarget⟩
    cases from'.symm.trans from''
    cases into.symm.trans into'
    cases size.symm.trans here
    cases size'.symm.trans there
    exact ⟨nonneg, inSource, inTarget, rfl, rfl⟩
  · rintro ⟨nonneg, inSource, inTarget, -, -⟩
    exact ⟨s, t, n, m, from', into, compatible, size, size', nonneg, inSource, inTarget⟩

theorem Copied.dottedClass {position count : Nat} {t : Entity}
    (h : w.Copied source start target position count w') (into : w.heap.get? target = some t)
    (r : Reference) : w'.dottedClass r = w.dottedClass r := by
  have classes : w'.classes = w.classes := by rw [h.rest]
  have same : w'.classOf? r = w.classOf? r := by
    by_cases there : r = target
    · subst there
      obtain ⟨t', into', shape, -⟩ := h.shape t into
      rw [classOf?_of_get? into, classOf?_of_get? into', shape.owner]
    · unfold classOf? Heap.owner?
      rw [h.others r there]
  unfold World.dottedClass
  rw [same, classes]

/-- Between compatible arrays a copy is refused if its ranges are, and is settled otherwise by what
is written for them. -/
theorem copyResult_of_ranges {s t : Entity} {n m : Nat} (from' : w.heap.get? source = some s)
    (into : w.heap.get? target = some t) (compatible : s.Compatible t) (size : s.length? = some n)
    (size' : t.length? = some m) (write : Nat × Nat → Operation Unit)
    (accepted : w.Permits source sourcePosition target targetPosition length →
      sourcePosition.toInt.toNat + length.toInt.toNat ≤ n →
      targetPosition.toInt.toNat + length.toInt.toNat ≤ m →
        w.CopyResult source sourcePosition target targetPosition length
          (write (sourcePosition.toInt.toNat, targetPosition.toInt.toNat) w)) :
    w.CopyResult source sourcePosition target targetPosition length
      ((ofExcept (checkRanges sourcePosition n targetPosition m length) >>= write) w) := by
  have permitted :=
    permits_iff sourcePosition targetPosition length from' into compatible size size'
  cases checked : checkRanges sourcePosition n targetPosition m length with
  | error e => exact .refused fun permits => by cases checked.symm.trans (permitted.1 permits)
  | ok starts =>
    obtain ⟨start, position⟩ := starts
    obtain ⟨-, -, -, rfl, rfl⟩ := checkRanges_eq_ok_iff.1 checked
    obtain ⟨inSource, inTarget⟩ := checkRanges_eq_ok checked
    exact accepted (permitted.2 checked) inSource inTarget

theorem arrayCopy_scalars {c d : ClassId} {s t : Storage}
    (from' : w.heap.get? source = some (.primitives c s))
    (into : w.heap.get? target = some (.primitives d t)) :
    w.CopyResult source sourcePosition target targetPosition length
      (arrayCopy source sourcePosition target targetPosition length w) := by
  have run : arrayCopy source sourcePosition target targetPosition length w =
      (if s.type = t.type then do
        let starts ← ofExcept (checkRanges sourcePosition s.size targetPosition t.size length)
        modifyEntity target
          (.overwriteScalars starts.2 (s.extract starts.1 length.toInt.toNat))
      else throw (w.incompatibleArrays source target) : Operation Unit) w := by
    unfold arrayCopy
    rw [get_bind, from', into]
  by_cases same : s.type = t.type
  · rw [run, if_pos same]
    refine copyResult_of_ranges from' into (.primitives c d same) rfl rfl _
      fun permits inSource inTarget => ?_
    refine .whole permits (fun k r misfit => ?_) (copied_scalars from' into same inSource inTarget)
    have here := misfit.here
    rw [element?_of_get? from'] at here
    obtain ⟨x, -, scalar⟩ := Option.map_eq_some_iff.1 here
    cases scalar
  · rw [run, if_neg same]
    refine .refused fun permits => ?_
    cases permits.compatible from' into with
    | primitives _ _ same' => exact same same'

theorem drop_takeWhile_cases {α : Type} (p : α → Bool) (xs : List α) :
    (xs.takeWhile p = xs ∧ xs.drop (xs.takeWhile p).length = []) ∨
    ∃ x rest, p x = false ∧ xs.drop (xs.takeWhile p).length = x :: rest ∧
      xs = xs.takeWhile p ++ x :: rest := by
  induction xs with
  | nil => exact .inl ⟨rfl, rfl⟩
  | cons a rest ih =>
    by_cases passes : p a
    · rw [List.takeWhile_cons_of_pos passes]
      obtain ⟨all, none⟩ | ⟨x, rest', fails, left, split⟩ := ih
      · exact .inl ⟨congrArg (a :: ·) all, none⟩
      · exact .inr ⟨x, rest', fails, left, congrArg (a :: ·) split⟩
    · rw [List.takeWhile_cons_of_neg passes]
      exact .inr ⟨a, rest, by simpa using passes, rfl, rfl⟩

theorem element?_references {c : ClassId} {s : Array Reference}
    (from' : w.heap.get? source = some (.references c s)) {i : Nat} {x : Reference} :
    w.element? source i = some (.reference x) ↔ s[i]? = some x := by
  rw [element?_of_get? from']
  refine Option.map_eq_some_iff.trans ⟨?_, fun here => ⟨x, here, rfl⟩⟩
  rintro ⟨y, here, same⟩
  cases same
  exact here

theorem not_firstMisfit {c d : ClassId} {s t : Array Reference} {range : List Reference}
    {count : Nat} (from' : w.heap.get? source = some (.references c s))
    (into : w.heap.get? target = some (.references d t))
    (same : ∀ i < count, range[i]? = s[start + i]?) (passes : ∀ x ∈ range, w.storable d x = true) :
    ¬ w.FirstMisfit source start target count k r := by
  intro misfit
  have here : range[k]? = some r :=
    (same k misfit.inside).trans ((element?_references from').1 misfit.here)
  obtain ⟨c', class', refused⟩ := misfit.refused
  cases (classOf?_of_get? into).symm.trans class'
  exact refused (storable_iff.1 (passes r (List.mem_of_getElem? here)))

theorem firstMisfit_of_split {c d : ClassId} {s t : Array Reference}
    {fitting rest : List Reference} {count : Nat}
    (from' : w.heap.get? source = some (.references c s))
    (into : w.heap.get? target = some (.references d t))
    (size : (fitting ++ r :: rest).length = count)
    (same : ∀ i < count, (fitting ++ r :: rest)[i]? = s[start + i]?)
    (passes : ∀ x ∈ fitting, w.storable d x = true) (fails : w.storable d r = false) :
    w.FirstMisfit source start target count fitting.length r := by
  have inside : fitting.length < count := by
    rw [List.length_append, List.length_cons] at size
    omega
  refine ⟨inside, ?_, ⟨d, classOf?_of_get? into, ?_⟩, fun j below x here c' class' => ?_⟩
  · rw [element?_references from', ← same _ inside, List.getElem?_append_right (Nat.le_refl _),
      Nat.sub_self]
    rfl
  · rw [← storable_iff, fails]
    exact Bool.false_ne_true
  · cases (classOf?_of_get? into).symm.trans class'
    have there := same j (Nat.lt_trans below inside)
    rw [(element?_references from').1 here, List.getElem?_append_left below] at there
    exact storable_iff.1 (passes x (List.mem_of_getElem? there))

/-- A range, once it is read, is written up to the first reference that the target does not
allow. -/
theorem writeRange_result {c d : ClassId} {s t : Array Reference} {range : List Reference}
    (from' : w.heap.get? source = some (.references c s))
    (into : w.heap.get? target = some (.references d t))
    (permits : w.Permits source sourcePosition target targetPosition length)
    (room : targetPosition.toInt.toNat + length.toInt.toNat ≤ t.size)
    (size : range.length = length.toInt.toNat)
    (same : ∀ i < length.toInt.toNat, range[i]? = s[sourcePosition.toInt.toNat + i]?) :
    w.CopyResult source sourcePosition target targetPosition length
      ((do
        let fitting := range.takeWhile (w.storable d)
        modifyEntity target (.overwriteReferences targetPosition.toInt.toNat fitting)
        match range.drop fitting.length with
        | [] => return ()
        | misfit :: _ =>
          let w ← get
          throw (.arrayStore (w.dottedClass misfit) (w.classes.name d).dotted) :
        Operation Unit) w) := by
  have passes : ∀ x ∈ range.takeWhile (w.storable d), w.storable d x = true :=
    List.all_eq_true.1 List.all_takeWhile
  obtain ⟨all, nothing⟩ | ⟨r, rest, fails, left, split⟩ :=
    drop_takeWhile_cases (w.storable d) range
  · rw [all] at passes nothing
    simp only [all, nothing]
    exact .whole permits (fun k r => not_firstMisfit from' into same passes)
      (copied_references from' into room size same)
  · simp only [left]
    generalize range.takeWhile (w.storable d) = fitting at passes split
    subst split
    have misfit := firstMisfit_of_split from' into size same passes fails
    have fits : targetPosition.toInt.toNat + fitting.length ≤ t.size :=
      Nat.le_trans (Nat.add_le_add_left (Nat.le_of_lt misfit.inside) _) room
    have copied := copied_references from' into fits rfl fun i below =>
      (List.getElem?_append_left below).symm.trans (same i (Nat.lt_trans below misfit.inside))
    have ended := CopyResult.part permits misfit (classOf?_of_get? into) copied
    rw [← copied.dottedClass into] at ended
    exact ended

theorem arrayCopy_references {c d : ClassId} {s t : Array Reference}
    (from' : w.heap.get? source = some (.references c s))
    (into : w.heap.get? target = some (.references d t)) :
    w.CopyResult source sourcePosition target targetPosition length
      (arrayCopy source sourcePosition target targetPosition length w) := by
  unfold arrayCopy
  rw [get_bind, from', into]
  refine copyResult_of_ranges from' into (.references c d s t) rfl rfl _
    fun permits inSource inTarget => ?_
  refine writeRange_result from' into permits inTarget ?_ fun i below => ?_
  · rw [Array.length_toList, Array.size_extract]
    omega
  · rw [Array.getElem?_toList, Array.getElem?_extract, if_pos (by omega)]

theorem arrayCopy_result (w : World) (source : Reference) (sourcePosition : Int32)
    (target : Reference) (targetPosition length : Int32) :
    w.CopyResult source sourcePosition target targetPosition length
      (arrayCopy source sourcePosition target targetPosition length w) := by
  have missing (h : w.heap.get? source = none ∨ w.heap.get? target = none) :
      ¬ w.Permits source sourcePosition target targetPosition length := by
    rintro ⟨s, t, -, -, from', into, -⟩
    rw [from', into] at h
    exact h.elim nofun nofun
  cases from' : w.heap.get? source with
  | none =>
    unfold arrayCopy
    rw [get_bind, from']
    exact .refused (missing (.inl from'))
  | some s =>
    cases into : w.heap.get? target with
    | none =>
      unfold arrayCopy
      rw [get_bind, from', into]
      cases s <;> exact .refused (missing (.inr into))
    | some t =>
      by_cases compatible : s.Compatible t
      · cases compatible with
        | references => exact arrayCopy_references from' into
        | primitives => exact arrayCopy_scalars from' into
      · have refused : ¬ w.Permits source sourcePosition target targetPosition length :=
          fun permits => compatible (permits.compatible from' into)
        cases s <;> cases t
        case references.references => exact absurd (.references ..) compatible
        case primitives.primitives => exact arrayCopy_scalars from' into
        all_goals
          unfold arrayCopy
          rw [get_bind, from', into]
          exact .refused refused

/-- A copy is exact. It succeeds only between two arrays of references or two arrays of the same
primitive type, for a length that is not negative and ranges that lie in the arrays, and then the
range of the target holds what the range of the source held, all else being as before. The first
reference that the target does not allow ends the copy with what stood before it copied, and no
other failure changes anything. -/
theorem arrayCopy_exact (w : World) (source : Reference) (sourcePosition : Int32)
    (target : Reference) (targetPosition length : Int32) :
    (∀ w', arrayCopy source sourcePosition target targetPosition length w = .ok () w' →
      w.Permits source sourcePosition target targetPosition length ∧
        w.Copied source sourcePosition.toInt.toNat target targetPosition.toInt.toNat
          length.toInt.toNat w') ∧
    (w.Permits source sourcePosition target targetPosition length →
      (∀ k r, ¬ w.FirstMisfit source sourcePosition.toInt.toNat target length.toInt.toNat k r) →
        ∃ w', arrayCopy source sourcePosition target targetPosition length w = .ok () w') ∧
    (w.Permits source sourcePosition target targetPosition length →
      ∀ k r, w.FirstMisfit source sourcePosition.toInt.toNat target length.toInt.toNat k r →
        ∃ c w', w.classOf? target = some c ∧
          arrayCopy source sourcePosition target targetPosition length w =
            .error (.arrayStore (w.dottedClass r) (w.classes.name c).dotted) w' ∧
          w.Copied source sourcePosition.toInt.toNat target targetPosition.toInt.toNat k w') ∧
    (∀ e w', arrayCopy source sourcePosition target targetPosition length w = .error e w' →
      w' = w ∨ w.Permits source sourcePosition target targetPosition length ∧
        ∃ k r, w.FirstMisfit source sourcePosition.toInt.toNat target length.toInt.toNat k r) := by
  have result := arrayCopy_result w source sourcePosition target targetPosition length
  generalize arrayCopy source sourcePosition target targetPosition length w = outcome at result
  cases result with
  | whole permits fits copied =>
    refine ⟨?_, fun _ _ => ⟨_, rfl⟩, fun _ k r misfit => absurd misfit (fits k r), ?_⟩
    · rintro w' ⟨⟩
      exact ⟨permits, copied⟩
    · rintro e w' ⟨⟩
  | part permits misfit class' copied =>
    refine ⟨?_, fun _ none => absurd misfit (none _ _), fun _ k r misfit' => ?_, ?_⟩
    · rintro w' ⟨⟩
    · obtain ⟨rfl, rfl⟩ := misfit.unique misfit'
      exact ⟨_, _, class', rfl, copied⟩
    · rintro e w' ⟨⟩
      exact .inr ⟨permits, _, _, misfit⟩
  | refused refused =>
    refine ⟨?_, fun permits => absurd permits refused, fun permits => absurd permits refused, ?_⟩
    · rintro w' ⟨⟩
    · rintro e w' ⟨⟩
      exact .inl rfl

def copyingWorld : World :=
  let loaded := endState (loadArray (.object "java/lang/String") (ofProgram .working 0 []))
  { endState (loadArray (.object "java/lang/Object") loaded) with
    heap := ⟨#[.object 0 .empty, .object 1 .empty,
      .references 6 #[.entity 1, .entity 0], .references 5 #[.null, .null, .null]]⟩ }

set_option maxRecDepth 100000 in
/-- Copying both into the strings leaves the string there and ends at the object, and shifting the
array of objects by one copies the string over the object. -/
theorem arrayCopy_exact_part :
    copyingWorld.Permits (.entity 2) 0 (.entity 3) 1 2 ∧
      copyingWorld.FirstMisfit (.entity 2) 0 (.entity 3) 2 1 (.entity 0) ∧
      (∃ w', arrayCopy (.entity 2) 0 (.entity 3) 1 2 copyingWorld =
          .error (.arrayStore "java.lang.Object" "[Ljava.lang.String;") w' ∧
        w'.element? (.entity 3) 1 = some (.reference (.entity 1)) ∧
        w'.element? (.entity 3) 2 = some (.reference .null)) ∧
      ∃ w', arrayCopy (.entity 2) 0 (.entity 2) 1 1 copyingWorld = .ok () w' ∧
        w'.element? (.entity 2) 1 = some (.reference (.entity 1)) := by
  have permits : copyingWorld.Permits (.entity 2) 0 (.entity 3) 1 2 :=
    ⟨_, _, 2, 3, rfl, rfl, .references .., rfl, rfl, by decide, by unfold InRange; decide,
      by unfold InRange; decide⟩
  have misfit : copyingWorld.FirstMisfit (.entity 2) 0 (.entity 3) 2 1 (.entity 0) := by
    refine ⟨by decide, rfl, ⟨5, rfl, ?_⟩, fun j below x here c class' => ?_⟩
    · rw [← storable_iff]
      decide +kernel
    · cases Nat.lt_one_iff.1 below
      cases here
      cases class'
      rw [← storable_iff]
      decide +kernel
  refine ⟨permits, misfit, ?_, ?_⟩
  · obtain ⟨-, -, part, -⟩ := arrayCopy_exact copyingWorld (.entity 2) 0 (.entity 3) 1 2
    obtain ⟨c, w', class', ended, copied⟩ := part permits 1 (.entity 0) misfit
    cases class'
    exact ⟨w', ended, copied.elements 1, copied.elements 2⟩
  · obtain ⟨whole, fits, -⟩ := arrayCopy_exact copyingWorld (.entity 2) 0 (.entity 2) 1 1
    have permits' : copyingWorld.Permits (.entity 2) 0 (.entity 2) 1 1 :=
      ⟨_, _, 2, 2, rfl, rfl, .references .., rfl, rfl, by decide, by unfold InRange; decide,
        by unfold InRange; decide⟩
    obtain ⟨w', ended⟩ := fits permits' fun k r misfit' => by
      cases Nat.lt_one_iff.1 misfit'.inside
      cases misfit'.here
      obtain ⟨c, class', refused⟩ := misfit'.refused
      cases class'
      refine refused (storable_iff.1 ?_)
      decide +kernel
    exact ⟨w', ended, (whole w' ended).2.elements 1⟩

end World

end JavaMachine
