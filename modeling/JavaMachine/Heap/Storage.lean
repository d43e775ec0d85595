import JavaMachine.Error.Basic

/-!
# Contents of arrays of primitives

The elements of an array of primitives all have the array's element type, which the type records.
Access names the type it expects: another type is a mismatch, and a position outside the array is
reported with the array's length.
-/
namespace JavaMachine

structure Storage where
  type : Primitive
  elements : Array Scalar
  homogeneous : ∀ s ∈ elements, s.type = type
  deriving DecidableEq

/-- The position that an index names in an array, if it is one of the array's. -/
def position? (index : Int32) (length : Nat) : Option Nat :=
  if 0 ≤ index.toInt ∧ index.toInt < length then some index.toInt.toNat else none

/-- The length that an instruction asks for, unless it is negative. -/
def checkLength (length : Int32) : Except Error Nat :=
  if length.toInt < 0 then .error (.negativeArraySize length) else .ok length.toInt.toNat

theorem position?_lt {index : Int32} {length i : Nat} (h : position? index length = some i) :
    i < length := by
  simp only [position?] at h
  split at h
  · simp only [Option.some.injEq] at h
    omega
  · simp at h

namespace Storage

def size (s : Storage) : Nat := s.elements.size

def zeros (p : Primitive) (length : Nat) : Storage :=
  { type := p, elements := Array.replicate length (Scalar.zero p)
    homogeneous := by
      intro s hs
      rw [Array.mem_replicate] at hs
      rw [hs.2, Scalar.type_zero] }

/-- The elements of the type among the given ones. -/
def ofArray (p : Primitive) (elements : Array Scalar) : Storage :=
  { type := p, elements := elements.filter fun s => s.type = p
    homogeneous := by
      intro s hs
      simpa using (Array.mem_filter.1 hs).2 }

/-- An array of `char`s. -/
def ofUnits (units : List UInt16) : Storage :=
  { type := .char, elements := (units.map Scalar.char).toArray
    homogeneous := by
      intro s hs
      simp only [List.mem_toArray, List.mem_map] at hs
      obtain ⟨u, _, rfl⟩ := hs
      rfl }

/-- The elements of an array of `char`s. -/
def units? (s : Storage) : Option (List UInt16) :=
  if s.type = .char then
    some (s.elements.toList.filterMap fun e =>
      match e with
      | .char u => some u
      | _ => none)
  else none

def mismatch (s : Storage) (expected : Primitive) : Error :=
  .typeMismatch (expected.keyword ++ " array") (.arrayOf s.type)

def outOfBounds (s : Storage) (index : Int32) : Error := .arrayIndexOutOfBounds index s.size

/-- The position that an index names in an array of the given type. -/
def position (s : Storage) (p : Primitive) (index : Int32) : Except Error Nat :=
  if s.type = p then
    match position? index s.size with
    | some i => .ok i
    | none => .error (s.outOfBounds index)
  else .error (s.mismatch p)

/-- Reads an element of an array of the given type. -/
def read (s : Storage) (p : Primitive) (index : Int32) : Except Error Scalar := do
  let i ← s.position p index
  return s.elements.getD i (.zero p)

/-- Replaces the element at a position by one of the same type. -/
def set (s : Storage) (i : Nat) (e : Scalar) : Storage :=
  if h : s.type = e.type then
    { type := s.type, elements := s.elements.setIfInBounds i e
      homogeneous := by
        intro x hx
        rcases Array.mem_or_eq_of_mem_setIfInBounds hx with hx | hx
        · exact s.homogeneous x hx
        · rw [hx, h] }
  else s

/-- The array with the elements from a position on replaced by those of a list, as far as it
reaches. -/
def splice {α : Type} (target : Array α) (position : Nat) (source : List α) : Array α :=
  match source with
  | [] => target
  | a :: rest => splice (target.setIfInBounds position a) (position + 1) rest

theorem mem_splice {α : Type} {x : α} {target : Array α} {position : Nat} {source : List α}
    (h : x ∈ splice target position source) : x ∈ target ∨ x ∈ source := by
  induction source generalizing target position with
  | nil => exact .inl h
  | cons a rest ih =>
    rcases ih h with h | h
    · rcases Array.mem_or_eq_of_mem_setIfInBounds h with h | h
      · exact .inl h
      · exact .inr (by simp [h])
    · exact .inr (List.mem_cons_of_mem _ h)

@[simp] theorem size_splice {α : Type} (target : Array α) (position : Nat) (source : List α) :
    (splice target position source).size = target.size := by
  induction source generalizing target position with
  | nil => rfl
  | cons a rest ih => rw [splice, ih, Array.size_setIfInBounds]

/-- The elements from a position on, as many as asked for and present. -/
def extract (s : Storage) (start length : Nat) : Storage :=
  { type := s.type, elements := s.elements.extract start (start + length)
    homogeneous := by
      intro x hx
      rw [← Array.mem_toList_iff, Array.toList_extract, List.extract_eq_take_drop] at hx
      exact s.homogeneous x
        (Array.mem_toList_iff.1 (List.mem_of_mem_drop (List.mem_of_mem_take hx))) }

/-- The target with its elements from a position on replaced by those of a source of the same
type, as far as the target reaches. -/
def overwrite (target : Storage) (position : Nat) (source : Storage) : Storage :=
  if h : source.type = target.type then
    { type := target.type
      elements := splice target.elements position source.elements.toList
      homogeneous := by
        intro x hx
        rcases mem_splice hx with hx | hx
        · exact target.homogeneous x hx
        · rw [← h]
          exact source.homogeneous x (Array.mem_toList_iff.1 hx) }
  else target

@[simp] theorem type_zeros (p : Primitive) (length : Nat) : (zeros p length).type = p := rfl

@[simp] theorem type_set (s : Storage) (i : Nat) (e : Scalar) : (s.set i e).type = s.type := by
  unfold set
  split <;> rfl

@[simp] theorem size_set (s : Storage) (i : Nat) (e : Scalar) : (s.set i e).size = s.size := by
  unfold set
  split <;> simp [size]

@[simp] theorem type_overwrite (target : Storage) (position : Nat) (source : Storage) :
    (target.overwrite position source).type = target.type := by
  unfold overwrite
  split <;> rfl

@[simp] theorem size_overwrite (target : Storage) (position : Nat) (source : Storage) :
    (target.overwrite position source).size = target.size := by
  unfold overwrite
  split <;> simp [size]

@[simp] theorem size_zeros (p : Primitive) (length : Nat) : (zeros p length).size = length := by
  simp [zeros, size]

end Storage

end JavaMachine
