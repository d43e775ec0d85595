/-!
# Finite maps

A map is the list of its entries in the order their keys were first inserted. Every key is
meant to occur once; `get?` reads the first occurrence, and `insert` writes there, so nothing
below depends on it. The one law every client uses is `get?_insert`.
-/
namespace JavaMachine

/-- Entries in the order of first insertion. -/
structure FiniteMap (κ : Type) (υ : Type) where
  entries : List (κ × υ)
  deriving DecidableEq, Inhabited

namespace FiniteMap

variable {κ υ : Type}

def empty : FiniteMap κ υ := ⟨[]⟩

instance : EmptyCollection (FiniteMap κ υ) := ⟨empty⟩

def size (m : FiniteMap κ υ) : Nat := m.entries.length

def isEmpty (m : FiniteMap κ υ) : Bool := m.entries.isEmpty

def keys (m : FiniteMap κ υ) : List κ := m.entries.map Prod.fst

section Lookup

variable [DecidableEq κ]

private def find? (k : κ) : List (κ × υ) → Option υ
  | [] => none
  | (k', v) :: rest => if k = k' then some v else find? k rest

private def replace (k : κ) (v : υ) : List (κ × υ) → List (κ × υ)
  | [] => [(k, v)]
  | (k', v') :: rest => if k = k' then (k, v) :: rest else (k', v') :: replace k v rest

def get? (m : FiniteMap κ υ) (k : κ) : Option υ := find? k m.entries

def contains (m : FiniteMap κ υ) (k : κ) : Bool := (m.get? k).isSome

/-- Writes at the key's place, or at the end for a new key. -/
def insert (m : FiniteMap κ υ) (k : κ) (v : υ) : FiniteMap κ υ := ⟨replace k v m.entries⟩

/-- Inserts the entries from left to right. -/
def insertAll (m : FiniteMap κ υ) (entries : List (κ × υ)) : FiniteMap κ υ :=
  entries.foldl (fun m e => m.insert e.1 e.2) m

private theorem find?_replace (k j : κ) (v : υ) (l : List (κ × υ)) :
    find? j (replace k v l) = if j = k then some v else find? j l := by
  induction l with
  | nil => simp [replace, find?]
  | cons e rest ih =>
    obtain ⟨k', v'⟩ := e
    by_cases h : k = k'
    · subst h
      by_cases hj : j = k <;> simp [replace, find?, hj]
    · by_cases hj : j = k'
      · subst hj
        simp [replace, find?, h, Ne.symm h]
      · simp [replace, find?, h, hj, ih]

@[simp] theorem get?_empty (k : κ) : (empty : FiniteMap κ υ).get? k = none := rfl

/-- Insertion changes what is read at its own key and nothing else. -/
theorem get?_insert (m : FiniteMap κ υ) (k j : κ) (v : υ) :
    (m.insert k v).get? j = if j = k then some v else m.get? j :=
  find?_replace k j v m.entries

@[simp] theorem get?_insert_self (m : FiniteMap κ υ) (k : κ) (v : υ) :
    (m.insert k v).get? k = some v := by
  simp [get?_insert]

theorem get?_insert_ne (m : FiniteMap κ υ) {k j : κ} (h : j ≠ k) (v : υ) :
    (m.insert k v).get? j = m.get? j := by
  simp [get?_insert, h]

end Lookup

end FiniteMap

end JavaMachine
