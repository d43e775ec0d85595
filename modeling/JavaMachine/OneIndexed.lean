/-!
# Sequences numbered from one

Index 0 is never valid, as in the constant pools of class files: the element pushed as the
`n`-th is found at `n`.
-/
namespace JavaMachine

/-- A growing sequence whose first element has index 1. -/
structure OneIndexed (α : Type) where
  items : Array α
  deriving DecidableEq, Inhabited

namespace OneIndexed

variable {α : Type}

def empty : OneIndexed α := ⟨#[]⟩

def size (s : OneIndexed α) : Nat := s.items.size

def isEmpty (s : OneIndexed α) : Bool := s.items.isEmpty

def get? (s : OneIndexed α) : Nat → Option α
  | 0 => none
  | i + 1 => s.items[i]?

@[simp] theorem get?_zero (s : OneIndexed α) : s.get? 0 = none := rfl

def push (s : OneIndexed α) (a : α) : OneIndexed α := ⟨s.items.push a⟩

@[simp] theorem size_push (s : OneIndexed α) (a : α) : (s.push a).size = s.size + 1 := by
  simp [push, size]

/-- A pushed element is found at the new size, and older elements stay where they are. -/
theorem get?_push (s : OneIndexed α) (a : α) (i : Nat) :
    (s.push a).get? i = if i = s.size + 1 then some a else s.get? i := by
  cases i with
  | zero => simp
  | succ i => simp [get?, push, size, Array.getElem?_push]

theorem get?_eq_none_of_lt (s : OneIndexed α) {i : Nat} (h : s.size < i) : s.get? i = none := by
  cases i with
  | zero => rfl
  | succ i =>
    have hs : s.items.size ≤ i := by simp only [size] at h; omega
    simp [get?, hs]

end OneIndexed

end JavaMachine
