import JavaMachine.Class.Table
import JavaMachine.Heap.Entity

/-!
# Return addresses among values

A position that a subroutine call leaves on the operand stack is a value like others there, but no
type stands for it: numbers and references are plain. Everything that has a type is plain, and so
are the fields of a new object.
-/
namespace JavaMachine

namespace Value

def IsPlain (v : Value) : Prop := v.returnAddress? = none

/-- If the value is a return address, then one of the given positions. -/
def Within (A : Nat → Prop) (v : Value) : Prop :=
  ∀ position, v = .returnAddress position → A position

instance (v : Value) : Decidable v.IsPlain := inferInstanceAs (Decidable (_ = none))

variable {A B : Nat → Prop} {v : Value}

@[simp] theorem isPlain_int (v : Int32) : (int v).IsPlain := rfl

@[simp] theorem isPlain_float (v : Binary32) : (float v).IsPlain := rfl

@[simp] theorem isPlain_long (v : Int64) : (long v).IsPlain := rfl

@[simp] theorem isPlain_double (v : Binary64) : (double v).IsPlain := rfl

@[simp] theorem isPlain_reference (r : Reference) : (reference r).IsPlain := rfl

theorem IsPlain.within (h : v.IsPlain) : v.Within A := by
  rintro position rfl
  cases h

theorem Within.mono (h : v.Within A) (hAB : ∀ position, A position → B position) : v.Within B :=
  fun position same => hAB position (h position same)

@[simp] theorem isPlain_widen (s : Scalar) : s.widen.IsPlain := by
  cases s <;> rfl

theorem isPlain_zero (t : FieldType) : t.zero.IsPlain := by
  cases t with
  | primitive p => exact isPlain_widen _
  | object name | array component => rfl

end Value

def FiniteMap.IsPlain {κ : Type} [DecidableEq κ] (m : FiniteMap κ Value) : Prop :=
  ∀ key v, m.get? key = some v → v.IsPlain

namespace FiniteMap

variable {κ : Type} [DecidableEq κ] {m : FiniteMap κ Value}

theorem isPlain_empty : (empty : FiniteMap κ Value).IsPlain := by
  intro key v found
  cases found

theorem IsPlain.insert (h : m.IsPlain) {v : Value} (plain : v.IsPlain) (key : κ) :
    (m.insert key v).IsPlain := by
  intro key' v' found
  rw [get?_insert] at found
  split at found
  · cases found
    exact plain
  · exact h key' v' found

theorem IsPlain.insertAll (h : m.IsPlain) {entries : List (κ × Value)}
    (plain : ∀ e ∈ entries, e.2.IsPlain) : (m.insertAll entries).IsPlain := by
  induction entries generalizing m with
  | nil => exact h
  | cons e rest ih =>
    obtain ⟨first, rest⟩ := List.forall_mem_cons.1 plain
    exact ih (h.insert first e.1) rest

end FiniteMap

theorem Fields.isPlain_initial (fields : List Field) : (Fields.initial fields).IsPlain := by
  refine FiniteMap.isPlain_empty.insertAll fun e member => ?_
  obtain ⟨f, -, rfl⟩ := List.mem_map.1 member
  exact Value.isPlain_zero f.type

end JavaMachine
