import JavaMachine.Execution.Initialization

/-!
# Pending classes

Before a class is used, the classes from it up to the first one whose initialization has begun are
initialized, outermost first. Whenever it is the turn of one of them, the initialization of its
superclass has begun, and after the last turn that of the class itself has.
-/
namespace JavaMachine

namespace World

variable {w : World} {c k s : ClassId} {pending : List ClassId}

theorem isInitialized_markInitialized :
    (w.markInitialized c).isInitialized k = true ↔ k = c ∨ w.isInitialized k = true := by
  unfold markInitialized
  split
  · rename_i begun
    constructor
    · exact .inr
    · rintro (rfl | h)
      · exact begun
      · exact h
  · simp [isInitialized]

@[simp] theorem classes_markInitialized (w : World) (c : ClassId) :
    (w.markInitialized c).classes = w.classes := by
  unfold markInitialized
  split <;> rfl

theorem isInitialized_markInitialized_self (w : World) (c : ClassId) :
    (w.markInitialized c).isInitialized c = true := isInitialized_markInitialized.2 (.inl rfl)

/-! ### The list of pending classes -/

theorem not_isInitialized_of_mem_uninitialized (h : k ∈ w.uninitialized c) :
    w.isInitialized k = false := by
  have := List.all_eq_true.1 List.all_takeWhile k (List.mem_reverse.1 h)
  simpa using this

theorem uninitialized_of_begun (begun : w.isInitialized c = true) : w.uninitialized c = [] := by
  unfold uninitialized
  cases up : w.classes.superclass? c with
  | none => simp [ClassTable.superclasses_of_none up, begun]
  | some s => simp [ClassTable.superclasses_of_some up, begun]

theorem uninitialized_of_none (fresh : w.isInitialized c = false)
    (up : w.classes.superclass? c = none) : w.uninitialized c = [c] := by
  simp [uninitialized, ClassTable.superclasses_of_none up, fresh]

theorem uninitialized_of_some (fresh : w.isInitialized c = false)
    (up : w.classes.superclass? c = some s) : w.uninitialized c = w.uninitialized s ++ [c] := by
  simp [uninitialized, ClassTable.superclasses_of_some up, fresh]

theorem mem_uninitialized_self (fresh : w.isInitialized c = false) : c ∈ w.uninitialized c := by
  cases up : w.classes.superclass? c with
  | none => simp [uninitialized_of_none fresh up]
  | some s => simp [uninitialized_of_some fresh up]

theorem mem_superclasses_of_mem_uninitialized (h : k ∈ w.uninitialized c) :
    k ∈ w.classes.superclasses c := by
  apply (List.takeWhile_sublist fun k => !w.isInitialized k).mem
  exact List.mem_reverse.1 h

/-! ### Initializers that are still to be started -/

def isUnstarted (w : World) (c : ClassId) : Bool :=
  !w.isInitialized c && (w.classes.declared? .initializer c).isSome

/-- The classes from `c` up with initializers that are still to be started. -/
def unstarted (w : World) (c : ClassId) : List ClassId :=
  (w.classes.superclasses c).filter w.isUnstarted

theorem mem_unstarted_of_mem_uninitialized {m : Method} (h : k ∈ w.uninitialized c)
    (declared : w.classes.declared? .initializer k = some m) : k ∈ w.unstarted c := by
  apply List.mem_filter.2
  simp [mem_superclasses_of_mem_uninitialized h, isUnstarted, declared,
    not_isInitialized_of_mem_uninitialized h]

/-! ### Turns -/

/-- The initialization of the superclass of the class has begun. -/
def IsDue (w : World) (c : ClassId) : Prop :=
  ∀ s, w.classes.superclass? c = some s → w.isInitialized s = true

/-- Each of the classes is due once those before it are initialized. -/
def Due (w : World) : List ClassId → Prop
  | [] => True
  | c :: rest => w.IsDue c ∧ (w.markInitialized c).Due rest

theorem Due.append (h : w.Due pending)
    (last : ∀ s, w.classes.superclass? c = some s → s ∈ pending ∨ w.isInitialized s = true) :
    w.Due (pending ++ [c]) := by
  induction pending generalizing w with
  | nil => exact ⟨fun s up => (last s up).resolve_left List.not_mem_nil, trivial⟩
  | cons k rest ih =>
    refine ⟨h.1, ih h.2 ?_⟩
    intro s up
    rw [classes_markInitialized] at up
    rw [isInitialized_markInitialized]
    rcases last s up with member | begun
    · rcases List.mem_cons.1 member with rfl | later
      · exact .inr (.inl rfl)
      · exact .inl later
    · exact .inr (.inr begun)

/-- The walk up the hierarchy stops where the classes above count as initialized, and lists every
class after its superclass. -/
theorem due_uninitialized (w : World) (c : ClassId) : w.Due (w.uninitialized c) := by
  induction c using Nat.strongRecOn with
  | ind c ih =>
    cases fresh : w.isInitialized c with
    | true =>
      rw [uninitialized_of_begun fresh]
      trivial
    | false =>
      cases up : w.classes.superclass? c with
      | none =>
        rw [uninitialized_of_none fresh up]
        refine ⟨?_, trivial⟩
        intro s found
        rw [up] at found
        cases found
      | some s =>
        rw [uninitialized_of_some fresh up]
        apply (ih s (ClassTable.superclass?_lt up)).append
        intro k found
        cases up.symm.trans found
        cases begun : w.isInitialized s with
        | true => exact .inr rfl
        | false => exact .inl (mem_uninitialized_self begun)

end World

end JavaMachine
