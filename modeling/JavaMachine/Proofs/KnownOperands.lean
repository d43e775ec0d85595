import JavaMachine.Proofs.SlotRearrangement

/-!
# Known operands

When it is known which values are on top of the operand stack, the instructions that take them off
have one outcome. Here the single pops and pushes are computed, and what an instruction makes of the
activation is read off what its computation makes of the stack.
-/
namespace JavaMachine

namespace OperandStack

variable {s : OperandStack} {v : Value} {values rest : List Value}

theorem WellFormed.below (h : s.WellFormed) (values : s.values = v :: rest) :
    (s.withValues rest).WellFormed :=
  h.beneath (show s.values = [v] ++ rest from values)

section Popped

variable {α : Type} {expected : String} {read? : Value → Option α} {x : α}

theorem WellFormed.popAs_eq (h : s.WellFormed) (values : s.values = v :: rest)
    (read : read? v = some x) : popAs expected read? s = .ok x (s.withValues rest) := by
  rw [popAs_of_cons expected read? h values, read]

theorem WellFormed.bind_popAs (h : s.WellFormed) (values : s.values = v :: rest)
    (read : read? v = some x) {β : Type} (f : α → Change β) :
    (popAs expected read? >>= f) s = f x (s.withValues rest) :=
  bind_of_ok (h.popAs_eq values read)

end Popped

theorem WellFormed.popInt_eq (h : s.WellFormed) {x : Int32} (values : s.values = .int x :: rest) :
    popInt s = .ok x (s.withValues rest) :=
  h.popAs_eq values rfl

theorem WellFormed.popReference_eq (h : s.WellFormed) {r : Reference}
    (values : s.values = .reference r :: rest) : popReference s = .ok r (s.withValues rest) :=
  h.popAs_eq values rfl

theorem WellFormed.popNonNull_eq (h : s.WellFormed) {r : Reference} (there : r ≠ .null)
    (values : s.values = .reference r :: rest) : popNonNull s = .ok r (s.withValues rest) := by
  unfold popNonNull
  rw [bind_of_ok (h.popReference_eq values), if_neg there]
  rfl

theorem WellFormed.popNonNull_of_null (h : s.WellFormed)
    (values : s.values = .reference .null :: rest) :
    popNonNull s = .error .nullPointer (s.withValues rest) := by
  unfold popNonNull
  rw [bind_of_ok (h.popReference_eq values), if_pos rfl]
  rfl

theorem push_of_fits (h : s.WellFormed) (fits : slots (v :: s.values) ≤ s.maxStack) :
    push v s = .ok () (s.withValues (v :: s.values)) :=
  (push_eq_ok_iff h).2 ⟨fits, rfl⟩

theorem push_of_full (h : s.WellFormed) (full : s.maxStack < slots (v :: s.values)) :
    push v s = .error (.operandStackOverflow s.maxStack) s := by
  rw [slots_cons, ← h.size_eq, Nat.add_comm] at full
  exact if_pos full

end OperandStack

def Activation.withValues (a : Activation) (values : List Value) : Activation :=
  { a with frame := { a.frame with stack := a.frame.stack.withValues values } }

@[simp] theorem Activation.stack_withValues (a : Activation) (values : List Value) :
    (a.withValues values).frame.stack = a.frame.stack.withValues values := rfl

@[simp] theorem Activation.world_withValues (a : Activation) (values : List Value) :
    (a.withValues values).world = a.world := rfl

namespace Execution

variable {a : Activation} {values : List Value} {e : Error}

section OnStack

variable {α : Type} {x : OperandStack.Change α} {v : α}

theorem onStack_of_ok (ran : x a.frame.stack = .ok v (a.frame.stack.withValues values)) :
    onStack x a = .ok v (a.withValues values) :=
  onStack_eq_ok.2 ⟨_, ran, rfl⟩

theorem onStack_of_error (ran : x a.frame.stack = .error e (a.frame.stack.withValues values)) :
    onStack x a = .error e (a.withValues values) :=
  onStack_eq_error.2 ⟨_, ran, rfl⟩

theorem bind_onStack (ran : x a.frame.stack = .ok v (a.frame.stack.withValues values))
    {β : Type} (f : α → Execution β) : (onStack x >>= f) a = f v (a.withValues values) :=
  bind_of_ok (onStack_of_ok ran)

end OnStack

theorem proceeding_of_ok {x : Execution Unit} {a' : Activation} (ran : x a = .ok () a') :
    proceeding x a = .ok .proceed a' :=
  proceeding_eq_ok.2 ran

theorem proceeding_of_error {x : Execution Unit} {a' : Activation} (ran : x a = .error e a') :
    proceeding x a = .error e a' :=
  bind_of_error ran

theorem change_of_ok {x : OperandStack.Change Unit}
    (ran : x a.frame.stack = .ok () (a.frame.stack.withValues values)) :
    change x a = .ok .proceed (a.withValues values) :=
  proceeding_of_ok (onStack_of_ok ran)

theorem change_of_error {x : OperandStack.Change Unit}
    (ran : x a.frame.stack = .error e (a.frame.stack.withValues values)) :
    change x a = .error e (a.withValues values) :=
  proceeding_of_error (onStack_of_error ran)

end Execution

end JavaMachine
