import JavaMachine.Execution.Execute
import JavaMachine.Proofs.Composition

/-!
# What computations do to an operand stack

Every computation on an operand stack is made of pushes and pops. Hence what a single push and a
single pop keep is kept by all of them, also by one that fails half way: the limit of the stack,
and that its height is that of its values and within the limit. Most of them take their operands
off first and push one plain value in the end, so what is left of one that failed is what was
beneath the operands it had taken. Only the operators that rearrange the stack push several
values, and push what they have popped, return addresses included.
-/
namespace JavaMachine

namespace OperandStack

/-- The second stack comes from the first one by pushes and pops. -/
inductive Evolves (s : OperandStack) : OperandStack → Prop
  | refl : Evolves s s
  | push {s₁ s' : OperandStack} {v : Value} (h : Evolves s s₁)
      (pushed : OperandStack.push v s₁ = .ok () s') : Evolves s s'
  | pop {s₁ s' : OperandStack} {v : Value} (h : Evolves s s₁)
      (popped : OperandStack.pop s₁ = .ok v s') : Evolves s s'

theorem Evolves.trans {s s₁ s' : OperandStack} (h : s.Evolves s₁) (h' : s₁.Evolves s') :
    s.Evolves s' := by
  induction h' with
  | refl => exact h
  | push _ pushed ih => exact .push ih pushed
  | pop _ popped ih => exact .pop ih popped

instance : IsPreorder OperandStack Evolves where
  refl _ := .refl
  trans _ _ _ := Evolves.trans

theorem maxStack_push {s s' : OperandStack} {v : Value} (h : push v s = .ok () s') :
    s'.maxStack = s.maxStack := by
  unfold push at h
  dsimp only at h
  split at h <;> cases h
  rfl

theorem maxStack_pop {s s' : OperandStack} {v : Value} (h : pop s = .ok v s') :
    s'.maxStack = s.maxStack := by
  unfold pop at h
  split at h <;> cases h
  rfl

theorem Evolves.maxStack {s s' : OperandStack} (h : s.Evolves s') : s'.maxStack = s.maxStack := by
  induction h with
  | refl => rfl
  | push _ pushed ih => exact (maxStack_push pushed).trans ih
  | pop _ popped ih => exact (maxStack_pop popped).trans ih

theorem WellFormed.evolves {s s' : OperandStack} (h : s.WellFormed) (evolves : s.Evolves s') :
    s'.WellFormed := by
  induction evolves with
  | refl => exact h
  | push _ pushed ih => exact ih.push pushed
  | pop _ popped ih => exact ih.pop popped

/-! ### Steps -/

inductive Pops : Steps Error OperandStack
  | pop (s : OperandStack) : Pops Value OperandStack.pop s

inductive PushesPlain : Steps Error OperandStack
  | push {v : Value} (plain : v.IsPlain) (s : OperandStack) :
      PushesPlain Unit (OperandStack.push v) s

/-- A pop, or a push of a value that is no return address but one of the given positions. -/
inductive Moves (A : Nat → Prop) : Steps Error OperandStack
  | pop (s : OperandStack) : Moves A Value OperandStack.pop s
  | push {v : Value} (within : v.Within A) (s : OperandStack) :
      Moves A Unit (OperandStack.push v) s

def Takes {α : Type} (x : Change α) : Prop := ∀ s, Composed Pops x s

/-- The computation takes values off the stack and then puts at most one there, which is plain. -/
def Replaces {α : Type} (x : Change α) : Prop := ∀ s, Concluded Pops PushesPlain x s

def Holds (A : Nat → Prop) (s : OperandStack) : Prop := ∀ v ∈ s.values, v.Within A

/-- The second stack is what is beneath some of the values of the first one. -/
def Uncovers (s s' : OperandStack) : Prop := s'.values <:+ s.values

instance : IsPreorder OperandStack Uncovers where
  refl _ := List.suffix_refl _
  trans _ _ _ h h' := h'.trans h

theorem pop_eq_ok {s s' : OperandStack} {v : Value} (h : pop s = .ok v s') :
    s.values = v :: s'.values := by
  unfold pop at h
  split at h
  · cases h
  · rename_i w rest values
    cases h
    exact values

theorem push_eq_ok {s s' : OperandStack} {v : Value} (h : push v s = .ok () s') :
    s'.values = v :: s.values := by
  unfold push at h
  dsimp only at h
  split at h <;> cases h
  rfl

theorem push_eq_error {s s' : OperandStack} {v : Value} {e : Error}
    (h : push v s = .error e s') : s' = s := by
  unfold push at h
  dsimp only at h
  split at h <;> cases h
  rfl

theorem evolves_push (v : Value) (s : OperandStack) : s.Evolves (endState (push v s)) := by
  cases h : push v s with
  | ok _ s' => exact .push .refl h
  | error e s' =>
    cases push_eq_error h
    exact .refl

theorem evolves_pop (s : OperandStack) : s.Evolves (endState (pop s)) := by
  cases h : pop s with
  | ok v s' => exact .pop .refl h
  | error e s' =>
    unfold pop at h
    split at h <;> cases h
    exact .refl

theorem uncovers_pop (s : OperandStack) : s.Uncovers (endState (pop s)) := by
  cases h : pop s with
  | ok v s' =>
    unfold Uncovers
    rw [endState_ok, pop_eq_ok h]
    exact List.suffix_cons v s'.values
  | error e s' =>
    unfold pop at h
    split at h <;> cases h
    exact refl_of Uncovers s

theorem Uncovers.holds {A : Nat → Prop} {s s' : OperandStack} (h : s.Uncovers s')
    (held : s.Holds A) : s'.Holds A := fun v member => held v (h.subset member)

section Composition

variable {α : Type} {A : Nat → Prop} {x : Change α} {s s' : OperandStack}

theorem Moves.evolves (α : Type) (x : Change α) (s : OperandStack) (h : Moves A α x s) :
    s.Evolves (endState (x s)) := by
  cases h with
  | pop => exact s.evolves_pop
  | push within => exact s.evolves_push _

theorem Moves.holds (α : Type) (x : Change α) (s : OperandStack) (h : Moves A α x s)
    (held : s.Holds A) : (endState (x s)).Holds A := by
  cases h with
  | pop => exact s.uncovers_pop.holds held
  | @push v within =>
    cases hp : OperandStack.push v s with
    | ok _ s' =>
      unfold Holds
      rw [endState_ok, push_eq_ok hp]
      exact List.forall_mem_cons.2 ⟨within, held⟩
    | error e s' =>
      cases push_eq_error hp
      exact held

theorem Takes.moves (h : Takes x) (s : OperandStack) : Composed (Moves A) x s := by
  refine (h s).mono ?_
  rintro _ _ s ⟨⟩
  exact .pop s

theorem Replaces.moves (h : Replaces x) (s : OperandStack) : Composed (Moves A) x s := by
  refine (h s).toComposed ?_ ?_
  · rintro _ _ s ⟨⟩
    exact .pop s
  · rintro _ _ s ⟨plain⟩
    exact .push plain.within s

theorem Takes.uncovers (h : Takes x) (s : OperandStack) : s.Uncovers (endState (x s)) := by
  refine (h s).relates ?_
  rintro _ _ s ⟨⟩
  exact s.uncovers_pop

/-- What is left of a failed computation is what was beneath the values it had taken. -/
theorem Replaces.uncovers_of_error (h : Replaces x) {e : Error} (failed : x s = .error e s') :
    s.Uncovers s' := by
  refine (h s).relates_of_error ?_ ?_ failed
  · rintro _ _ s ⟨⟩
    exact s.uncovers_pop
  · rintro _ _ s e s' ⟨plain⟩ refused
    cases push_eq_error refused
    exact refl_of Uncovers s

theorem Takes.replaces (h : Takes x) : Replaces x := fun s => .composed (h s)

theorem Takes.pure (a : α) : Takes (Pure.pure a) := fun s => .pure a s

theorem Takes.throw (e : Error) : Takes (MonadExcept.throw e : Change α) := fun s => .throw e s

theorem Takes.ofExcept (x : Except Error α) : Takes (MonadExcept.ofExcept x : Change α) :=
  fun s => .ofExcept x s

theorem Takes.bind {β : Type} {f : α → Change β} (hx : Takes x) (hf : ∀ a, Takes (f a)) :
    Takes (x >>= f) := fun s => .bind (hx s) fun a s' _ => hf a s'

theorem Takes.ite {p : Prop} [Decidable p] {y : Change α} (hx : Takes x) (hy : Takes y) :
    Takes (if p then x else y) := fun s => .ite (hx s) (hy s)

theorem Replaces.bind {β : Type} {f : α → Change β} (hx : Takes x) (hf : ∀ a, Replaces (f a)) :
    Replaces (x >>= f) := fun s => .bind (hx s) fun a s' _ => hf a s'

end Composition

/-! ### Single values -/

theorem takes_pop : Takes pop := fun s => .step (.pop s)

theorem replaces_push {v : Value} (plain : v.IsPlain) : Replaces (push v) :=
  fun s => .last (.push plain s)

theorem takes_popAs {α : Type} (expected : String) (read? : Value → Option α) :
    Takes (popAs expected read?) := by
  unfold popAs
  refine .bind takes_pop fun v => ?_
  split
  · exact .pure _
  · exact .throw _

theorem popAs_eq_ok {α : Type} {expected : String} {read? : Value → Option α} {a : α}
    {s s' : OperandStack} (h : popAs expected read? s = .ok a s') :
    ∃ v, s.values = v :: s'.values ∧ read? v = some a := by
  unfold popAs at h
  obtain ⟨v, s₁, popped, h⟩ := bind_eq_ok.1 h
  cases read : read? v with
  | some b =>
    rw [read] at h
    cases h
    exact ⟨v, pop_eq_ok popped, read⟩
  | none =>
    rw [read] at h
    cases h

theorem takes_popNonNull : Takes popNonNull := by
  unfold popNonNull
  refine .bind (takes_popAs _ _) fun r => ?_
  exact .ite (.bind (.throw _) fun _ => .pure r) (.pure r)

theorem takes_popTyped (type : FieldType) : Takes (popTyped type) := by
  cases type with
  | primitive p => exact .bind (takes_popAs _ _) fun _ => .pure _
  | object name => exact .bind (takes_popAs _ _) fun _ => .pure _
  | array type => exact .bind (takes_popAs _ _) fun _ => .pure _

theorem gives_popTyped (type : FieldType) : Gives Value.IsPlain (popTyped type) := by
  cases type with
  | primitive p => exact .bind fun a => .pure (Value.isPlain_widen a)
  | object name => exact .bind fun r => .pure (Value.isPlain_reference r)
  | array type => exact .bind fun r => .pure (Value.isPlain_reference r)

theorem takes_popParameters (parameters : List FieldType) :
    ∀ popped, Takes (popParameters parameters popped) := by
  induction parameters with
  | nil => exact fun popped => .pure popped
  | cons t earlier ih => exact fun popped => .bind (takes_popTyped t) fun v => ih _

theorem takes_popArguments (parameters : List FieldType) (hasReceiver : Bool) :
    Takes (popArguments parameters hasReceiver) := by
  unfold popArguments
  refine .bind (takes_popParameters _ _) fun arguments => ?_
  exact .ite (.bind (takes_popAs _ _) fun _ => .pure _) (.pure _)

end OperandStack

open OperandStack (Takes Replaces Moves takes_pop takes_popAs takes_popNonNull replaces_push)

/-! ### Rearranging -/

namespace StackOperator

open OperandStack

variable {A : Nat → Prop} {s s' : OperandStack}

/-- The values taken off a stack are among the given positions if the stack's are, and the rest of
the stack's too. -/
structure Grabs (A : Nat → Prop) (s : OperandStack) (x : Change (List Value)) : Prop where
  composed : Composed (Moves A) x s
  within : ∀ values s', x s = .ok values s' → (∀ v ∈ values, v.Within A) ∧ s'.Holds A

theorem within_of_pop {v : Value} (h : s.Holds A) (popped : OperandStack.pop s = .ok v s') :
    v.Within A ∧ s'.Holds A := by
  unfold Holds at h
  rw [pop_eq_ok popped] at h
  exact List.forall_mem_cons.1 h

theorem within_of_popCategory1 {v : Value} (h : s.Holds A) (popped : popCategory1 s = .ok v s') :
    v.Within A ∧ s'.Holds A := by
  obtain ⟨w, values, read⟩ := popAs_eq_ok popped
  split at read
  · cases read
    unfold Holds at h
    rw [values] at h
    exact List.forall_mem_cons.1 h
  · cases read

theorem takes_takeOne : Takes takeOne := .bind (takes_popAs _ _) fun _ => .pure _

theorem takes_takeTwo : Takes takeTwo := by
  unfold takeTwo
  refine .bind takes_pop fun upper => ?_
  exact .ite (.pure _) (.bind (takes_popAs _ _) fun _ => .pure _)

theorem grabs_takeOne (h : s.Holds A) : Grabs A s takeOne := by
  refine ⟨takes_takeOne.moves s, fun values s' taken => ?_⟩
  obtain ⟨v, s₁, popped, done⟩ := bind_eq_ok.1 taken
  cases done
  obtain ⟨within, rest⟩ := within_of_popCategory1 h popped
  exact ⟨List.forall_mem_singleton.2 within, rest⟩

theorem grabs_takeTwo (h : s.Holds A) : Grabs A s takeTwo := by
  refine ⟨takes_takeTwo.moves s, fun values s' taken => ?_⟩
  unfold takeTwo at taken
  obtain ⟨upper, s₁, popped, taken⟩ := bind_eq_ok.1 taken
  obtain ⟨within, rest⟩ := within_of_pop h popped
  split at taken
  · cases taken
    exact ⟨List.forall_mem_singleton.2 within, rest⟩
  · obtain ⟨lower, s₂, popped', done⟩ := bind_eq_ok.1 taken
    cases done
    obtain ⟨within', rest'⟩ := within_of_popCategory1 rest popped'
    exact ⟨List.forall_mem_cons.2 ⟨within', List.forall_mem_singleton.2 within⟩, rest'⟩

theorem moves_pushAll {values : List Value} (h : ∀ v ∈ values, v.Within A) :
    ∀ s, Composed (Moves A) (pushAll values) s := by
  induction values with
  | nil => exact fun s => .pure () s
  | cons v rest ih =>
    obtain ⟨first, rest⟩ := List.forall_mem_cons.1 h
    exact fun s => .bind (.step (.push first s)) fun _ s' _ => ih rest s'

theorem moves_exchange {x y : Change (List Value)} {order : List Value → List Value → List Value}
    (hx : Grabs A s x) (hy : ∀ s, s.Holds A → Grabs A s y)
    (mem_order : ∀ a b v, v ∈ order a b → v ∈ a ∨ v ∈ b) :
    Composed (Moves A) (x >>= fun a => y >>= fun b => pushAll (order a b)) s := by
  refine .bind hx.composed fun a s₁ taken => ?_
  obtain ⟨first, rest⟩ := hx.within a s₁ taken
  refine .bind (hy s₁ rest).composed fun b s₂ taken' => ?_
  obtain ⟨second, -⟩ := (hy s₁ rest).within b s₂ taken'
  exact moves_pushAll (fun v member => (mem_order a b v member).elim (first v) (second v)) s₂

theorem moves_repeat {x : Change (List Value)} (hx : Grabs A s x) :
    Composed (Moves A) (x >>= fun a => pushAll (a ++ a)) s := by
  refine .bind hx.composed fun a s₁ taken => ?_
  obtain ⟨within, -⟩ := hx.within a s₁ taken
  exact moves_pushAll (fun v member => (List.mem_append.1 member).elim (within v) (within v)) s₁

/-- The operators push nothing but what was on the stack. -/
theorem moves_run (operator : StackOperator) (h : s.Holds A) :
    Composed (Moves A) operator.run s := by
  have around (a b : List Value) (v : Value) (member : v ∈ a ++ b ++ a) : v ∈ a ∨ v ∈ b := by
    rcases List.mem_append.1 member with front | back
    · exact List.mem_append.1 front
    · exact .inl back
  cases operator with
  | pop => exact .bind (grabs_takeOne h).composed fun _ s' _ => .pure _ s'
  | pop2 => exact .bind (grabs_takeTwo h).composed fun _ s' _ => .pure _ s'
  | dup => exact moves_repeat (grabs_takeOne h)
  | dup2 => exact moves_repeat (grabs_takeTwo h)
  | dupX1 => exact moves_exchange (grabs_takeOne h) (fun _ => grabs_takeOne) around
  | dupX2 => exact moves_exchange (grabs_takeOne h) (fun _ => grabs_takeTwo) around
  | dup2X1 => exact moves_exchange (grabs_takeTwo h) (fun _ => grabs_takeOne) around
  | dup2X2 => exact moves_exchange (grabs_takeTwo h) (fun _ => grabs_takeTwo) around
  | swap =>
    exact moves_exchange (grabs_takeOne h) (fun _ => grabs_takeOne) fun _ _ _ => List.mem_append.1

end StackOperator

/-! ### Operands and results -/

namespace OperandStack

section Operands

variable {α β : Type} {expected expected' : String} {read? : Value → Option α}
  {read?' : Value → Option β}

theorem replaces_one {f : α → Value} (plain : ∀ a, (f a).IsPlain) :
    Replaces (popAs expected read? >>= fun a => push (f a)) :=
  .bind (takes_popAs _ _) fun a => replaces_push (plain a)

theorem replaces_two {f : α → β → Value} (plain : ∀ a b, (f a b).IsPlain) :
    Replaces (popAs expected read? >>= fun a =>
      popAs expected' read?' >>= fun b => push (f a b)) :=
  .bind (takes_popAs _ _) fun a => replaces_one (plain a)

/-- Two operands are replaced by the value that is computed from them, if there is one. -/
theorem replaces_computed {γ : Type} (x : α → β → Except Error γ) {f : γ → Value}
    (plain : ∀ c, (f c).IsPlain) :
    Replaces (popAs expected read? >>= fun a =>
      popAs expected' read?' >>= fun b => ofExcept (x a b) >>= fun c => push (f c)) :=
  .bind (takes_popAs _ _) fun _ => .bind (takes_popAs _ _) fun _ =>
    .bind (.ofExcept _) fun c => replaces_push (plain c)

theorem takes_tested {γ : Type} (f : α → β → γ) :
    Takes (popAs expected read? >>= fun a =>
      popAs expected' read?' >>= fun b => return f a b) :=
  .bind (takes_popAs _ _) fun _ => .bind (takes_popAs _ _) fun _ => .pure _

end Operands

end OperandStack

open OperandStack (replaces_one replaces_two replaces_computed takes_tested)

theorem ArithmeticOperator.replaces_run (operator : ArithmeticOperator) (kind : NumericKind) :
    Replaces (operator.run kind) := by
  cases kind with
  | int => exact replaces_computed _ fun _ => rfl
  | long => exact replaces_computed _ fun _ => rfl
  | float => exact replaces_two fun _ _ => rfl
  | double => exact replaces_two fun _ _ => rfl

theorem NumericKind.replaces_negate (kind : NumericKind) : Replaces kind.negate := by
  cases kind <;> exact replaces_one fun _ => rfl

theorem ShiftOperator.replaces_run (operator : ShiftOperator) (kind : IntegralKind) :
    Replaces (operator.run kind) := by
  cases kind <;> exact replaces_two fun _ _ => rfl

theorem BitwiseOperator.replaces_run (operator : BitwiseOperator) (kind : IntegralKind) :
    Replaces (operator.run kind) := by
  cases kind <;> exact replaces_two fun _ _ => rfl

theorem Conversion.replaces_run (conversion : Conversion) : Replaces conversion.run := by
  cases conversion with
  | intToByte | intToChar | intToShort => exact replaces_one Value.isPlain_widen
  | _ => exact replaces_one fun _ => rfl

namespace Comparison

theorem replaces_longs : Replaces longs := replaces_two fun _ _ => rfl

theorem replaces_floats (nanIsGreater : Bool) : Replaces (floats nanIsGreater) :=
  replaces_two fun _ _ => rfl

theorem replaces_doubles (nanIsGreater : Bool) : Replaces (doubles nanIsGreater) :=
  replaces_two fun _ _ => rfl

theorem takes_references (equal : Bool) : Takes (references equal) := takes_tested _

theorem takes_null (isNull : Bool) : Takes (null isNull) :=
  .bind (takes_popAs _ _) fun _ => .pure _

end Comparison

namespace Condition

theorem takes_testZero (condition : Condition) : Takes condition.testZero :=
  .bind (takes_popAs _ _) fun _ => .pure _

theorem takes_testInts (condition : Condition) : Takes condition.testInts :=
  takes_tested _

end Condition

namespace Execution

theorem takes_popElement : Takes popElement :=
  .bind (takes_popAs _ _) fun _ => .bind takes_popNonNull fun _ => .pure _

theorem takes_popLengths (n : Nat) : ∀ popped, Takes (popLengths n popped) := by
  induction n with
  | zero => exact fun popped => .pure popped
  | succ n ih => exact fun popped => .bind (takes_popAs _ _) fun _ => ih _

end Execution

end JavaMachine
