import JavaMachine.Proofs.StackEffects

/-!
# What instructions do to their frame and the world

Every instruction first takes operands, loads classes, creates entities and chooses where to go on,
and then does at most one thing that counts: it pushes its result, writes a local variable, a field
or an element, or calls a subroutine. What the steps of both kinds keep is kept by every
instruction, also by one that fails. So a relation between frames is kept that tolerates a push, a
pop, a write of a local variable and another position to go on at, and so is every relation between
worlds that the operations on the world keep. No instruction changes the method of its frame or its
position.
-/
namespace JavaMachine

def LocalVariables.Holds (A : Nat → Prop) (l : LocalVariables) : Prop :=
  ∀ (index : Nat) (v : Value), l.slots[index]? = some (some v) → v.Within A

namespace Frame

structure SamePlace (f f' : Frame) : Prop where
  owner : f'.owner = f.owner
  method : f'.method = f.method
  pc : f'.pc = f.pc

def SameButStack (f f' : Frame) : Prop := f' = { f with stack := f'.stack }

instance : IsPreorder Frame SamePlace where
  refl _ := ⟨rfl, rfl, rfl⟩
  trans _ _ _ h h' := ⟨h'.1.trans h.1, h'.2.trans h.2, h'.3.trans h.3⟩

/-- The elementary changes of a frame that a relation has to tolerate to be kept by every
instruction. -/
structure Tolerated (Q : Frame → Frame → Prop) : Prop where
  push (f : Frame) (v : Value) (stack : OperandStack)
    (h : OperandStack.push v f.stack = .ok () stack) : Q f { f with stack := stack }
  pop (f : Frame) (v : Value) (stack : OperandStack)
    (h : OperandStack.pop f.stack = .ok v stack) : Q f { f with stack := stack }
  locals (f : Frame) (index : Nat) (v : Value) (locals : LocalVariables)
    (h : f.locals.set index v = .ok locals) : Q f { f with locals := locals }
  nextPc (f : Frame) (position : Nat) : Q f { f with nextPc := position }

theorem tolerated_samePlace : Tolerated SamePlace where
  push _ _ _ _ := ⟨rfl, rfl, rfl⟩
  pop _ _ _ _ := ⟨rfl, rfl, rfl⟩
  locals _ _ _ _ _ := ⟨rfl, rfl, rfl⟩
  nextPc _ _ := ⟨rfl, rfl, rfl⟩

theorem Tolerated.evolves {Q : Frame → Frame → Prop} [IsPreorder Frame Q] (hQ : Tolerated Q)
    (f : Frame) {stack : OperandStack} (h : f.stack.Evolves stack) :
    Q f { f with stack := stack } := by
  induction h with
  | refl => exact refl_of Q f
  | @push s₁ s' v _ pushed ih => exact trans_of Q ih (hQ.push { f with stack := s₁ } v s' pushed)
  | @pop s₁ s' v _ popped ih => exact trans_of Q ih (hQ.pop { f with stack := s₁ } v s' popped)

/-- Every return address in the frame is one of the given positions. -/
structure Holds (A : Nat → Prop) (f : Frame) : Prop where
  stack : f.stack.Holds A
  locals : f.locals.Holds A

theorem holds_true (f : Frame) : f.Holds fun _ => True :=
  ⟨fun _ _ _ _ => trivial, fun _ _ _ _ _ => trivial⟩

/-- Where an instruction may go on: in the code, at the instruction itself again, or at one of the
given positions. -/
def MayGoTo (A : Nat → Prop) (f : Frame) (position : Nat) : Prop :=
  position < f.code.size ∨ position = f.pc ∨ A position

theorem branchTarget_lt {f : Frame} {offset : Int32} {target : Nat}
    (h : f.branchTarget offset = .ok target) : target < f.code.size := by
  unfold branchTarget at h
  dsimp only at h
  split at h <;> cases h
  omega

end Frame

def World.Stores (w : World) (v : Value) : Prop :=
  (∃ r c fields name, w.object? r = some (c, fields) ∧ FiniteMap.get? fields name = some v) ∨
    ∃ key, w.statics.get? key = some v

/-- The frame and the world of an activation change along a relation each. -/
structure Activation.Follows (Q : Frame → Frame → Prop) (R : World → World → Prop)
    (a a' : Activation) : Prop where
  frame : Q a.frame a'.frame
  world : R a.world a'.world

instance {Q : Frame → Frame → Prop} {R : World → World → Prop} [IsPreorder Frame Q]
    [IsPreorder World R] : IsPreorder Activation (Activation.Follows Q R) where
  refl _ := ⟨refl_of Q _, refl_of R _⟩
  trans _ _ _ h h' := ⟨trans_of Q h.1 h'.1, trans_of R h.2 h'.2⟩

namespace Execution

open Activation (Follows)

theorem onWorld_eq_ok {α : Type} {a a' : Activation} {x : World.Operation α} {v : α} :
    onWorld x a = .ok v a' ↔ ∃ w, x a.world = .ok v w ∧ a' = ⟨a.frame, w⟩ := by
  obtain ⟨f, w⟩ := a
  unfold onWorld
  dsimp only
  cases x w with
  | ok v' w' =>
    constructor
    · rintro ⟨⟩
      exact ⟨w', rfl, rfl⟩
    · rintro ⟨_, ⟨⟩, rfl⟩
      rfl
  | error e w' => simp

theorem onStack_eq_ok {α : Type} {a a' : Activation} {x : OperandStack.Change α} {v : α} :
    onStack x a = .ok v a' ↔ ∃ stack, x a.frame.stack = .ok v stack ∧
      a' = ⟨{ a.frame with stack := stack }, a.world⟩ := by
  obtain ⟨f, w⟩ := a
  unfold onStack
  dsimp only
  cases x f.stack with
  | ok v' stack =>
    constructor
    · rintro ⟨⟩
      exact ⟨stack, rfl, rfl⟩
    · rintro ⟨_, ⟨⟩, rfl⟩
      rfl
  | error e stack => simp

theorem onWorld_eq_error {α : Type} {a a' : Activation} {x : World.Operation α} {e : Error} :
    onWorld x a = .error e a' ↔ ∃ w, x a.world = .error e w ∧ a' = ⟨a.frame, w⟩ := by
  obtain ⟨f, w⟩ := a
  unfold onWorld
  dsimp only
  cases x w with
  | ok v w' => simp
  | error e' w' =>
    constructor
    · rintro ⟨⟩
      exact ⟨w', rfl, rfl⟩
    · rintro ⟨_, ⟨⟩, rfl⟩
      rfl

theorem onStack_eq_error {α : Type} {a a' : Activation} {x : OperandStack.Change α} {e : Error} :
    onStack x a = .error e a' ↔ ∃ stack, x a.frame.stack = .error e stack ∧
      a' = ⟨{ a.frame with stack := stack }, a.world⟩ := by
  obtain ⟨f, w⟩ := a
  unfold onStack
  dsimp only
  cases x f.stack with
  | ok v stack => simp
  | error e' stack =>
    constructor
    · rintro ⟨⟩
      exact ⟨stack, rfl, rfl⟩
    · rintro ⟨_, ⟨⟩, rfl⟩
      rfl

theorem proceeding_eq_ok {a a' : Activation} {x : Execution Unit} :
    proceeding x a = .ok .proceed a' ↔ x a = .ok () a' := by
  unfold proceeding
  rw [bind_eq_ok]
  constructor
  · rintro ⟨_, _, h, ⟨⟩⟩
    exact h
  · exact fun h => ⟨(), a', h, rfl⟩

theorem proceeding_congr {a b : Activation} {x y : Execution Unit} (same : x a = y b) :
    proceeding x a = proceeding y b := by
  change EStateM.bind x _ a = EStateM.bind y _ b
  unfold EStateM.bind
  rw [same]

open OperandStack (Takes Replaces Moves takes_popAs takes_popNonNull replaces_push takes_popTyped
  gives_popTyped takes_popArguments)

/-- What instructions do before they do anything that counts. The world changes along `R`, and the
frame may go on at the positions `A`. -/
inductive Leads (A : Nat → Prop) (R : World → World → Prop) : Steps Error Activation
  | read (a : Activation) : Leads A R Activation MonadState.get a
  | take {α : Type} {x : OperandStack.Change α} (takes : Takes x) (a : Activation) :
      Leads A R α (onStack x) a
  | world {α : Type} {x : World.Operation α} {a : Activation}
      (related : R a.world (endState (x a.world))) : Leads A R α (onWorld x) a
  | goTo {position : Nat} {a : Activation} (allowed : a.frame.MayGoTo A position) :
      Leads A R Unit (setNextPc position) a

/-- What the instruction does last. A return address that it keeps in its frame is one of the
positions `A`, unless it calls a subroutine. The world changes along `W`, and a write that fails
changes nothing. -/
inductive Finishes (A : Nat → Prop) (W : World → World → Prop) (i : Instruction) :
    Steps Error Activation
  | replace {x : OperandStack.Change Unit} (replaces : Replaces x) (a : Activation) :
      Finishes A W i Unit (onStack x) a
  | fetch {v : Value} {a : Activation} (stored : a.world.Stores v) :
      Finishes A W i Unit (onStack (OperandStack.push v)) a
  | rearrange {operator : StackOperator} {a : Activation} (same : i = .stack operator)
      (moves : Composed (Moves A) operator.run a.frame.stack) :
      Finishes A W i Unit (onStack operator.run) a
  | local {index : UInt16} {v : Value} (within : v.Within A) (a : Activation) :
      Finishes A W i Unit (setLocal index v) a
  | subroutine {wide : Bool} {offset : Int32} (position target : Nat)
      (same : i = .jumpToSubroutine wide offset) (a : Activation) :
      Finishes A W i Unit
        (onStack (OperandStack.push (.returnAddress position)) >>= fun _ => setNextPc target) a
  | write {x : World.Operation Unit} {a : Activation}
      (related : W a.world (endState (x a.world)))
      (undone : AllOrNothing x) : Finishes A W i Unit (onWorld x) a

variable {A : Nat → Prop} {R W : World → World → Prop} {i : Instruction} {a : Activation}

theorem endState_onStack {α : Type} (x : OperandStack.Change α) (a : Activation) :
    endState (onStack x a) =
      { a with frame := { a.frame with stack := endState (x a.frame.stack) } } := by
  unfold onStack
  dsimp only
  cases x a.frame.stack <;> rfl

theorem endState_onWorld {α : Type} (x : World.Operation α) (a : Activation) :
    endState (onWorld x a) = { a with world := endState (x a.world) } := by
  unfold onWorld
  dsimp only
  cases x a.world <;> rfl

theorem push_cases (v : Value) (a : Activation) :
    (∃ stack, OperandStack.push v a.frame.stack = .ok () stack ∧
      onStack (OperandStack.push v) a =
        .ok () { a with frame := { a.frame with stack := stack } }) ∨
    ∃ e, onStack (OperandStack.push v) a = .error e a := by
  cases h : OperandStack.push v a.frame.stack with
  | ok _ stack => exact .inl ⟨stack, rfl, onStack_eq_ok.2 ⟨stack, h, rfl⟩⟩
  | error e stack =>
    cases OperandStack.push_eq_error h
    exact .inr ⟨e, onStack_eq_error.2 ⟨_, h, rfl⟩⟩

theorem setLocal_cases (index : UInt16) (v : Value) (a : Activation) :
    (∃ locals, a.frame.locals.set index.toNat v = .ok locals ∧
      setLocal index v a = .ok () { a with frame := { a.frame with locals := locals } }) ∨
    ∃ e, setLocal index v a = .error e a := by
  unfold setLocal
  rw [get_bind]
  cases h : a.frame.locals.set index.toNat v with
  | ok locals => exact .inl ⟨locals, rfl, rfl⟩
  | error e => exact .inr ⟨e, rfl⟩

section Following

variable {Q : Frame → Frame → Prop} [IsPreorder Frame Q] (hQ : Frame.Tolerated Q)
include hQ

theorem follows_onStack {α : Type} {x : OperandStack.Change α} {a : Activation} [IsPreorder World R]
    (h : a.frame.stack.Evolves (endState (x a.frame.stack))) :
    Follows Q R a (endState (onStack x a)) := by
  rw [endState_onStack]
  exact ⟨hQ.evolves a.frame h, refl_of R _⟩

omit hQ in
theorem follows_onWorld {α : Type} {x : World.Operation α} {a : Activation}
    (h : R a.world (endState (x a.world))) : Follows Q R a (endState (onWorld x a)) := by
  rw [endState_onWorld]
  exact ⟨refl_of Q _, h⟩

theorem Leads.follows [IsPreorder World R] (α : Type) (x : Execution α) (a : Activation)
    (h : Leads A R α x a) : Follows Q R a (endState (x a)) := by
  cases h with
  | read => exact refl_of (Follows Q R) a
  | take takes =>
    refine follows_onStack hQ ((takes _).relates ?_)
    rintro _ _ s ⟨⟩
    exact s.evolves_pop
  | world related => exact follows_onWorld related
  | goTo => exact ⟨hQ.nextPc a.frame _, refl_of R _⟩

theorem Finishes.follows [IsPreorder World W] (α : Type) (x : Execution α) (a : Activation)
    (h : Finishes A W i α x a) : Follows Q W a (endState (x a)) := by
  cases h with
  | replace replaces =>
    exact follows_onStack hQ ((replaces.moves (A := A) _).relates Moves.evolves)
  | fetch stored => exact follows_onStack hQ (OperandStack.evolves_push _ _)
  | rearrange same moves => exact follows_onStack hQ (moves.relates Moves.evolves)
  | @«local» index v within =>
    obtain ⟨locals, set, done⟩ | ⟨e, refused⟩ := setLocal_cases index v a
    · rw [done]
      exact ⟨hQ.locals a.frame _ v locals set, refl_of W _⟩
    · rw [refused]
      exact refl_of (Follows Q W) a
  | subroutine position target same =>
    exact Keeps.bind_from (follows_onStack hQ (OperandStack.evolves_push _ _)) fun _ a =>
      ⟨hQ.nextPc a.frame _, refl_of W _⟩
  | write related => exact follows_onWorld related

end Following

/-! ### Before anything counts -/

section Leading

theorem leads_taken {α : Type} {x : OperandStack.Change α} (takes : Takes x) (a : Activation) :
    Composed (Leads A R) (onStack x) a := .step (.take takes a)

theorem leads_popped {α : Type} (expected : String) (read? : Value → Option α) (a : Activation) :
    Composed (Leads A R) (onStack (OperandStack.popAs expected read?)) a :=
  leads_taken (takes_popAs expected read?) a

theorem leads_onWorld {α : Type} {x : World.Operation α} (hx : Keeps R x) (a : Activation) :
    Composed (Leads A R) (onWorld x) a := .step (.world (hx a.world))

theorem leads_pool (a : Activation) : Composed (Leads A R) pool a :=
  .bind (.step (.read a)) fun _ a₁ _ => .pure _ a₁

theorem leads_fieldReference (index : UInt16) (a : Activation) :
    Composed (Leads A R) (fieldReference index) a :=
  .bind (leads_pool a) fun _ a₁ _ => .ofExcept _ a₁

theorem leads_methodReference (index : UInt16) (a : Activation) :
    Composed (Leads A R) (methodReference index) a :=
  .bind (leads_pool a) fun _ a₁ _ => .ofExcept _ a₁

theorem leads_branch (offset : Int32) (a : Activation) :
    Composed (Leads A R) (branch offset) a := by
  unfold branch
  refine .bind (.step (.read a)) fun _ a₁ read => .bind (.ofExcept _ a₁) fun target a₂ found => ?_
  cases read
  obtain ⟨inside, rfl⟩ := ofExcept_eq_ok.1 found
  exact .step (.goTo (.inl (Frame.branchTarget_lt inside)))

theorem leads_branchIf (taken : Bool) (offset : Int32) (a : Activation) :
    Composed (Leads A R) (branchIf taken offset) a :=
  .ite (leads_branch offset a) (.pure () a)

theorem leads_test {x : OperandStack.Change Bool} (takes : Takes x) (offset : Int32)
    (a : Activation) : Composed (Leads A R) (test x offset) a :=
  .bind (.bind (leads_taken takes a) fun taken a₁ _ => leads_branchIf taken offset a₁)
    fun _ a₂ _ => .pure _ a₂

theorem leads_tableSwitch (default low high : Int32) (offsets : List Int32) (a : Activation) :
    Composed (Leads A R) (tableSwitch default low high offsets) a := by
  unfold tableSwitch
  refine .bind (leads_popped _ _ a) fun key a₁ _ => ?_
  exact .bind (.ofExcept _ a₁) fun offset a₂ _ => leads_branch offset a₂

theorem leads_lookupSwitch (default : Int32) (pairs : List (Int32 × Int32)) (a : Activation) :
    Composed (Leads A R) (lookupSwitch default pairs) a := by
  unfold lookupSwitch
  exact .bind (leads_popped _ _ a) fun key a₁ _ => leads_branch _ a₁

theorem leads_returnValue (kind : ValueKind) (a : Activation) :
    Composed (Leads A R) (returnValue kind) a := by
  unfold returnValue
  refine .bind (leads_popped _ _ a) fun v a₁ _ => ?_
  exact .bind (.step (.read a₁)) fun _ a₂ _ => .pure _ a₂

theorem leads_monitor (a : Activation) : Composed (Leads A R) monitor a :=
  .bind (leads_taken takes_popNonNull a) fun _ a₁ _ => .pure () a₁

theorem leads_throwException (a : Activation) : Composed (Leads A R) throwException a :=
  .bind (leads_taken takes_popNonNull a) fun _ a₁ _ => .pure _ a₁

theorem getAs_eq_ok {α : Type} {l : LocalVariables} {index : Nat} {expected : String}
    {read? : Value → Option α} {x : α} (h : l.getAs index expected read? = .ok x) :
    ∃ v, l.slots[index]? = some (some v) ∧ read? v = some x := by
  unfold LocalVariables.getAs at h
  cases hv : l.get index with
  | error e =>
    rw [hv] at h
    cases h
  | ok v =>
    rw [hv] at h
    unfold LocalVariables.get at hv
    split at hv <;> cases hv
    rename_i slot
    cases read : read? v with
    | some y =>
      simp only [bind, Except.bind, read, Except.ok.injEq] at h
      exact ⟨v, slot, by rw [read, h]⟩
    | none => simp [bind, Except.bind, read] at h

/-- A return from a subroutine goes to an address that the frame holds. -/
theorem leads_returnFromSubroutine (index : UInt16) (h : a.frame.Holds A) :
    Composed (Leads A R) (returnFromSubroutine index) a := by
  unfold returnFromSubroutine
  refine .bind (.step (.read a)) fun _ a₁ read => .bind (.ofExcept _ a₁) fun position a₂ found => ?_
  cases read
  obtain ⟨held, rfl⟩ := ofExcept_eq_ok.1 found
  obtain ⟨v, slot, address⟩ := getAs_eq_ok held
  have same : v = .returnAddress position := by
    cases v <;> cases address
    rfl
  exact .step (.goTo (.inr (.inr (h.locals _ v slot position same))))

variable [IsPreorder World R]

theorem leads_beginInitialization (hR : World.ToleratesMarks R) (c : ClassId) (a : Activation) :
    Composed (Leads A R) (beginInitialization c) a := by
  unfold beginInitialization
  refine .bind (.step (.read a)) fun _ a₁ read => ?_
  cases read
  have related := World.relates_nextInitializer hR (a.world.due_uninitialized c)
  refine .bind (.step (.world related)) fun next a₂ _ => ?_
  cases next with
  | none => exact .pure _ a₂
  | some found =>
    refine .bind (.step (.read a₂)) fun _ a₃ read => .bind (.ofExcept _ a₃) fun f a₄ made => ?_
    cases read
    obtain ⟨-, rfl⟩ := ofExcept_eq_ok.1 made
    exact .bind (.step (.goTo (.inr (.inl rfl)))) fun _ a₅ _ => .pure _ a₅

end Leading

/-! ### Variables and control -/

abbrev Concludes (A : Nat → Prop) (R W : World → World → Prop) (i : Instruction) {α : Type}
    (x : Execution α) (a : Activation) : Prop := Concluded (Leads A R) (Finishes A W i) x a

theorem concludes_proceeding {x : Execution Unit} (h : Concludes A R W i x a) :
    Concludes A R W i (proceeding x) a := .map h fun _ => Action.proceed

theorem concludes_pushed {v : Value} (plain : v.IsPlain) (a : Activation) :
    Concludes A R W i (onStack (OperandStack.push v)) a :=
  .last (.replace (replaces_push plain) a)

theorem concludes_change {x : OperandStack.Change Unit} (replaces : Replaces x) (a : Activation) :
    Concludes A R W i (change x) a := concludes_proceeding (.last (.replace replaces a))

theorem concludes_rearranged (operator : StackOperator) (h : a.frame.Holds A) :
    Concludes A R W (.stack operator) (change operator.run) a :=
  concludes_proceeding (.last (.rearrange rfl (operator.moves_run h.stack)))

theorem isPlain_of_accept? {kind : ValueKind} {v w : Value} (h : kind.accept? v = some w) :
    w.IsPlain := by
  unfold ValueKind.accept? at h
  split at h <;> cases h <;> rfl

theorem concludes_load (kind : ValueKind) (index : UInt16) (a : Activation) :
    Concludes A R W i (load kind index) a := by
  unfold load
  refine .bind (.step (.read a)) fun _ a₁ _ => .bind (.ofExcept _ a₁) fun v a₂ found => ?_
  obtain ⟨held, rfl⟩ := ofExcept_eq_ok.1 found
  obtain ⟨w, -, accepted⟩ := getAs_eq_ok held
  exact concludes_pushed (isPlain_of_accept? accepted) a₁

theorem eq_of_storable {kind : ValueKind} {v w : Value} (h : storable kind v = some w) : w = v := by
  unfold storable at h
  split at h
  · cases h
    rfl
  · unfold ValueKind.accept? at h
    split at h <;> cases h <;> rfl

theorem concludes_store (kind : ValueKind) (index : UInt16) (h : a.frame.Holds A) :
    Concludes A R W i (store kind index) a := by
  unfold store
  refine .bind (leads_popped _ _ a) fun v a₁ popped => .last (.local ?_ a₁)
  obtain ⟨stack, popped, -⟩ := onStack_eq_ok.1 popped
  obtain ⟨w, values, stored⟩ := OperandStack.popAs_eq_ok popped
  rw [eq_of_storable stored]
  exact h.stack w (values ▸ List.mem_cons_self)

theorem concludes_increment (index : UInt16) (amount : Int16) (a : Activation) :
    Concludes A R W i (increment index amount) a := by
  unfold increment
  refine .bind (.step (.read a)) fun _ a₁ _ => .bind (.ofExcept _ a₁) fun v a₂ _ => ?_
  exact .last (.local (Value.isPlain_int _).within a₂)

theorem concludes_jumpToSubroutine (wide : Bool) (offset : Int32) (a : Activation) :
    Concludes A R W (.jumpToSubroutine wide offset) (jumpToSubroutine offset) a := by
  unfold jumpToSubroutine
  refine .bind (.step (.read a)) fun _ a₁ _ => .bind (.ofExcept _ a₁) fun target a₂ _ => ?_
  exact .last (.subroutine _ target rfl a₂)

/-! ### Objects and their fields -/

section Creating

theorem concludes_pushWideConstant (index : UInt16) (a : Activation) :
    Concludes A R W i (pushWideConstant index) a := by
  unfold pushWideConstant
  refine .bind (leads_pool a) fun pool a₁ _ => .bind (.ofExcept _ a₁) fun v a₂ found => ?_
  obtain ⟨known, -⟩ := ofExcept_eq_ok.1 found
  refine concludes_pushed ?_ a₂
  unfold World.wideConstantValue at known
  split at known <;> cases known <;> rfl

theorem concludes_getField (index : UInt16) (a : Activation) :
    Concludes A R W i (getField index) a := by
  unfold getField
  refine .bind (leads_fieldReference index a) fun r a₁ _ => ?_
  refine .bind (leads_taken takes_popNonNull a₁) fun receiver a₂ _ => ?_
  refine .bind (.step (.read a₂)) fun _ a₃ read => ?_
  cases read
  dsimp only
  split
  · rename_i c fields here
    refine .bind (.ofExcept _ a₂) fun v a₄ found => ?_
    obtain ⟨stored, rfl⟩ := ofExcept_eq_ok.1 found
    refine .last (.fetch (.inl ⟨receiver, c, fields, r.name, here, ?_⟩))
    unfold World.readField at stored
    split at stored <;> cases stored
    assumption
  · exact .composed (.throw _ a₂)

theorem concludes_arrayLoad (kind : ElementKind) (a : Activation) :
    Concludes A R W i (arrayLoad kind) a := by
  unfold arrayLoad
  split
  · unfold loadScalar
    refine .bind (leads_taken takes_popElement a) fun element a₁ _ => ?_
    refine .bind (.step (.read a₁)) fun _ a₂ _ => .bind (.ofExcept _ a₂) fun actual a₃ _ => ?_
    exact .bind (.ofExcept _ a₃) fun s a₄ _ => concludes_pushed (Value.isPlain_widen s) a₄
  · unfold loadReference
    refine .bind (leads_taken takes_popElement a) fun element a₁ _ => ?_
    refine .bind (.step (.read a₁)) fun _ a₂ _ => .bind (.ofExcept _ a₂) fun r a₃ _ => ?_
    exact concludes_pushed (Value.isPlain_reference r) a₃

theorem concludes_arrayLength (a : Activation) : Concludes A R W i arrayLength a := by
  unfold arrayLength
  refine .bind (leads_popped _ _ a) fun r a₁ _ => .bind (.step (.read a₁)) fun _ a₂ _ => ?_
  exact .bind (.ofExcept _ a₂) fun length a₃ _ => concludes_pushed (Value.isPlain_int _) a₃

variable [IsPreorder World R] (hR : World.ToleratesCreation R)
include hR

theorem concludes_pushConstant (index : UInt16) (a : Activation) :
    Concludes A R W i (pushConstant index) a := by
  unfold pushConstant
  refine .bind (leads_pool a) fun pool a₁ _ => ?_
  refine .bind (leads_onWorld (World.keeps_constantValue hR index _) a₁) fun v a₂ found => ?_
  obtain ⟨w, found, -⟩ := onWorld_eq_ok.1 found
  exact concludes_pushed (World.gives_constantValue index _ _ v w found) a₂

theorem concludes_checkCast (index : UInt16) (a : Activation) :
    Concludes A R W i (checkCast index) a := by
  unfold checkCast
  refine .bind (leads_pool a) fun pool a₁ _ => .bind (.ofExcept _ a₁) fun name a₂ _ => ?_
  refine .bind (leads_popped _ _ a₂) fun r a₃ _ => .bind (.step (.read a₃)) fun _ a₄ _ => ?_
  split
  · exact concludes_pushed (Value.isPlain_reference r) a₄
  · refine .bind (leads_onWorld (World.keeps_loadClass hR.loading name) a₄) fun target a₅ _ => ?_
    refine .bind (.step (.read a₅)) fun _ a₆ _ => ?_
    exact .ite (.bind (.throw _ a₆) fun _ a₇ _ => concludes_pushed (Value.isPlain_reference r) a₇)
      (concludes_pushed (Value.isPlain_reference r) a₆)

theorem concludes_instanceOf (index : UInt16) (a : Activation) :
    Concludes A R W i (instanceOf index) a := by
  unfold instanceOf
  refine .bind (leads_pool a) fun pool a₁ _ => .bind (.ofExcept _ a₁) fun name a₂ _ => ?_
  refine .bind (leads_popped _ _ a₂) fun r a₃ _ => .bind (.step (.read a₃)) fun _ a₄ _ => ?_
  have pushed (fits : Bool) (a : Activation) :
      Concludes A R W i (onStack (OperandStack.pushScalar (.boolean fits))) a :=
    concludes_pushed (Value.isPlain_widen _) a
  split
  · exact .bind (.pure _ a₄) fun fits a₅ _ => pushed fits a₅
  · refine .bind (leads_onWorld (World.keeps_loadClass hR.loading name) a₄) fun target a₅ _ => ?_
    exact .bind (.step (.read a₅)) fun _ a₆ _ => .bind (.pure _ a₆) fun fits a₇ _ => pushed fits a₇

theorem concludes_newPrimitiveArray (tag : UInt8) (a : Activation) :
    Concludes A R W i (newPrimitiveArray tag) a := by
  unfold newPrimitiveArray
  refine .bind (.ofExcept _ a) fun p a₁ _ => .bind (leads_popped _ _ a₁) fun length a₂ _ => ?_
  have made := World.keeps_newPrimitiveArray hR.allocation p length
  exact .bind (leads_onWorld made a₂) fun r a₃ _ => concludes_pushed (Value.isPlain_reference r) a₃

theorem concludes_newReferenceArray (index : UInt16) (a : Activation) :
    Concludes A R W i (newReferenceArray index) a := by
  unfold newReferenceArray
  refine .bind (leads_pool a) fun pool a₁ _ => .bind (.ofExcept _ a₁) fun name a₂ _ => ?_
  refine .bind (leads_onWorld (World.keeps_loadClass hR.loading name) a₂) fun component a₃ _ => ?_
  refine .bind (leads_popped _ _ a₃) fun length a₄ _ => .bind (.step (.read a₄)) fun _ a₅ _ => ?_
  refine .bind (leads_onWorld (World.keeps_loadArray hR.loading _) a₅) fun c a₆ loaded => ?_
  obtain ⟨w, known, rfl⟩ := onWorld_eq_ok.1 loaded
  have found := World.finds_typeClass (show World.typeClass (.array _) _ = _ from known)
  have made := World.relates_newReferenceArray hR.allocation found length
  exact .bind (.step (.world made)) fun r a₇ _ => concludes_pushed (Value.isPlain_reference r) a₇

theorem concludes_newMultiArray (index : UInt16) (dimensions : UInt8) (a : Activation) :
    Concludes A R W i (newMultiArray index dimensions) a := by
  unfold newMultiArray
  refine .bind (leads_pool a) fun pool a₁ _ => .bind (.ofExcept _ a₁) fun name a₂ _ => ?_
  refine .bind (leads_onWorld (World.keeps_loadClass hR.loading name) a₂) fun c a₃ loaded => ?_
  obtain ⟨w, known, rfl⟩ := onWorld_eq_ok.1 loaded
  refine .bind (leads_taken (takes_popLengths _ _) _) fun lengths a₄ popped => ?_
  obtain ⟨stack, -, rfl⟩ := onStack_eq_ok.1 popped
  refine .bind (.ofExcept _ _) fun counts a₅ counted => ?_
  obtain ⟨-, rfl⟩ := ofExcept_eq_ok.1 counted
  have made := hR.nested w name c (counts.headD 0) counts.tail (World.registered_loadClass known)
  exact .bind (.step (.world made)) fun r a₆ _ => concludes_pushed (Value.isPlain_reference r) a₆

/-! ### Initialized classes -/

/-- What comes after the initialization of a class finds classes where they were. -/
theorem concludes_whenInitialized {c : ClassId} {rest : Execution Action}
    (hrest : ∀ a', a'.world.registry = a.world.registry → Concludes A R W i rest a') :
    Concludes A R W i (whenInitialized c rest) a := by
  unfold whenInitialized
  refine .bind (leads_beginInitialization hR.marks c a) fun initializer a₁ begun => ?_
  cases initializer with
  | some initializer => exact .composed (.pure _ a₁)
  | none =>
    have kept := (leads_beginInitialization (A := A) World.toleratesMarks_sameRegistry c a).relates
      (R := Follows Frame.SamePlace World.SameRegistry) (Leads.follows Frame.tolerated_samePlace)
    rw [begun] at kept
    exact hrest a₁ kept.world

theorem concludes_newObject (index : UInt16) (a : Activation) :
    Concludes A R W i (newObject index) a := by
  unfold newObject
  refine .bind (leads_pool a) fun pool a₁ _ => .bind (.ofExcept _ a₁) fun name a₂ _ => ?_
  refine .bind (leads_onWorld (World.keeps_loadClass hR.loading name) a₂) fun c a₃ loaded => ?_
  obtain ⟨w, known, rfl⟩ := onWorld_eq_ok.1 loaded
  refine concludes_whenInitialized hR fun a₄ same => ?_
  have found := World.registered_loadClass known
  rw [← show a₄.world.registry = w.registry from same] at found
  refine .bind (.step (.world (World.relates_newObject hR.allocation found))) fun r a₅ _ => ?_
  exact concludes_proceeding (concludes_pushed (Value.isPlain_reference r) a₅)

theorem concludes_getStatic (index : UInt16) (a : Activation) :
    Concludes A R W i (getStatic index) a := by
  unfold getStatic
  refine .bind (leads_fieldReference index a) fun r a₁ _ => ?_
  refine .bind (leads_onWorld (World.keeps_resolveStatic hR.loading r) a₁) fun c a₂ _ => ?_
  refine concludes_whenInitialized hR fun a₃ _ => .bind (.step (.read a₃)) fun _ a₄ read => ?_
  cases read
  split
  · rename_i v found
    exact .map (.last (.fetch (.inr ⟨_, found⟩))) fun _ => Action.proceed
  · exact .composed (.throw _ a₃)

end Creating

/-! ### Writes -/

section Writing

variable [IsPreorder World W] (hW : World.Tolerated W)
include hW

theorem concludes_putField (index : UInt16) (a : Activation) :
    Concludes A R W i (putField index) a := by
  unfold putField
  refine .bind (leads_fieldReference index a) fun r a₁ _ => ?_
  refine .bind (leads_taken (takes_popTyped _) a₁) fun v a₂ popped => ?_
  obtain ⟨stack, popped, -⟩ := onStack_eq_ok.1 popped
  have plain := gives_popTyped r.type _ v stack popped
  refine .bind (leads_taken takes_popNonNull a₂) fun receiver a₃ _ => ?_
  refine .bind (.step (.read a₃)) fun _ a₄ read => ?_
  cases read
  split
  · rename_i c fields here
    refine .last (.write (World.relates_writeField hW here r.name plain) ?_)
    exact World.allOrNothing_writeField _ _ _ _ _
  · exact .composed (.throw _ a₃)

theorem concludes_putStatic [IsPreorder World R] (hR : World.ToleratesCreation R) (index : UInt16)
    (a : Activation) : Concludes A R W i (putStatic index) a := by
  unfold putStatic
  refine .bind (leads_fieldReference index a) fun r a₁ _ => ?_
  refine .bind (leads_onWorld (World.keeps_resolveStatic hR.loading r) a₁) fun c a₂ _ => ?_
  refine concludes_whenInitialized hR fun a₃ _ => ?_
  refine .bind (leads_taken (takes_popTyped _) a₃) fun v a₄ popped => ?_
  obtain ⟨stack, popped, -⟩ := onStack_eq_ok.1 popped
  have plain := gives_popTyped r.type _ v stack popped
  refine .map (.last (.write (World.keeps_assignStatic hW c r plain _) ?_)) fun _ => Action.proceed
  exact World.allOrNothing_assignStatic _ _ _

theorem concludes_arrayStore (kind : ElementKind) (a : Activation) :
    Concludes A R W i (arrayStore kind) a := by
  unfold arrayStore
  split
  · unfold storeScalar
    refine .bind (leads_popped _ _ a) fun s a₁ _ => ?_
    refine .bind (leads_taken takes_popElement a₁) fun element a₂ _ => ?_
    refine .bind (.step (.read a₂)) fun _ a₃ _ => .bind (.ofExcept _ a₃) fun actual a₄ _ => ?_
    refine .last (.write (World.keeps_writeScalar hW _ _ _ _) ?_)
    exact World.allOrNothing_writeScalar _ _ _
  · unfold storeReference
    refine .bind (leads_popped _ _ a) fun r a₁ _ => ?_
    refine .bind (leads_taken takes_popElement a₁) fun element a₂ _ => ?_
    refine .bind (.step (.read a₂)) fun _ a₃ read => ?_
    cases read
    refine .bind (.ofExcept _ a₂) fun found a₄ read => ?_
    obtain ⟨here, rfl⟩ := ofExcept_eq_ok.1 read
    refine .bind (.ofExcept _ a₂) fun _ a₅ inside => ?_
    obtain ⟨-, rfl⟩ := ofExcept_eq_ok.1 inside
    refine .bind (.ofExcept _ a₂) fun _ a₆ checked => ?_
    obtain ⟨storable, rfl⟩ := ofExcept_eq_ok.1 checked
    have fits := World.checkStore_eq_ok.1 storable
    refine .last (.write (World.relates_writeReference hW here fits _) ?_)
    exact World.allOrNothing_writeReference _ _ _

end Writing

/-! ### Calls -/

section Calling

variable [IsPreorder World R] {natives : NativeRegistry} (hR : World.Tolerated R)
  (hn : natives.Respects R) (callers : List Frame)
include hR hn

theorem concludes_invoke (c : ClassId) (m : Method) (arguments : List Value) (a : Activation) :
    Concludes A R W i (invoke natives callers c m arguments) a := by
  unfold invoke
  refine .bind (.step (.read a)) fun _ a₁ _ => .ite ?_ ?_
  · refine .bind (leads_onWorld (NativeCall.keeps_run hR hn _ c m arguments) a₁) fun v a₂ ran => ?_
    obtain ⟨w, ran, -⟩ := onWorld_eq_ok.1 ran
    cases v with
    | some v =>
      have plain := NativeCall.gives_run natives _ c m arguments _ _ w ran v rfl
      exact concludes_proceeding (concludes_pushed plain a₂)
    | none => exact .composed (.pure _ a₂)
  · exact .composed (.bind (.ofExcept _ a₁) fun callee a₂ _ => .pure _ a₂)

theorem concludes_invokeVirtual (index : UInt16) (a : Activation) :
    Concludes A R W i (invokeVirtual natives callers index) a := by
  unfold invokeVirtual
  refine .bind (leads_methodReference index a) fun r a₁ _ => ?_
  refine .bind (leads_onWorld (World.keeps_loadClass hR.loading _) a₁) fun c a₂ _ => ?_
  refine .bind (.step (.read a₂)) fun _ a₃ _ => .bind (.ofExcept _ a₃) fun resolved a₄ _ => ?_
  refine .bind (leads_taken (takes_popArguments _ _) a₄) fun arguments a₅ _ => ?_
  refine .bind (.step (.read a₅)) fun _ a₆ _ => .bind (.ofExcept _ a₆) fun receiver a₇ _ => ?_
  split
  · exact concludes_invoke hR hn callers _ _ arguments a₇
  · exact .composed (.throw _ a₇)

theorem concludes_invokeSpecial (index : UInt16) (a : Activation) :
    Concludes A R W i (invokeSpecial natives callers index) a := by
  unfold invokeSpecial
  refine .bind (leads_methodReference index a) fun r a₁ _ => ?_
  refine .bind (leads_onWorld (World.keeps_loadClass hR.loading _) a₁) fun c a₂ _ => ?_
  refine .bind (.step (.read a₂)) fun _ a₃ _ => .bind (.ofExcept _ a₃) fun found a₄ _ => ?_
  refine .bind (leads_taken (takes_popArguments _ _) a₄) fun arguments a₅ _ => ?_
  refine .bind (.step (.read a₅)) fun _ a₆ _ => .bind (.ofExcept _ a₆) fun receiver a₇ _ => ?_
  exact concludes_invoke hR hn callers _ _ arguments a₇

theorem concludes_invokeStatic (index : UInt16) (a : Activation) :
    Concludes A R W i (invokeStatic natives callers index) a := by
  unfold invokeStatic
  refine .bind (leads_methodReference index a) fun r a₁ _ => ?_
  refine .bind (leads_onWorld (World.keeps_loadClass hR.loading _) a₁) fun c a₂ _ => ?_
  refine .bind (.step (.read a₂)) fun _ a₃ _ => .bind (.ofExcept _ a₃) fun found a₄ _ => ?_
  refine concludes_whenInitialized hR.creation fun a₅ _ => ?_
  refine .bind (leads_taken (takes_popArguments _ _) a₅) fun arguments a₆ _ => ?_
  exact concludes_invoke hR hn callers _ _ arguments a₆

end Calling

end Execution

open Execution

open OperandStack (Takes replaces_push)

namespace Instruction

/-- Every instruction does what counts last, from a frame whose return addresses are among the given
positions. Only calls need to know what the world becomes at the hands of native methods. -/
theorem concludes_execute {A : Nat → Prop} {R W : World → World → Prop} [IsPreorder World R]
    [IsPreorder World W] (hR : World.ToleratesCreation R) (hW : World.Tolerated W)
    {natives : NativeRegistry} (callers : List Frame) (i : Instruction)
    (hcall : i.invokes = true → World.Tolerated R ∧ natives.Respects R) {a : Activation}
    (held : a.frame.Holds A) : Concludes A R W i (i.execute natives callers) a := by
  cases i with
  | nop => exact concludes_change (Takes.pure ()).replaces a
  | pushNull => exact concludes_change (replaces_push (Value.isPlain_reference _)) a
  | pushInt => exact concludes_change (replaces_push (Value.isPlain_int _)) a
  | pushLong => exact concludes_change (replaces_push (Value.isPlain_long _)) a
  | pushFloat => exact concludes_change (replaces_push (Value.isPlain_float _)) a
  | pushDouble => exact concludes_change (replaces_push (Value.isPlain_double _)) a
  | stack operator => exact concludes_rearranged operator held
  | arithmetic operator kind => exact concludes_change (operator.replaces_run kind) a
  | negate kind => exact concludes_change kind.replaces_negate a
  | shift operator kind => exact concludes_change (operator.replaces_run kind) a
  | bitwise operator kind => exact concludes_change (operator.replaces_run kind) a
  | convert conversion => exact concludes_change conversion.replaces_run a
  | compareLong => exact concludes_change Comparison.replaces_longs a
  | compareFloat => exact concludes_change (Comparison.replaces_floats _) a
  | compareDouble => exact concludes_change (Comparison.replaces_doubles _) a
  | ifZero condition offset => exact .composed (leads_test condition.takes_testZero offset a)
  | ifInts condition offset => exact .composed (leads_test condition.takes_testInts offset a)
  | ifReferences equal offset =>
    exact .composed (leads_test (Comparison.takes_references equal) offset a)
  | ifNull isNull offset => exact .composed (leads_test (Comparison.takes_null isNull) offset a)
  | pushConstant index => exact concludes_proceeding (concludes_pushConstant hR index a)
  | pushWideConstant index => exact concludes_proceeding (concludes_pushWideConstant index a)
  | load kind index => exact concludes_proceeding (concludes_load kind index a)
  | store kind index => exact concludes_proceeding (concludes_store kind index held)
  | increment index amount => exact concludes_proceeding (concludes_increment index amount a)
  | arrayLoad kind => exact concludes_proceeding (concludes_arrayLoad kind a)
  | arrayStore kind => exact concludes_proceeding (concludes_arrayStore hW kind a)
  | jump _ offset => exact concludes_proceeding (.composed (leads_branch offset a))
  | jumpToSubroutine wide offset =>
    exact concludes_proceeding (concludes_jumpToSubroutine wide offset a)
  | returnFromSubroutine index =>
    exact concludes_proceeding (.composed (leads_returnFromSubroutine index held))
  | tableSwitch => exact concludes_proceeding (.composed (leads_tableSwitch _ _ _ _ a))
  | lookupSwitch => exact concludes_proceeding (.composed (leads_lookupSwitch _ _ a))
  | returnValue kind => exact .composed (leads_returnValue kind a)
  | returnVoid => exact .composed (.pure _ a)
  | getStatic index => exact concludes_getStatic hR index a
  | putStatic index => exact concludes_putStatic hW hR index a
  | getField index => exact concludes_proceeding (concludes_getField index a)
  | putField index => exact concludes_proceeding (concludes_putField hW index a)
  | invokeVirtual index =>
    exact concludes_invokeVirtual (hcall rfl).1 (hcall rfl).2 callers index a
  | invokeSpecial index =>
    exact concludes_invokeSpecial (hcall rfl).1 (hcall rfl).2 callers index a
  | invokeStatic index => exact concludes_invokeStatic (hcall rfl).1 (hcall rfl).2 callers index a
  | invokeInterface index _ =>
    exact concludes_invokeVirtual (hcall rfl).1 (hcall rfl).2 callers index a
  | invokeDynamic => exact .composed (.throw _ a)
  | newObject index => exact concludes_newObject hR index a
  | newPrimitiveArray tag => exact concludes_proceeding (concludes_newPrimitiveArray hR tag a)
  | newReferenceArray index => exact concludes_proceeding (concludes_newReferenceArray hR index a)
  | newMultiArray => exact concludes_proceeding (concludes_newMultiArray hR _ _ a)
  | arrayLength => exact concludes_proceeding (concludes_arrayLength a)
  | throwException => exact .composed (leads_throwException a)
  | checkCast index => exact concludes_proceeding (concludes_checkCast hR index a)
  | instanceOf index => exact concludes_proceeding (concludes_instanceOf hR index a)
  | enterMonitor | leaveMonitor => exact concludes_proceeding (.composed (leads_monitor a))

/-- Instructions keep what their steps keep. -/
theorem keeps_execute {Q : Frame → Frame → Prop} {R : World → World → Prop} [IsPreorder Frame Q]
    [IsPreorder World R] (hQ : Frame.Tolerated Q) (hR : World.Tolerated R)
    {natives : NativeRegistry} (hn : natives.Respects R) (callers : List Frame) (i : Instruction) :
    Keeps (Activation.Follows Q R) (i.execute natives callers) := by
  intro a
  have concludes :=
    concludes_execute hR.creation hR callers i (fun _ => ⟨hR, hn⟩) a.frame.holds_true
  exact concludes.relates (Leads.follows hQ) (Finishes.follows hQ)

end Instruction

end JavaMachine
