import JavaMachine.Proofs.DecimalText
import JavaMachine.Proofs.PartialAccess
import JavaMachine.Proofs.WellFormedMachines

/-!
# Steps are defined

Whatever the code is and whatever has happened before, an instruction uses every partial operation
within its domain. It is made of single pops, pushes and writes of variables, and of operations on
the world. A pop is defined on a well-formed stack, which every frame has at any time; a table of
a switch is as long as the decoder has checked; and everything else is defined wherever it is used.
-/
namespace JavaMachine

namespace Execution

/-- The things an instruction does, one by one, and for those that use a partial operation that it
is defined. -/
inductive Defined : Steps Error Activation
  | read (a : Activation) : Defined Activation MonadState.get a
  | pop {a : Activation}
      (defined : a.frame.stack.pop? = some (OperandStack.pop a.frame.stack)) :
      Defined Value (onStack OperandStack.pop) a
  | push (v : Value) (a : Activation) : Defined Unit (onStack (OperandStack.push v)) a
  | local {index : UInt16} {v : Value} {a : Activation}
      (defined : a.frame.locals.set? index.toNat v = some (a.frame.locals.set index.toNat v)) :
      Defined Unit (setLocal index v) a
  | goTo (position : Nat) (a : Activation) : Defined Unit (setNextPc position) a
  | world {α : Type} (x : World.Operation α) (a : Activation) : Defined α (onWorld x) a

variable {α β : Type} {A : Nat → Prop} {R W : World → World → Prop} {i : Instruction}

theorem onStack_bind (x : OperandStack.Change α) (f : α → OperandStack.Change β) :
    onStack (x >>= f) = onStack x >>= fun v => onStack (f v) := by
  funext a
  cases hx : x a.frame.stack with
  | ok v s =>
    rw [bind_of_ok (onStack_eq_ok.2 ⟨s, hx, rfl⟩)]
    unfold onStack
    dsimp only
    rw [bind_of_ok hx]
  | error e s =>
    rw [bind_of_error (onStack_eq_error.2 ⟨s, hx, rfl⟩)]
    exact onStack_eq_error.2 ⟨s, bind_of_error hx, rfl⟩

theorem defined_onStack {x : OperandStack.Change α} {s : OperandStack}
    (h : Composed (OperandStack.Moves A) x s) (wellFormed : s.WellFormed) {a : Activation}
    (same : a.frame.stack = s) : Composed Defined (onStack x) a := by
  induction h generalizing a with
  | step h =>
    subst same
    cases h with
    | pop => exact .step (.pop wellFormed.pop?_eq)
    | push => exact .step (.push _ a)
  | pure v => exact .pure v a
  | throw e => exact .throw e a
  | @bind _ _ x f s hx _ ihx ihf =>
    rw [onStack_bind]
    refine .bind (ihx wellFormed same) fun v a₁ ended => ?_
    obtain ⟨s₁, popped, rfl⟩ := onStack_eq_ok.1 ended
    rw [same] at popped
    have evolves := hx.relates OperandStack.Moves.evolves
    rw [popped] at evolves
    exact ihf v s₁ popped (wellFormed.evolves evolves) rfl

theorem Leads.defined (α : Type) (x : Execution α) (a : Activation) (h : Leads A R α x a)
    (wellFormed : a.frame.WellFormed) : Composed Defined x a := by
  obtain ⟨body, fits⟩ := wellFormed
  cases h with
  | read => exact .step (.read a)
  | take takes => exact defined_onStack (A := A) (takes.moves _) fits.stack rfl
  | world => exact .step (.world _ a)
  | goTo => exact .step (.goTo _ a)

theorem Finishes.defined (α : Type) (x : Execution α) (a : Activation) (h : Finishes A W i α x a)
    (wellFormed : a.frame.WellFormed) : Composed Defined x a := by
  obtain ⟨body, fits⟩ := wellFormed
  cases h with
  | replace replaces => exact defined_onStack (A := A) (replaces.moves _) fits.stack rfl
  | fetch => exact .step (.push _ a)
  | rearrange _ moves => exact defined_onStack moves fits.stack rfl
  | «local» => exact .step (.local (LocalVariables.set?_eq _ _ _))
  | subroutine position target =>
    exact .bind (.step (.push _ a)) fun _ a₁ _ => .step (.goTo target a₁)
  | write => exact .step (.world _ a)

end Execution

open Execution (Defined Leads Finishes)

/-- Every instruction is defined in a well-formed frame. -/
theorem Instruction.defined_execute (natives : NativeRegistry) (callers : List Frame)
    (i : Instruction) {a : Activation} (wellFormed : a.frame.WellFormed) :
    Composed Defined (i.execute natives callers) a := by
  have respects := natives.respects_any
  have concludes := i.concludes_execute (A := fun _ => True) (R := World.Any) (W := World.Any)
    World.tolerated_any.creation World.tolerated_any callers
    (fun _ => ⟨World.tolerated_any, respects⟩) a.frame.holds_true
  have steps : Composed (fun α x a => Leads (fun _ => True) World.Any α x a ∨
      Finishes (fun _ => True) World.Any i α x a) (i.execute natives callers) a :=
    concludes.toComposed (fun _ _ _ => .inl) fun _ _ _ => .inr
  refine steps.refine (P := fun a => a.frame.WellFormed) ?defined ?preserved wellFormed
  case defined =>
    rintro α x a (leads | finishes) wellFormed
    · exact leads.defined α x a wellFormed
    · exact finishes.defined α x a wellFormed
  case preserved =>
    rintro α x a (leads | finishes)
    · exact (leads.follows Frame.tolerated_staysWellFormed α x a).frame
    · exact (finishes.follows Frame.tolerated_staysWellFormed α x a).frame

namespace Machine

variable {m : Machine}

/-- Whatever code, handlers and constants there are, whatever has run before and whatever has become
of the world, no partial operation is used outside its domain: not by the instruction that comes
next, and not in reading code, local variables and arrays, in copying between arrays, and in laying
out numbers, where nothing has to be known about the machine. -/
theorem operations_defined (world : World) (natives : NativeRegistry) (maxCallDepth : Nat)
    (h : Reachable World.Any (start world natives maxCallDepth) m) :
    (∀ f callers, m.frames = f :: callers →
      (∃ e, Activation.fetch ⟨f, m.world⟩ = .error e ∧ step m = (none, .error e m)) ∨
      ∃ opcode i a, Activation.fetch ⟨f, m.world⟩ = .ok (opcode, i, a) ∧
        step m = (some opcode, m.stepResult callers (i.execute m.natives callers a)) ∧
        Composed Defined (i.execute m.natives callers) a ∧
        ∀ default low high offsets key, i = .tableSwitch default low high offsets →
          ∃ offset, Execution.tableOffset? default low high offsets key = some offset ∧
            Execution.tableOffset default low high offsets key = .ok offset) ∧
    (∀ (n : Nat) (c : Cursor), c.align? = some (Cursor.align c) ∧
      c.take? n = some (Cursor.take n c) ∧
      ∀ numbers c', Cursor.readI32s (2 * n) c = .ok numbers c' →
        Instruction.pairsOf? numbers = some (Instruction.pairsOf numbers)) ∧
    (∀ (l : LocalVariables) (index : Nat) (v : Value), l.get? index = some (l.get index) ∧
      l.set? index v = some (l.set index v)) ∧
    (∀ (w : World) (r : Reference) (index : Int32) (s : Scalar) (element : Reference),
      w.readScalar? r s.type index = some (w.readScalar r s.type index) ∧
      w.readReference? r index = some (w.readReference r index) ∧
      w.writeScalar? r index s = some (World.writeScalar r index s w) ∧
      w.writeReference? r index element = some (World.writeReference r index element w)) ∧
    (∀ (w : World) (source : Reference) (sourcePosition : Int32) (target : Reference)
      (targetPosition length : Int32),
      w.arrayCopy? source sourcePosition target targetPosition length =
        some (World.arrayCopy source sourcePosition target targetPosition length w)) ∧
    (∀ d : Decimal, d.digits ≠ [] → (∀ n ∈ d.digits, n < 10) →
      -2147483648 ≤ d.exponent → d.exponent ≤ 2147483647 →
      DecimalStyle.relayout? ((if d.negative then ['-'] else []) ++
        DecimalStyle.diagnostic.scientific d.digits d.exponent) =
          some (DecimalStyle.guest.layout d)) ∧
    (∀ x : Binary32, x.text? = some (x.text .guest)) ∧
    ∀ x : Binary64, x.text? = some (x.text .guest) := by
  refine ⟨?steps, ?code, ?locals, ?elements, World.arrayCopy?_eq, ?layout, Binary32.text?_eq,
    Binary64.text?_eq⟩
  case steps =>
    intro f callers frames
    obtain ⟨-, wellFormed⟩ := (invariant_wellFormed maxCallDepth).reachable
      ⟨rfl, wellFormed_start world natives maxCallDepth⟩ h
    have top : f.WellFormed := wellFormed.frames f (frames ▸ List.mem_cons_self)
    refine (step_eq frames).imp id ?_
    rintro ⟨opcode, i, a, fetched, stepped⟩
    obtain ⟨cursor, decoded, rfl⟩ := fetch_eq_ok fetched
    refine ⟨opcode, i, _, fetched, stepped, i.defined_execute m.natives callers ?_, ?_⟩
    · exact Frame.tolerated_staysWellFormed.nextPc f cursor.position top
    · rintro default low high offsets key rfl
      exact Execution.tableOffset?_of_fetch decoded key
  case code =>
    exact fun n c => ⟨c.align?_eq, c.take?_eq n,
      fun numbers c' read => Instruction.pairsOf?_eq (Cursor.length_readI32s read)⟩
  case locals => exact fun l index v => ⟨l.get?_eq index, l.set?_eq index v⟩
  case elements =>
    exact fun w r index s element => ⟨w.readScalar?_eq r s.type index, w.readReference?_eq r index,
      w.writeScalar?_eq r index s, w.writeReference?_eq r index element⟩
  case layout =>
    exact fun d some_digit small low high =>
      DecimalStyle.relayout?_scientific some_digit small low high

set_option maxRecDepth 100000 in
theorem operations_defined_echoing :
    ∃ f a, (endState (cycle 0 echoingMachine)).frames = [f] ∧ f.stack.values = [.long 7] ∧
      Activation.fetch ⟨f, (endState (cycle 0 echoingMachine)).world⟩ =
        .ok (0xad, .returnValue .long, a) ∧
      Composed Defined ((Instruction.returnValue .long).execute .standard []) a := by
  obtain ⟨steps, -⟩ := operations_defined echoingWorld .standard 1 reachable_echoing
  have next : ∃ f a, (endState (cycle 0 echoingMachine)).frames = [f] ∧
      f.stack.values = [.long 7] ∧
      Activation.fetch ⟨f, (endState (cycle 0 echoingMachine)).world⟩ =
        .ok (0xad, .returnValue .long, a) := ⟨_, _, rfl, rfl, rfl⟩
  obtain ⟨f, a, only, values, fetched⟩ := next
  rcases steps f [] only with ⟨e, failed, -⟩ | ⟨opcode, i, a', fetched', -, defined, -⟩
  · rw [fetched] at failed
    cases failed
  · rw [fetched] at fetched'
    cases fetched'
    exact ⟨f, a, only, values, fetched, defined⟩

end Machine

end JavaMachine
