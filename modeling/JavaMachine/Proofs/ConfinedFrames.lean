import JavaMachine.Proofs.Decoding
import JavaMachine.Proofs.FrameInvariants
import JavaMachine.Proofs.PlainWorlds

/-!
# Return addresses in frames

The instructions that move values without looking at their type keep them in the frame, and all
others refuse return addresses. So an instruction leaves no address in its frame that was not there
before, but for a subroutine call, which pushes the position after it. A return from a subroutine
goes to one of these addresses without any check. As long as they are within the code, the frame
goes on within it.
-/
namespace JavaMachine

/-! ### Instructions -/

/-- The return addresses in the frame are among the given positions, the frame goes on within the
code if it is there now, and there is no return address in the world. -/
structure Activation.Confined (A : Nat → Prop) (size : Nat) (a : Activation) : Prop where
  code : a.frame.code.size = size
  held : a.frame.Holds A
  inside : a.frame.pc ≤ size → a.frame.nextPc ≤ size
  world : a.world.IsPlain

namespace Execution

open Activation (Confined)

variable {A : Nat → Prop} {size : Nat} {i : Instruction} {a : Activation}

theorem confined_onStack {α : Type} {x : OperandStack.Change α} (h : a.Confined A size)
    (held : (endState (x a.frame.stack)).Holds A) : (endState (onStack x a)).Confined A size := by
  rw [endState_onStack]
  exact ⟨h.code, ⟨held, h.held.locals⟩, h.inside, h.world⟩

theorem confined_onWorld {α : Type} {x : World.Operation α} (h : a.Confined A size)
    (plain : a.world.StaysPlain (endState (x a.world))) :
    (endState (onWorld x a)).Confined A size := by
  rw [endState_onWorld]
  exact ⟨h.code, h.held, h.inside, plain h.world⟩

theorem Leads.confined (bounded : ∀ position, A position → position ≤ size) (α : Type)
    (x : Execution α) (a : Activation) (step : Leads A World.StaysPlain α x a)
    (h : a.Confined A size) : (endState (x a)).Confined A size := by
  cases step with
  | read => exact h
  | take takes => exact confined_onStack h ((takes.uncovers _).holds h.held.stack)
  | world related => exact confined_onWorld h related
  | goTo allowed =>
    refine ⟨h.code, ⟨h.held.stack, h.held.locals⟩, fun here => ?_, h.world⟩
    rcases allowed with within | rfl | issued
    · rw [← h.code]
      exact Nat.le_of_lt within
    · exact here
    · exact bounded _ issued

theorem Finishes.confined (other : ∀ wide offset, i ≠ .jumpToSubroutine wide offset) (α : Type)
    (x : Execution α) (a : Activation) (step : Finishes A World.StaysPlain i α x a)
    (h : a.Confined A size) : (endState (x a)).Confined A size := by
  have moved {x : OperandStack.Change Unit}
      (moves : Composed (OperandStack.Moves A) x a.frame.stack) :
      (endState (x a.frame.stack)).Holds A :=
    moves.preserves OperandStack.Moves.holds h.held.stack
  cases step with
  | replace replaces => exact confined_onStack h (moved (replaces.moves _))
  | fetch stored =>
    have plain := h.world.stores stored
    exact confined_onStack h (moved (.step (.push plain.within _)))
  | rearrange same moves => exact confined_onStack h (moved moves)
  | @«local» index v within =>
    obtain ⟨locals, set, done⟩ | ⟨e, refused⟩ := setLocal_cases index v a
    · rw [done]
      exact ⟨h.code, ⟨h.held.stack, h.held.locals.set within set⟩, h.inside, h.world⟩
    · rw [refused]
      exact h
  | subroutine position target same => exact absurd same (other _ _)
  | write related => exact confined_onWorld h related

/-- A subroutine call pushes the position after it and goes on in the code, or leaves everything as
it was. -/
theorem jumpToSubroutine_cases (offset : Int32) (a : Activation) :
    (∃ e, jumpToSubroutine offset a = .error e a) ∨ ∃ stack target,
      OperandStack.push (.returnAddress a.frame.nextPc) a.frame.stack = .ok () stack ∧
      target < a.frame.code.size ∧ jumpToSubroutine offset a =
        .ok () { a with frame := { a.frame with stack := stack, nextPc := target } } := by
  unfold jumpToSubroutine
  rw [get_bind]
  cases found : a.frame.branchTarget offset with
  | error e => exact .inl ⟨e, rfl⟩
  | ok target =>
    have taken : (MonadExcept.ofExcept (.ok target) : Execution Nat) a = .ok target a := rfl
    rw [bind_of_ok taken]
    obtain ⟨stack, pushed, done⟩ | ⟨e, refused⟩ := push_cases (.returnAddress a.frame.nextPc) a
    · rw [bind_of_ok done]
      exact .inr ⟨stack, target, pushed, Frame.branchTarget_lt found, rfl⟩
    · exact .inl ⟨e, bind_of_error refused⟩

end Execution

open Execution

/-- Instructions keep return addresses confined, and subroutine calls too if the position after them
is one of the given ones. -/
theorem Instruction.confined_execute {A : Nat → Prop} {size : Nat} {natives : NativeRegistry}
    {callers : List Frame} {i : Instruction} {a : Activation}
    (bounded : ∀ position, A position → position ≤ size)
    (respects : natives.Respects World.StaysPlain) (h : a.Confined A size)
    (issued : ∀ {wide offset stack target}, i = .jumpToSubroutine wide offset →
      OperandStack.push (.returnAddress a.frame.nextPc) a.frame.stack = .ok () stack →
      i.execute natives callers a =
        .ok .proceed { a with frame := { a.frame with stack := stack, nextPc := target } } →
      A a.frame.nextPc) :
    (endState (i.execute natives callers a)).Confined A size := by
  have hR := World.tolerated_staysPlain
  by_cases call : ∃ wide offset, i = .jumpToSubroutine wide offset
  · obtain ⟨wide, offset, rfl⟩ := call
    obtain ⟨e, refused⟩ | ⟨stack, target, pushed, inside, done⟩ := jumpToSubroutine_cases offset a
    · have executed : (Instruction.jumpToSubroutine wide offset).execute natives callers a =
          .error e a := bind_of_error refused
      rw [executed]
      exact h
    · have executed : (Instruction.jumpToSubroutine wide offset).execute natives callers a =
          .ok .proceed { a with frame := { a.frame with stack := stack, nextPc := target } } :=
        bind_of_ok done
      rw [executed]
      refine ⟨h.code, ⟨fun v member => ?_, h.held.locals⟩, fun _ => ?_, h.world⟩
      · have values := OperandStack.push_eq_ok pushed
        change v ∈ stack.values at member
        rw [values] at member
        rcases List.mem_cons.1 member with rfl | beneath
        · rintro _ ⟨⟩
          exact issued rfl pushed executed
        · exact h.held.stack v beneath
      · rw [← h.code]
        exact Nat.le_of_lt inside
  · have other (wide : Bool) (offset : Int32) : i ≠ .jumpToSubroutine wide offset :=
      fun same => call ⟨wide, offset, same⟩
    have concludes := concludes_execute hR.creation hR callers i (fun _ => ⟨hR, respects⟩) h.held
    exact concludes.preserves (Leads.confined bounded) (Finishes.confined other) h

/-! ### Frames -/

namespace Frame

def HandlesInside (f : Frame) : Prop := ∀ h ∈ f.method.handlers, h.handlerPc.toNat ≤ f.code.size

/-- The return addresses in the frame are positions within the code and among those given for its
height. The frame is within the code too, if its handlers begin there. -/
structure Confined (A : Nat → Nat → Prop) (height : Nat) (f : Frame) : Prop where
  held : f.Holds fun position => A height position ∧ position ≤ f.code.size
  inside : f.HandlesInside → f.pc ≤ f.code.size ∧ f.nextPc ≤ f.code.size

variable {A B : Nat → Nat → Prop} {height : Nat} {f : Frame}

theorem Holds.mono {A B : Nat → Prop} (h : f.Holds A) (hAB : ∀ position, A position → B position) :
    f.Holds B :=
  ⟨fun v member => (h.stack v member).mono hAB, fun index v found =>
    (h.locals index v found).mono hAB⟩

theorem Confined.mono (h : f.Confined A height)
    (hAB : ∀ position, A height position → B height position) : f.Confined B height :=
  ⟨h.held.mono fun position held => ⟨hAB position held.1, held.2⟩, h.inside⟩

theorem Holds.push {A : Nat → Prop} (h : f.Holds A) {v : Value} (plain : v.IsPlain) :
    Holds A { f with stack := endState (OperandStack.push v f.stack) } :=
  ⟨OperandStack.Moves.holds _ _ f.stack (.push plain.within f.stack) h.stack, h.locals⟩

theorem Holds.handle {A : Nat → Prop} (h : f.Holds A) (exception : Reference) (pc : Nat) :
    (endState (f.handle exception pc)).Holds A := by
  have cleared : Holds A { f with stack := f.stack.clear } := ⟨by simp [OperandStack.Holds,
    OperandStack.clear], h.locals⟩
  have pushed := cleared.push (Value.isPlain_reference exception)
  unfold Frame.handle
  split <;> rename_i hp <;> rw [hp] at pushed
  · exact ⟨pushed.stack, pushed.locals⟩
  · exact pushed

theorem handle_eq (f : Frame) (exception : Reference) (position : Nat) :
    ∃ stack pc, (pc = f.pc ∨ pc = position) ∧
      endState (f.handle exception position) = { f with stack := stack, pc := pc } := by
  unfold Frame.handle
  split
  · exact ⟨_, position, .inr rfl, rfl⟩
  · exact ⟨_, f.pc, .inl rfl, rfl⟩

theorem confined_of_started (started : f.Started) (plain : f.IsPlain) : f.Confined A height := by
  obtain ⟨t, arguments, made⟩ := started
  obtain ⟨locals, body, -, -, begun⟩ := ofArguments_eq_ok made
  refine ⟨plain.mono fun _ none => none.elim, fun _ => ?_⟩
  rw [begun]
  exact ⟨Nat.zero_le _, Nat.zero_le _⟩

theorem lasting_confined (limit : Nat) (A : Nat → Nat → Prop) : Lasting limit (Confined A) where
  begins started plain _ := confined_of_started started plain
  advance h := ⟨⟨h.held.stack, h.held.locals⟩, fun handles =>
    ⟨(h.inside handles).2, (h.inside handles).2⟩⟩
  push h plain := ⟨h.held.push plain, h.inside⟩
  handle {height f handler} h exception listed := by
    have held := h.held.handle exception handler.handlerPc.toNat
    obtain ⟨stack, pc, position, handled⟩ := f.handle_eq exception handler.handlerPc.toNat
    rw [handled] at held ⊢
    refine ⟨held, fun handles => ⟨?_, (h.inside handles).2⟩⟩
    rcases position with rfl | rfl
    · exact (h.inside handles).1
    · exact handles handler listed

theorem Confined.after (h : f.Confined A height) {a : Activation} (same : f.SamePlace a.frame)
    (kept : a.Confined (fun position => A height position ∧ position ≤ f.code.size) f.code.size) :
    a.frame.Confined A height := by
  have code : a.frame.code = f.code := by
    unfold Frame.code
    rw [same.method]
  obtain ⟨-, held, inside, -⟩ := kept
  refine ⟨?_, fun handles => ?_⟩
  · rwa [code]
  · unfold HandlesInside at handles
    rw [same.method, code] at handles
    rw [code]
    have here := (h.inside handles).1
    rw [← same.pc] at here
    exact ⟨here, inside here⟩

end Frame

/-! ### Steps -/

namespace Machine

variable {A : Nat → Nat → Prop} {limit floor height position : Nat} {m m₁ : Machine}

/-- The executing frame is at the height, and its instruction is a subroutine call, which pushes the
position after it. -/
def Issues (m : Machine) (height position : Nat) : Prop :=
  ∃ f callers byte wide offset cursor stack target, m.frames = f :: callers ∧
    callers.length = height ∧
    Instruction.fetch ⟨f.code, f.pc⟩ = .ok (byte, .jumpToSubroutine wide offset) cursor ∧
    cursor.position = position ∧
    OperandStack.push (.returnAddress position) f.stack = .ok () stack ∧
    step m = (some byte, .ok .proceed
      (m.withTop callers ⟨{ f with stack := stack, nextPc := target }, m.world⟩))

/-- An instruction leaves all frames confined if the positions that it issues are given. -/
theorem confined_step (respects : m.natives.Respects World.StaysPlain) (plain : m.world.IsPlain)
    (issued : ∀ height position, m.Issues height position → A height position)
    (h : m.Guards limit floor (Frame.Confined A)) :
    (endState (step m).2).Guards limit floor (Frame.Confined A) := by
  cases hm : m.frames with
  | nil =>
    obtain ⟨world, frames, natives, maxCallDepth⟩ := m
    cases hm
    exact h
  | cons f callers =>
    have frames := h.frames
    rw [hm] at frames
    rcases step_eq hm with ⟨e, -, stepped⟩ | ⟨opcode, i, a, fetched, stepped⟩
    · rw [stepped]
      exact h
    · obtain ⟨cursor, decoded, rfl⟩ := fetch_eq_ok fetched
      have within := Instruction.fetch_end_le decoded
      have kept (confined : f.Confined A callers.length) :
          (endState (i.execute m.natives callers
            ⟨{ f with nextPc := cursor.position }, m.world⟩)).Confined
              (fun position => A callers.length position ∧ position ≤ f.code.size) f.code.size := by
        refine Instruction.confined_execute (fun _ issued => issued.2) respects
          ⟨rfl, ⟨confined.held.stack, confined.held.locals⟩, fun _ => within, plain⟩ ?_
        rintro wide offset stack target rfl pushed executed
        refine ⟨issued _ _ ⟨f, callers, opcode, wide, offset, cursor, stack, target, hm, rfl,
          decoded, rfl, pushed, ?_⟩, within⟩
        rw [stepped, executed]
        rfl
      have place := i.keeps_execute Frame.tolerated_samePlace World.tolerated_any
        m.natives.respects_any callers ⟨{ f with nextPc := cursor.position }, m.world⟩
      rw [stepped]
      cases executed : i.execute m.natives callers
          ⟨{ f with nextPc := cursor.position }, m.world⟩ with
      | ok action a | error e a =>
        rw [executed] at kept place
        have same : f.SamePlace a.frame := ⟨place.frame.owner, place.frame.method, place.frame.pc⟩
        exact ⟨h.limit, frames.replaceTop fun confined => confined.after same (kept confined)⟩

end Machine

end JavaMachine
