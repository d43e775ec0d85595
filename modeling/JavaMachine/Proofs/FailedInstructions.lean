import JavaMachine.Proofs.Bracketing

/-!
# What failed instructions leave behind

An instruction makes all of its checks before the one thing that it does. If it fails, it has taken
operands, loaded classes and allocated entities at most. So, unless it runs a native method, the
variables of its frame and everything that the guest has written are what they were, and the handler
of the failure finds them so.
-/
namespace JavaMachine

namespace World

/-- Every entity is what it was, and so are the static fields. There may be more entities. -/
structure Retains (w w' : World) : Prop where
  entities : ∀ r e, w.heap.get? r = some e → w'.heap.get? r = some e
  statics : w'.statics = w.statics

instance : IsPreorder World Retains where
  refl _ := ⟨fun _ _ => id, rfl⟩
  trans _ _ _ h h' :=
    ⟨fun r e here => h'.entities r e (h.entities r e here), h'.statics.trans h.statics⟩

theorem SameContents.retains {w w' : World} (h : w.SameContents w') : w.Retains w' where
  entities r e here := by rw [h.heap, here]
  statics := h.statics

theorem keeps_allocate_retains (e : Entity) : Keeps Retains (allocate e) :=
  fun _ => ⟨fun _ _ => Heap.get?_allocate_of_some e, rfl⟩

theorem toleratesAllocation_retains : ToleratesAllocation Retains where
  loading := toleratesLoading_sameContents.mono fun _ _ => SameContents.retains
  object w _ _ _ _ _ := keeps_allocate_retains _ w
  classObject w _ _ _ _ _ := keeps_allocate_retains _ w
  primitives w _ _ _ := keeps_allocate_retains _ w
  nulls w _ _ _ _ := keeps_allocate_retains _ w

theorem toleratesCreation_retains : ToleratesCreation Retains where
  allocation := toleratesAllocation_retains
  classObjects _ _ := ⟨fun _ _ => id, rfl⟩
  strings _ _ := ⟨fun _ _ => id, rfl⟩
  nested w _ c length further _ :=
    keeps_newNestedArray toleratesAllocation_retains.loading
      (fun _ _ => keeps_allocate_retains _) (fun _ _ => keeps_allocate_retains _) further c length w

end World

/-- Only operands are taken from the frame, and the world retains what it holds. -/
structure Activation.Retains (a a' : Activation) : Prop where
  place : a.frame.SamePlace a'.frame
  locals : a'.frame.locals = a.frame.locals
  world : a.world.Retains a'.world

instance : IsPreorder Activation Activation.Retains where
  refl _ := ⟨refl_of _ _, rfl, refl_of _ _⟩
  trans _ _ _ h h' :=
    ⟨trans_of _ h.place h'.place, h'.locals.trans h.locals, trans_of _ h.world h'.world⟩

def Activation.Uncovers (a a' : Activation) : Prop := a.frame.stack.Uncovers a'.frame.stack

instance : IsPreorder Activation Activation.Uncovers where
  refl _ := refl_of OperandStack.Uncovers _
  trans _ _ _ h h' := trans_of OperandStack.Uncovers h h'

namespace Execution

variable {A : Nat → Prop} {W : World → World → Prop} {i : Instruction} {α : Type}
  {x : Execution α} {a a' : Activation} {e : Error}

/-! ### Steps -/

theorem retains_withStack (a : Activation) (stack : OperandStack) :
    a.Retains { a with frame := { a.frame with stack := stack } } :=
  ⟨⟨rfl, rfl, rfl⟩, rfl, refl_of _ _⟩

theorem Leads.retains (α : Type) (x : Execution α) (a : Activation)
    (h : Leads A World.Retains α x a) : a.Retains (endState (x a)) := by
  cases h with
  | read => exact refl_of _ a
  | take takes =>
    rw [endState_onStack]
    exact retains_withStack a _
  | world related =>
    rw [endState_onWorld]
    exact ⟨⟨rfl, rfl, rfl⟩, rfl, related⟩
  | goTo => exact ⟨⟨rfl, rfl, rfl⟩, rfl, refl_of _ _⟩

theorem Leads.uncovers {R : World → World → Prop} (α : Type) (x : Execution α) (a : Activation)
    (h : Leads A R α x a) : a.Uncovers (endState (x a)) := by
  cases h with
  | read => exact refl_of _ a
  | take takes =>
    rw [endState_onStack]
    exact takes.uncovers _
  | world related =>
    rw [endState_onWorld]
    exact refl_of OperandStack.Uncovers _
  | goTo => exact refl_of OperandStack.Uncovers _

theorem subroutine_eq_error {v : Value} {target : Nat}
    (failed : (onStack (OperandStack.push v) >>= fun _ => setNextPc target) a = .error e a') :
    a' = a := by
  obtain ⟨stack, -, done⟩ | ⟨e, refused⟩ := push_cases v a
  · rw [bind_of_ok done] at failed
    cases failed
  · rw [bind_of_error refused] at failed
    cases failed
    rfl

/-- The last step, if it fails, has taken operands at most, unless it rearranges them. -/
theorem Finishes.eq_error (h : Finishes A W i α x a) (failed : x a = .error e a') :
    ∃ stack, a' = { a with frame := { a.frame with stack := stack } } ∧
      ((∀ operator, i ≠ .stack operator) → a.frame.stack.Uncovers stack) := by
  have untouched : ∃ stack, a = { a with frame := { a.frame with stack := stack } } ∧
      ((∀ operator, i ≠ .stack operator) → a.frame.stack.Uncovers stack) :=
    ⟨a.frame.stack, rfl, fun _ => refl_of OperandStack.Uncovers _⟩
  cases h with
  | replace replaces =>
    obtain ⟨stack, refused, rfl⟩ := onStack_eq_error.1 failed
    exact ⟨stack, rfl, fun _ => replaces.uncovers_of_error refused⟩
  | fetch =>
    obtain ⟨stack, refused, rfl⟩ := onStack_eq_error.1 failed
    rwa [OperandStack.push_eq_error refused]
  | rearrange same =>
    obtain ⟨stack, -, rfl⟩ := onStack_eq_error.1 failed
    exact ⟨stack, rfl, fun single => absurd same (single _)⟩
  | @«local» index v within =>
    obtain ⟨locals, -, done⟩ | ⟨e, refused⟩ := setLocal_cases index v a
    · rw [done] at failed
      cases failed
    · rw [refused] at failed
      cases failed
      exact untouched
  | subroutine =>
    rwa [subroutine_eq_error failed]
  | write related undone =>
    obtain ⟨w, refused, rfl⟩ := onWorld_eq_error.1 failed
    rwa [undone _ _ _ refused]

end Execution

namespace Machine

open World

variable {base : Nat} {m m' : Machine} {R : World → World → Prop} [IsPreorder World R]

theorem seek_eq_ok (hR : ToleratesLoading R) {exception : Reference} {c : ClassId}
    {frames : List Frame} {w : World}
    (found : seekHandler.seek base exception c m w frames = .ok true m') :
    R w m'.world ∧ ∃ past k below stack pc, frames = past ++ k :: below ∧
      m'.frames = { k with stack := stack, pc := pc } :: below := by
  induction frames generalizing w with
  | nil => cases found
  | cons f below ih =>
    unfold seekHandler.seek at found
    split at found
    · cases found
    · have kept := keeps_handlerPc? hR f.owner c f.pc f.method.handlers w
      cases search : handlerPc? f.owner c f.pc f.method.handlers w with
      | error e w₁ =>
        rw [search] at found
        cases found
      | ok pc? w₁ =>
        rw [search] at found kept
        cases pc? with
        | none =>
          obtain ⟨related, past, k, below', stack, pc, rfl, frames⟩ := ih found
          exact ⟨trans_of R kept related, f :: past, k, below', stack, pc, rfl, frames⟩
        | some pc =>
          dsimp only at found
          cases handled : f.handle exception pc with
          | error e k =>
            rw [handled] at found
            cases found
          | ok _ k =>
            rw [handled] at found
            cases found
            unfold Frame.handle at handled
            split at handled <;> cases handled
            exact ⟨kept, [], f, below, _, pc, rfl, rfl⟩

/-- A cycle that survives a failed instruction has handed an exception for it to a frame that is
otherwise what it was. -/
theorem cycle_of_step_error (hR : ToleratesAllocation R) {opcode : Option UInt8} {e : Error}
    {m₁ : Machine} {v : Option Value} (failed : step m = (opcode, .error e m₁))
    (survived : cycle base m = .ok v m') :
    R m₁.world m'.world ∧ ∃ past k below stack pc, m₁.frames = past ++ k :: below ∧
      m'.frames = { k with stack := stack, pc := pc } :: below := by
  have attempted : attempt base m = (opcode, .error e m₁) := by
    unfold attempt
    rw [failed]
  rw [cycle_eq, attempted] at survived
  dsimp only at survived
  cases handled : handleFailure base opcode e m₁ with
  | error e' m₂ =>
    rw [handled] at survived
    cases survived
  | ok _ m₂ =>
    rw [handled] at survived
    cases survived
    rw [handleFailure_eq] at handled
    split at handled
    · cases handled
    · have kept := keeps_exceptionFor hR e m₁.world
      split at handled
      · cases handled
      · rename_i exception w made
        rw [made] at kept
        rw [unwind_eq] at handled
        split at handled
        · cases handled
        · split at handled <;> cases handled
          rename_i caught
          obtain ⟨related, resumed⟩ := seek_eq_ok hR.loading caught
          exact ⟨trans_of R kept related, resumed⟩
      · cases handled

end Machine

namespace Instruction

open Execution

variable {natives : NativeRegistry} {callers : List Frame} {i : Instruction} {a a' : Activation}
  {e : Error}

theorem concludes_of_not_invokes (outside : i.invokes = false) (a : Activation) :
    Concludes (fun _ => True) World.Retains World.Any i (i.execute natives callers) a := by
  refine concludes_execute World.toleratesCreation_retains World.tolerated_any callers i
    (fun calls => ?_) a.frame.holds_true
  rw [outside] at calls
  cases calls

/-- An instruction that fails leaves the variables and the position of its frame, all entities and
all static fields as they were, unless it invokes a method, and leaves on the stack what was beneath
the operands that it took, unless it rearranges the stack. A handler that the failure goes to begins
with the variables that its frame had before the instruction, in a world with everything that was
there before. -/
theorem execute_error_retains (outside : i.invokes = false)
    (failed : i.execute natives callers a = .error e a') :
    a.Retains a' ∧ ((∀ operator, i ≠ .stack operator) → a.Uncovers a') ∧
      ∀ {base : Nat} {m m' : Machine} {f : Frame} {opcode : UInt8} {v : Option Value},
        m.natives = natives → m.frames = f :: callers →
        Activation.fetch ⟨f, m.world⟩ = .ok (opcode, i, a) → Machine.cycle base m = .ok v m' →
        m.world.Retains m'.world ∧ ∃ past k k' below, m.frames = past ++ k :: below ∧
          m'.frames = k' :: below ∧ k.SameMethod k' ∧ k'.locals = k.locals := by
  have concludes :
      Concludes (fun _ => True) World.Retains World.Any i (i.execute natives callers) a :=
    concludes_of_not_invokes outside a
  have retains : a.Retains a' := by
    refine concludes.relates_of_error Leads.retains ?_ failed
    intro α x a e a' last refused
    obtain ⟨stack, rfl, -⟩ := last.eq_error refused
    exact retains_withStack a stack
  refine ⟨retains, fun single => ?uncovers, ?handler⟩
  case uncovers =>
    refine concludes.relates_of_error Leads.uncovers ?_ failed
    intro α x a e a' last refused
    obtain ⟨stack, rfl, uncovers⟩ := last.eq_error refused
    exact uncovers single
  case handler =>
    intro base m m' f opcode v hnatives frames fetched survived
    subst hnatives
    obtain ⟨cursor, -, rfl⟩ := Machine.fetch_eq_ok fetched
    have stepped : Machine.step m = (some opcode, .error e (m.withTop callers a')) := by
      rcases Machine.step_eq frames with ⟨_, refused, -⟩ | ⟨opcode', i', a₁, fetched', stepped⟩
      · rw [fetched] at refused
        cases refused
      · rw [fetched] at fetched'
        cases fetched'
        rw [stepped, failed]
        rfl
    obtain ⟨related, past, k, below, stack, pc, before, after⟩ :=
      Machine.cycle_of_step_error World.toleratesAllocation_retains stepped survived
    refine ⟨trans_of _ retains.world related, ?_⟩
    cases past with
    | nil =>
      cases before
      refine ⟨[], f, _, callers, frames, after, ?_, retains.locals⟩
      exact ⟨retains.place.owner, retains.place.method⟩
    | cons top past =>
      cases before
      exact ⟨f :: past, k, _, below, frames, after, ⟨rfl, rfl⟩, rfl⟩

/-! A method that stores behind the end of an array and has a handler for the failure. -/

def overrunning : Method :=
  { owner := .scalar "Main"
    signature := ⟨"store", [.array (.primitive .int)], none⟩
    flags := Bootstrap.publicFlag ||| Bootstrap.staticFlag
    body := some ⟨3, 1, #[0x4f, 0xb1], [⟨0, 1, 1, 0⟩]⟩ }

def overrunningWorld : World :=
  endState (World.newPrimitiveArray .int 2 (World.ofProgram .working 0
    [{ ClassDefinition.ofName (.scalar "java/lang/ArrayIndexOutOfBoundsException") with
        superclass := some 0 },
      { ClassDefinition.ofName overrunning.owner with
        superclass := some 0
        methods := [(overrunning.signature, overrunning.flags, overrunning.body)] }]))

def overrunningFrame : Frame :=
  { owner := 6
    method := overrunning
    pc := 0
    nextPc := 1
    locals := ⟨#[some (.reference (.entity 2))]⟩
    stack := ⟨[.int 7, .int 5, .reference (.entity 2)], 3, 3⟩ }

def overrunningMachine : Machine := ⟨overrunningWorld, [overrunningFrame], .standard, 1⟩

set_option maxRecDepth 100000 in
theorem execute_overrunning :
    ∃ a', (arrayStore .int).execute .standard [] ⟨overrunningFrame, overrunningWorld⟩ =
      .error (.arrayIndexOutOfBounds 5 2) a' ∧ a'.frame.stack.values = [] := ⟨_, rfl, rfl⟩

set_option maxRecDepth 100000 in
theorem cycle_overrunning : Machine.given (Machine.cycle 0 overrunningMachine) = some none ∧
    (endState (Machine.cycle 0 overrunningMachine)).pc? = some 1 := by
  decide +kernel

theorem execute_error_retains_overrunning :
    (∃ a', (arrayStore .int).execute .standard [] ⟨overrunningFrame, overrunningWorld⟩ =
        .error (.arrayIndexOutOfBounds 5 2) a' ∧
      Activation.Retains ⟨overrunningFrame, overrunningWorld⟩ a' ∧ a'.frame.stack.values = []) ∧
    ∃ m', Machine.cycle 0 overrunningMachine = .ok none m' ∧ m'.pc? = some 1 ∧
      overrunningWorld.Retains m'.world := by
  obtain ⟨a', failed, empty⟩ := execute_overrunning
  obtain ⟨survived, handler⟩ := cycle_overrunning
  obtain ⟨retains, -, handled⟩ := execute_error_retains rfl failed
  have fetched : Activation.fetch ⟨overrunningFrame, overrunningMachine.world⟩ =
      .ok (0x4f, arrayStore .int, ⟨overrunningFrame, overrunningWorld⟩) := rfl
  have survived := Machine.eq_ok_of_given survived
  obtain ⟨world, -⟩ := handled rfl rfl fetched survived
  exact ⟨⟨a', failed, retains, empty⟩, _, survived, handler, world⟩

end Instruction

end JavaMachine
