import JavaMachine.Proofs.PlainActions
import JavaMachine.Proofs.Reachability

/-!
# Properties of the frames at their heights

Apart from the instructions themselves, a machine does few things to a frame: it puts it in place,
moves it on, gives it the value that its callee returns, and has it begin a handler. A property that
frames have at the start and keep through these holds of all frames above some height after every
part of a cycle, if the instruction has preserved it. The property may depend on the height of the
frame in the call stack.
-/
namespace JavaMachine

/-- Frames begin with the property wherever there is room for them in the call stack, and what the
machine itself does to a frame keeps it. -/
structure Frame.Lasting (limit : Nat) (P : Nat → Frame → Prop) : Prop where
  begins {height : Nat} {f : Frame} (started : f.Started) (plain : f.IsPlain)
    (room : height < limit) : P height f
  advance {height : Nat} {f : Frame} (h : P height f) : P height f.advance
  push {height : Nat} {f : Frame} {v : Value} (h : P height f) (plain : v.IsPlain) :
    P height { f with stack := endState (OperandStack.push v f.stack) }
  handle {height : Nat} {f : Frame} {handler : Handler} (h : P height f) (exception : Reference)
    (listed : handler ∈ f.method.handlers) :
    P height (endState (f.handle exception handler.handlerPc.toNat))

/-- Every frame with at least `floor` frames below has the property at its height. -/
def AllAbove (floor : Nat) (P : Nat → Frame → Prop) : List Frame → Prop
  | [] => True
  | f :: below => (floor ≤ below.length → P below.length f) ∧ AllAbove floor P below

namespace AllAbove

variable {floor : Nat} {P P' : Nat → Frame → Prop} {frames : List Frame} {f k : Frame}
  {below : List Frame}

theorem drop (h : AllAbove floor P frames) (n : Nat) : AllAbove floor P (frames.drop n) := by
  induction frames generalizing n with
  | nil =>
    rw [List.drop_nil]
    exact h
  | cons f below ih =>
    cases n with
    | zero => exact h
    | succ n => exact ih h.2 n

theorem replaceTop (h : AllAbove floor P (f :: below)) (hk : P below.length f → P below.length k) :
    AllAbove floor P (k :: below) := ⟨fun above => hk (h.1 above), h.2⟩

theorem iff : AllAbove floor P frames ↔
    ∀ f below, f :: below <:+ frames → floor ≤ below.length → P below.length f := by
  induction frames with
  | nil =>
    refine iff_of_true trivial fun f below suffix => ?_
    cases List.suffix_nil.1 suffix
  | cons k frames ih =>
    constructor
    · rintro ⟨top, rest⟩ f below suffix
      rcases List.suffix_cons_iff.1 suffix with same | lower
      · cases same
        exact top
      · exact ih.1 rest f below lower
    · intro all
      refine ⟨all k frames List.suffix_rfl, ih.2 fun f below suffix => ?_⟩
      exact all f below (suffix.trans (List.suffix_cons k frames))

theorem mono (h : AllAbove floor P frames)
    (weaker : ∀ f below, f :: below <:+ frames → P below.length f → P' below.length f) :
    AllAbove floor P' frames :=
  iff.2 fun f below suffix above => weaker f below suffix (iff.1 h f below suffix above)

theorem of_length_le (low : frames.length ≤ floor) : AllAbove floor P frames := by
  refine iff.2 fun f below suffix above => ?_
  have := suffix.length_le
  simp only [List.length_cons] at this
  omega

end AllAbove

theorem World.gives_handlerPc? (owner c : ClassId) (pc : Nat) (handlers : List Handler) :
    Gives (∀ position ∈ ·, ∃ h ∈ handlers, position = h.handlerPc.toNat)
      (handlerPc? owner c pc handlers) := by
  induction handlers with
  | nil => exact .pure fun _ none => nomatch none
  | cons h rest ih =>
    have later : Gives (∀ position ∈ ·, ∃ k ∈ h :: rest, position = k.handlerPc.toNat)
        (handlerPc? owner c pc rest) := by
      intro w found w' searched position given
      obtain ⟨k, member, same⟩ := ih w found w' searched position given
      exact ⟨k, List.mem_cons_of_mem h member, same⟩
    unfold handlerPc?
    dsimp only
    split
    · refine .bind fun caught => ?_
      split
      · refine .pure fun position given => ?_
        cases given
        exact ⟨h, List.mem_cons_self, rfl⟩
      · exact later
    · exact later

structure Action.Suits (limit : Nat) (P : Nat → Frame → Prop) (action : Action) : Prop where
  frame : ∀ f, action = .call f ∨ action = .prepare f → ∀ height < limit, P height f
  value : ∀ v, action = .leave (some v) → v.IsPlain

namespace Machine

variable {limit floor base : Nat} {P : Nat → Frame → Prop} {m m₁ : Machine}

/-- The machine has the limit, and all of its frames at the height and above have the property. -/
structure Guards (limit floor : Nat) (P : Nat → Frame → Prop) (m : Machine) : Prop where
  limit : m.maxCallDepth = limit
  frames : AllAbove floor P m.frames

def StillGuards (limit floor : Nat) (P : Nat → Frame → Prop) (m m' : Machine) : Prop :=
  m.Guards limit floor P → m'.Guards limit floor P

instance : IsPreorder Machine (StillGuards limit floor P) :=
  isPreorder_preserves (Guards limit floor P)

theorem stillGuards_withWorld (m : Machine) (w : World) :
    StillGuards limit floor P m { m with world := w } := fun h => ⟨h.limit, h.frames⟩

theorem keeps_onWorld {α : Type} (x : World.Operation α) :
    Keeps (StillGuards limit floor P) (onWorld x) := by
  intro ⟨world, frames, natives, maxCallDepth⟩
  unfold onWorld
  dsimp only
  cases x world <;> exact stillGuards_withWorld _ _

theorem keeps_markInitialized (c : ClassId) : Keeps (ε := Error) (StillGuards limit floor P)
    (modify fun m : Machine => { m with world := m.world.markInitialized c }) :=
  .modify fun m => stillGuards_withWorld m _

/-! ### Call stacks -/

theorem stillGuards_drop (m : Machine) (w : World) (n : Nat) :
    StillGuards limit floor P m { m with world := w, frames := m.frames.drop n } :=
  fun h => ⟨h.limit, h.frames.drop n⟩

theorem keeps_pushFrame {f : Frame} (hf : ∀ height < limit, P height f) :
    Keeps (StillGuards limit floor P) (pushFrame f) := by
  intro m
  unfold pushFrame
  split
  · exact refl_of _ m
  · rename_i room
    intro h
    refine ⟨h.limit, fun _ => hf m.depth ?_, h.frames⟩
    have := h.limit
    omega

theorem keeps_truncate (base : Nat) :
    Keeps (ε := Error) (StillGuards limit floor P) (modify (truncate base)) :=
  .modify fun m => stillGuards_drop m m.world _

section Lasting

variable (hP : Frame.Lasting limit P)
include hP

theorem keeps_proceed : Keeps (ε := Error) (StillGuards limit floor P) (modify proceed) := by
  refine .modify fun m h => ?_
  unfold proceed
  split
  · exact h
  · rename_i f callers hm
    have frames := h.frames
    rw [hm] at frames
    exact ⟨h.limit, frames.replaceTop hP.advance⟩

theorem keeps_leave (base : Nat) {result : Option Value}
    (plain : ∀ v, result = some v → v.IsPlain) :
    Keeps (StillGuards limit floor P) (leave base result) := by
  intro m h
  have rest := h.frames.drop 1
  rw [List.drop_one] at rest
  unfold leave
  split
  · exact ⟨h.limit, trivial⟩
  · rename_i caller below hm
    rw [hm] at rest
    split
    · exact ⟨h.limit, rest⟩
    · cases result with
      | none => exact ⟨h.limit, rest.replaceTop hP.advance⟩
      | some v =>
        have pushed := rest.replaceTop fun h => hP.push (hP.advance h) (plain v rfl)
        dsimp only
        split
        · rename_i stack hp
          rw [hp] at pushed
          exact ⟨h.limit, pushed⟩
        · rename_i e stack hp
          rw [hp] at pushed
          exact ⟨h.limit, pushed⟩

/-! ### Exceptions -/

theorem stillGuards_seek (base : Nat) (exception : Reference) (c : ClassId) (m : Machine)
    (frames : List Frame) :
    ∀ world, StillGuards limit floor P { m with world := world, frames := frames }
      (endState (seekHandler.seek base exception c m world frames)) := by
  induction frames with
  | nil => exact fun world => refl_of _ _
  | cons f below ih =>
    intro world
    unfold seekHandler.seek
    split
    · exact refl_of _ _
    · cases search : World.handlerPc? f.owner c f.pc f.method.handlers world with
      | error e w => exact stillGuards_withWorld { m with world := world, frames := f :: below } w
      | ok found w =>
        cases found with
        | none =>
          have given : StillGuards limit floor P _ _ :=
            stillGuards_drop { m with world := world, frames := f :: below } w 1
          exact trans_of _ given (ih w)
        | some pc =>
          obtain ⟨handler, listed, rfl⟩ := World.gives_handlerPc? _ _ _ _ _ _ _ search pc rfl
          intro h
          have handled := h.frames.replaceTop fun h => hP.handle h exception listed
          dsimp only
          split
          · rename_i k hh
            rw [hh] at handled
            exact ⟨h.limit, handled⟩
          · rename_i e k hh
            rw [hh] at handled
            exact ⟨h.limit, handled⟩

theorem keeps_unwind (base : Nat) (exception : Reference) :
    Keeps (StillGuards limit floor P) (unwind base exception) := by
  unfold unwind
  refine .bind .get fun m => ?_
  split
  · exact .throw _
  · rename_i c _
    refine .bind (fun m => stillGuards_seek hP base exception c m m.frames m.world) fun caught => ?_
    exact .ite (.bind .get fun m => .throw _) (.pure ())

theorem keeps_handleFailure (base : Nat) (opcode : Option UInt8) (e : Error) :
    Keeps (StillGuards limit floor P) (handleFailure base opcode e) := by
  unfold handleFailure
  refine .ite (.bind (keeps_truncate base) fun _ => .bind (.throw _) fun _ => ?_) ?_
  all_goals
    refine .bind (keeps_onWorld _) fun exception => ?_
    cases exception with
    | some exception => exact keeps_unwind hP base exception
    | none => exact .bind .get fun m => .bind (keeps_truncate base) fun _ => .throw _

/-! ### Cycles -/

omit hP in
theorem action_of_step {action : Action} (asked : (step m).2 = .ok action m₁) :
    action = .leave none ∨ ∃ (i : Instruction) (callers : List Frame) (a a' : Activation),
      i.execute m.natives callers a = .ok action a' := by
  cases hm : m.frames with
  | nil =>
    obtain ⟨world, frames, natives, maxCallDepth⟩ := m
    cases hm
    cases asked
    exact .inl rfl
  | cons f callers =>
    have stepped : step m = ((step m).1, .ok action m₁) := Prod.ext rfl asked
    obtain ⟨byte, i, cursor, a, -, -, executed, -⟩ := step_eq_ok hm stepped
    exact .inr ⟨i, callers, _, a, executed⟩

omit hP in
theorem isPlain_of_step {action : Action} (asked : (step m).2 = .ok action m₁) :
    action.IsPlain := by
  rcases action_of_step asked with rfl | ⟨i, callers, a, a', executed⟩
  · exact fun _ member => nomatch member
  · exact i.gives_execute m.natives callers a action a' executed

theorem keeps_perform (base : Nat) {action : Action} (suits : action.Suits limit P) :
    Keeps (StillGuards limit floor P) (perform base action) := by
  cases action with
  | proceed => exact .bind (keeps_proceed hP) fun _ => .pure _
  | call callee =>
    exact .bind (keeps_pushFrame (suits.frame callee (.inl rfl))) fun _ => .pure _
  | prepare f =>
    refine .bind (keeps_pushFrame (suits.frame f (.inr rfl))) fun _ => ?_
    exact .bind (keeps_markInitialized f.owner) fun _ => .pure _
  | leave result =>
    refine keeps_leave hP base fun v given => suits.value v ?_
    rw [given]
  | raise exception => exact .bind (keeps_unwind hP base exception) fun _ => .pure _

theorem suits_of_step {action : Action} (asked : (step m).2 = .ok action m₁) :
    action.Suits limit P := by
  rcases action_of_step asked with rfl | ⟨i, callers, a, a', executed⟩
  · exact ⟨fun f asks => by simp at asks, fun v given => by simp at given⟩
  · have asks := Instruction.asks_execute executed
    have plain := i.gives_execute m.natives callers a action a' executed
    refine ⟨?_, ?_⟩
    · rintro k (rfl | rfl) height room
      · exact hP.begins asks.started plain room
      · exact hP.begins asks.started plain room
    · rintro v rfl
      exact plain v rfl

variable (stepped : (endState (step m).2).Guards limit floor P)
include stepped

/-- What the instruction has preserved is preserved when its request is carried out. -/
theorem guards_attempt (base : Nat) : (endState (attempt base m).2).Guards limit floor P := by
  unfold attempt
  rcases hs : step m with ⟨opcode, outcome⟩
  rw [hs] at stepped
  cases outcome with
  | ok action m₁ =>
    exact keeps_perform hP base (suits_of_step hP (by rw [hs])) m₁ stepped
  | error e m₁ => exact stepped

theorem guards_cycle (base : Nat) : (endState (cycle base m)).Guards limit floor P := by
  have attempted := guards_attempt hP stepped base
  cases ha : (attempt base m).2 with
  | ok v m' =>
    rw [ha] at attempted
    rw [cycle_eq_ok_of_attempt ha]
    exact attempted
  | error e m₁ =>
    rw [ha] at attempted
    rw [endState_cycle ha]
    exact keeps_handleFailure hP base _ e m₁ attempted

end Lasting

/-! ### Calls from outside -/

theorem keeps_enter (c : ClassId) (method : Method) (arguments : List Value)
    (hf : ∀ t f, Frame.ofArguments t c method arguments = .ok f → ∀ height < limit, P height f) :
    Keeps (StillGuards limit floor P) (enter c method arguments) := by
  unfold enter
  refine .reading fun m => ?_
  cases made : Frame.ofArguments m.world.classes c method arguments with
  | error e => exact refl_of _ m
  | ok f => exact keeps_pushFrame (hf _ f made) m

theorem keeps_enterInitializer (c : ClassId) (initializer : Method)
    (hf : ∀ t f, Frame.ofArguments t c initializer [] = .ok f → ∀ height < limit, P height f) :
    Keeps (StillGuards limit floor P) (enterInitializer c initializer) :=
  .bind (keeps_enter c initializer [] hf) fun _ => keeps_markInitialized c

theorem keeps_callNative (c : ClassId) (method : Method) (arguments : List Value) :
    Keeps (StillGuards limit floor P) (callNative c method arguments) :=
  .bind .get fun _ => keeps_onWorld _

end Machine

end JavaMachine
