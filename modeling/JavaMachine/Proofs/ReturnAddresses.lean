import JavaMachine.Proofs.ConfinedFrames

/-!
# Where return addresses come from

A call from outside brings no return address along, and a frame begins without any. So every return
address in a frame was pushed there by a subroutine call of the same frame, however many cycles and
other frames have come in between, and is the position after that call. No such address leaves its
frame: not as an argument, not as a result, and not through the world. Therefore no frame ever
leaves its code.
-/
namespace JavaMachine

namespace Machine

variable {limit base bound height position : Nat} {m m' m₁ entered : Machine} {c : ClassId}
  {method : Method} {arguments : List Value}

/-! ### Runs -/

/-- The machine after an instruction, after what this asks for, or after the whole cycle. -/
inductive Part (base : Nat) (m : Machine) : Machine → Prop
  | executed : Part base m (endState (step m).2)
  | attempted : Part base m (endState (attempt base m).2)
  | completed : Part base m (endState (cycle base m))

/-- A run that began with the machine `entered` has come to another one, and the frame at the height
has pushed the position as that after a subroutine call on the way. It has been in place since. -/
inductive Issued (base : Nat) (entered : Machine) (height position : Nat) : Machine → Prop
  | now {m m' : Machine} (reached : Reaches base entered m) (above : base < m.depth)
      (issues : m.Issues height position) (part : Part base m m') (alive : height < m'.depth) :
      Issued base entered height position m'
  | before {m m' : Machine} (issued : Issued base entered height position m)
      (reached : Reaches base entered m) (above : base < m.depth) (part : Part base m m')
      (alive : height < m'.depth) : Issued base entered height position m'

/-- All frames above the base are confined to the positions that they have issued. -/
def Confines (base : Nat) (entered m : Machine) : Prop :=
  m.Guards entered.maxCallDepth base
    (Frame.Confined fun height position => Issued base entered height position m)

/-- One part of a cycle leaves all frames confined. -/
theorem Confines.part (h : Confines base entered m) (respects : m.natives.Respects World.StaysPlain)
    (plain : m.world.IsPlain) (reached : Reaches base entered m) (above : base < m.depth)
    (part : Part base m m') : Confines base entered m' := by
  let A (height position : Nat) : Prop :=
    height < m'.depth → Issued base entered height position m'
  have begun : m.Guards entered.maxCallDepth base (Frame.Confined A) :=
    ⟨h.limit, h.frames.mono fun _ _ _ confined => confined.mono fun _ issued alive =>
      .before issued reached above part alive⟩
  have stepped := confined_step respects plain
    (fun _ _ issues alive => .now reached above issues part alive) begun
  have lasting := Frame.lasting_confined entered.maxCallDepth A
  have ended : m'.Guards entered.maxCallDepth base (Frame.Confined A) := by
    cases part with
    | executed => exact stepped
    | attempted => exact guards_attempt lasting stepped base
    | completed => exact guards_cycle lasting stepped base
  refine ⟨ended.limit, ended.frames.mono fun f below suffix confined => ?_⟩
  exact confined.mono fun _ issued => issued suffix.length_le

theorem invariant_staysPlain {natives : NativeRegistry}
    (respects : natives.Respects World.StaysPlain) (w : World) :
    Invariant World.StaysPlain fun m => m.natives = natives ∧ w.StaysPlain m.world :=
  invariant_of_tolerated World.tolerated_staysPlain
    (fun w c => (w.sameContents_markInitialized c).staysPlain) respects w

section Running

variable (respects : entered.natives.Respects World.StaysPlain) (plain : entered.world.IsPlain)
include respects plain

theorem plain_of_reaches (reached : Reaches base entered m) :
    m.natives = entered.natives ∧ m.world.IsPlain := by
  have invariant := invariant_staysPlain respects entered.world
  obtain ⟨natives, stays⟩ := invariant.reaches ⟨rfl, id⟩ reached
  exact ⟨natives, stays plain⟩

variable (begun : Confines base entered entered)
include begun

theorem confines_of_reaches (reached : Reaches base entered m) : Confines base entered m := by
  induction reached with
  | refl => exact begun
  | @tail m₁ m₂ reached next ih =>
    obtain ⟨above, v, hc⟩ := next
    obtain ⟨natives, plain₁⟩ := plain_of_reaches respects plain reached
    have part : Part base m₁ (endState (cycle base m₁)) := .completed
    have completed := ih.part (natives ▸ respects) plain₁ reached above part
    rwa [hc] at completed

theorem confines_of_passes (passes : Passes base entered m) : Confines base entered m := by
  have parted {m₁ m' : Machine} (reached : Reaches base entered m₁) (above : base < m₁.depth)
      (part : Part base m₁ m') : Confines base entered m' := by
    obtain ⟨natives, plain₁⟩ := plain_of_reaches respects plain reached
    exact (confines_of_reaches respects plain begun reached).part (natives ▸ respects) plain₁
      reached above part
  cases passes with
  | between reached => exact confines_of_reaches respects plain begun reached
  | executed reached above => exact parted reached above .executed
  | attempted reached above => exact parted reached above .attempted
  | ended reached above => exact parted reached above .completed

end Running

/-! ### Calls from outside -/

/-- The machines with which the runs of a call from outside begin: the frame of an initializer or of
the method is in place. -/
inductive Enters (m : Machine) (c : ClassId) (method : Method) (arguments : List Value) :
    Machine → Prop
  | initializer {k : ClassId} {rest : List ClassId} {m₁ entered : Machine} {initializer : Method}
      (come : ComesTo (m.world.uninitialized c) m (k :: rest) m₁)
      (declared : m₁.world.classes.declared? .initializer k = some initializer)
      (enters : enterInitializer k initializer m₁ = .ok () entered) :
      Enters m c method arguments entered
  | method {m₁ entered : Machine} (come : ComesTo (m.world.uninitialized c) m [] m₁)
      (unbridged : m₁.world.classes.isBridged c method = false)
      (enters : enter c method arguments m₁ = .ok () entered) : Enters m c method arguments entered

theorem ComesTo.frames_eq {pending rest : List ClassId} (come : ComesTo pending m rest m') :
    m'.frames = m.frames := by
  induction come with
  | begins => rfl
  | marked _ _ ih => exact ih
  | ran _ _ enters run ih =>
    obtain ⟨f, -, frames, -⟩ := frames_entered enters
    rw [← ih]
    refine frames_of_runAbove_ok ?_ rfl run
    rw [frames]
    exact List.suffix_cons f _

theorem Enters.confines (plain : ∀ v ∈ arguments, v.IsPlain)
    (enters : m.Enters c method arguments entered) : Confines m.depth entered entered := by
  have started {k : ClassId} {called : Method} {values : List Value} {limit : Nat}
      (plain : ∀ v ∈ values, v.IsPlain) (t : ClassTable) (f : Frame)
      (made : Frame.ofArguments t k called values = .ok f) (height : Nat) (_ : height < limit) :
      f.Confined (fun height position => Issued m.depth entered height position entered) height :=
    Frame.confined_of_started (Frame.started_of_ofArguments made)
      (Frame.isPlain_of_ofArguments plain made)
  have low {rest : List ClassId} {m₁ : Machine}
      (come : ComesTo (m.world.uninitialized c) m rest m₁) {P : Nat → Frame → Prop} :
      m₁.Guards m₁.maxCallDepth m.depth P := by
    refine ⟨rfl, AllAbove.of_length_le ?_⟩
    rw [come.frames_eq]
    exact Nat.le_refl _
  cases enters with
  | @initializer k _ m₁ _ initializer come declared enters =>
    have kept := keeps_enterInitializer k initializer (started (by simp)) m₁ (low come)
    rw [enters] at kept
    exact ⟨rfl, kept.frames⟩
  | method come unbridged enters =>
    have kept := keeps_enter c method arguments (started plain) _ (low come)
    rw [enters] at kept
    exact ⟨rfl, kept.frames⟩

theorem Enters.meets (enters : m.Enters c method arguments entered) :
    m.Meets c method arguments entered := by
  cases enters with
  | initializer come declared enters => exact .initializer come declared enters (.between .refl)
  | method come unbridged enters => exact .method come unbridged enters (.between .refl)

/-- What a call passes through is the call stack as it was, or comes in a run. -/
theorem Meets.enters (meets : m.Meets c method arguments m') :
    m'.frames = m.frames ∨
      ∃ entered, m.Enters c method arguments entered ∧ Passes m.depth entered m' := by
  have level {rest : List ClassId} {m₁ : Machine}
      (come : ComesTo (m.world.uninitialized c) m rest m₁) : m₁.depth = m.depth := by
    unfold depth
    rw [come.frames_eq]
  cases meets with
  | initialization come => exact .inl come.frames_eq
  | initializer come declared enters passes =>
    exact .inr ⟨_, .initializer come declared enters, level come ▸ passes⟩
  | @native m₁ come bridged =>
    rw [callNative_eq]
    exact .inl come.frames_eq
  | method come unbridged enters passes =>
    exact .inr ⟨_, .method come unbridged enters, level come ▸ passes⟩

/-! ### Results -/

theorem isPlain_of_leave {result v : Option Value} (plain : ∀ u ∈ result, u.IsPlain)
    (h : leave base result m = .ok v m') : ∀ u ∈ v, u.IsPlain := by
  have none : ∀ u ∈ (none : Option Value), u.IsPlain := fun _ member => nomatch member
  unfold leave at h
  split at h
  · cases h
    exact plain
  · split at h
    · cases h
      exact plain
    · cases result with
      | none =>
        cases h
        exact none
      | some u =>
        dsimp only at h
        split at h <;> cases h
        exact none

theorem isPlain_of_cycle {v : Option Value} (above : base < m.depth)
    (hc : cycle base m = .ok v m') : ∀ u ∈ v, u.IsPlain := by
  have none : ∀ u ∈ (none : Option Value), u.IsPlain := fun _ member => nomatch member
  rcases cycle_eq_ok above hc with ⟨opcode, action, m₁, asked, performs⟩ | ⟨rfl, -⟩
  · have plain := isPlain_of_step (m := m) (by rw [asked])
    cases action with
    | leave result => exact isPlain_of_leave plain performs
    | proceed | call | prepare | raise =>
      obtain ⟨rfl, -⟩ := performs
      exact none
  · exact none

theorem isPlain_of_runAbove {result v : Option Value} (plain : ∀ u ∈ result, u.IsPlain)
    (h : runAbove base bound result m = some (.ok v m')) : ∀ u ∈ v, u.IsPlain := by
  induction bound generalizing result m with
  | zero => cases h
  | succ bound ih =>
    unfold runAbove at h
    split at h
    · cases h
      exact plain
    · rename_i above
      cases hc : cycle base m with
      | error e m₁ =>
        rw [hc] at h
        cases h
      | ok u m₁ =>
        rw [hc] at h
        exact ih (isPlain_of_cycle (Nat.not_le.1 above) hc) h

theorem isPlain_of_invoke {v : Option Value}
    (h : invoke bound c method arguments m = some (.ok v m')) : ∀ u ∈ v, u.IsPlain := by
  rcases invoke_cases h with
    ⟨e, m₁, -, ⟨⟩⟩ | ⟨m₁, -, ⟨-, native⟩ | ⟨-, ⟨e, -, ⟨⟩⟩ | ⟨f, -, -, run⟩⟩⟩
  · change EStateM.Result.ok v m' =
      onWorld (NativeCall.run m₁.natives m₁.frames c method arguments) m₁ at native
    unfold onWorld at native
    dsimp only at native
    split at native <;> cases native
    rename_i ran
    exact NativeCall.gives_run _ _ _ _ _ _ _ _ ran
  · exact isPlain_of_runAbove (by simp) run

/-- In a call from outside into a world without return addresses, no return address ever comes into
the world, and every one in a frame of the call has been issued by that frame and is a position
within its code, or its end. Nothing that instructions hand over is a return address: no argument of
a method with code or without, and no result. So no frame of the call leaves its code, if its
handlers begin there. -/
theorem return_addresses_confined (plain : m.world.IsPlain)
    (respects : m.natives.Respects World.StaysPlain) (passed : ∀ v ∈ arguments, v.IsPlain) :
    (∀ m', m.Meets c method arguments m' → m'.world.IsPlain ∧
      (∀ f below, f :: below <:+ m'.frames → m.depth ≤ below.length →
        (∃ entered, m.Enters c method arguments entered ∧ Passes m.depth entered m' ∧
          f.Holds fun position => Issued m.depth entered below.length position m' ∧
            position ≤ f.code.size) ∧
        (f.HandlesInside → f.pc ≤ f.code.size)) ∧
      ∀ action m₁, (step m').2 = .ok action m₁ → action.IsPlain) ∧
    (∀ parameters hasReceiver s values s',
      OperandStack.popArguments parameters hasReceiver s = .ok values s' →
      ∀ v ∈ values, v.IsPlain) ∧
    ∀ bound v m', invoke bound c method arguments m = some (.ok (some v) m') → v.IsPlain := by
  have invariant := invariant_staysPlain respects m.world
  have met {m' : Machine} (meets : m.Meets c method arguments m') :
      m'.natives = m.natives ∧ m'.world.IsPlain := by
    obtain ⟨natives, stays⟩ := invariant.meets ⟨rfl, id⟩ meets
    exact ⟨natives, stays plain⟩
  refine ⟨fun m' meets => ⟨?world, fun f below suffix above => ?frames, ?actions⟩, ?arguments,
    ?results⟩
  case world => exact (met meets).2
  case frames =>
    rcases meets.enters with same | ⟨entered, enters, passes⟩
    · have := suffix.length_le
      rw [same] at this
      unfold depth at above
      simp only [List.length_cons] at this
      omega
    · obtain ⟨natives, plain₁⟩ := met enters.meets
      have begun := enters.confines passed
      have confines := confines_of_passes (natives ▸ respects) plain₁ begun passes
      have confined := AllAbove.iff.1 confines.frames f below suffix above
      exact ⟨⟨entered, enters, passes, confined.held⟩, fun handles => (confined.inside handles).1⟩
  case actions => exact fun action m₁ => isPlain_of_step
  case arguments =>
    intro parameters hasReceiver s values s' popped
    exact OperandStack.gives_popArguments parameters hasReceiver s values s' popped
  case results => exact fun bound v m' ended => isPlain_of_invoke ended v rfl

/-! A method that calls a subroutine, which keeps its return address in a variable. -/

def detouring : Method :=
  { owner := .scalar "Main"
    signature := ⟨"detour", [], none⟩
    flags := Bootstrap.publicFlag ||| Bootstrap.staticFlag
    body := some ⟨1, 1, #[0xa8, 0x00, 0x04, 0xb1, 0x4b, 0xa9, 0x00], []⟩ }

def detouringWorld : World :=
  World.ofProgram .working 0
    [{ ClassDefinition.ofName detouring.owner with
        superclass := some 0
        methods := [(detouring.signature, detouring.flags, detouring.body)] }]

def detouringMachine : Machine :=
  endState (enter 5 detouring [] (start (detouringWorld.markInitialized 5) .standard 1))

def detouredMachine : Machine := endState (cycle 0 (endState (cycle 0 detouringMachine)))

set_option maxRecDepth 100000 in
theorem meets_detouring :
    (start detouringWorld .standard 1).Meets 5 detouring [] detouredMachine := by
  have pending : detouringWorld.uninitialized 5 = [5] := by decide +kernel
  have undeclared : detouringWorld.classes.declared? .initializer 5 = none := by decide +kernel
  have unbridged : (detouringWorld.markInitialized 5).classes.isBridged 5 detouring = false := by
    decide +kernel
  have come : ComesTo [5] (start detouringWorld .standard 1) [] _ := .marked .begins undeclared
  rw [← pending] at come
  have enters : enter 5 detouring [] (start (detouringWorld.markInitialized 5) .standard 1) =
      .ok () detouringMachine := rfl
  have first : Next 0 detouringMachine (endState (cycle 0 detouringMachine)) :=
    ⟨Nat.one_pos, none, rfl⟩
  exact .method come unbridged enters (.ended (.single first) Nat.one_pos)

theorem return_addresses_confined_detouring :
    ∃ f, detouredMachine.frames = [f] ∧ f.locals.slots = #[some (.returnAddress 3)] ∧
      3 ≤ f.code.size ∧ ∃ entered,
        (start detouringWorld .standard 1).Enters 5 detouring [] entered ∧
        Issued 0 entered 0 3 detouredMachine := by
  have plain : (start detouringWorld .standard 1).world.IsPlain := World.isPlain_ofProgram _ _ _
  obtain ⟨calls, -⟩ := @return_addresses_confined _ 5 detouring [] plain
    (NativeRegistry.respects_standard World.tolerated_staysPlain) (by simp)
  obtain ⟨-, frames, -⟩ := calls _ meets_detouring
  have single : ∃ f, detouredMachine.frames = [f] ∧
      f.locals.slots = #[some (.returnAddress 3)] := ⟨_, rfl, rfl⟩
  obtain ⟨f, only, slots⟩ := single
  obtain ⟨⟨entered, enters, -, held⟩, -⟩ := frames f [] (only ▸ List.suffix_rfl) (Nat.zero_le _)
  obtain ⟨issued, inside⟩ := held.locals 0 (.returnAddress 3) (by rw [slots]; rfl) 3 rfl
  exact ⟨f, only, slots, inside, entered, enters, issued⟩

end Machine

end JavaMachine
