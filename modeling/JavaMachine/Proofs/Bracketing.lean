import JavaMachine.Proofs.Invocations

/-!
# Calls and returns

From the push of a frame until the call stack is down at its caller again, the caller and all frames
below it stay exactly what they are, whatever runs above. The return of the pushed frame then
moves the caller on, just past its call or, after an initializer, to the instruction that needed it.
What a run gives in the end is what its lowest frame was left with.
-/
namespace JavaMachine

namespace Machine

variable {base bound : Nat} {m m' m₁ : Machine}

/-- How the executing frame of a machine becomes the caller of another one. -/
inductive Suspends (m : Machine) (f caller callee : Frame) : Prop
  /-- Its instruction asks for a call. It has given the arguments, and goes on just past the
  instruction. -/
  | call (opcode : UInt8) (i : Instruction) (cursor : Cursor) (m₁ : Machine)
      (asks : step m = (some opcode, .ok (.call callee) m₁))
      (fetched : Instruction.fetch ⟨f.code, f.pc⟩ = .ok (opcode, i) cursor)
      (caller_eq : caller = { f with nextPc := cursor.position, stack := caller.stack })
  /-- Its instruction asks for an initializer to run first, and is executed again after that. -/
  | initializer (opcode : UInt8) (m₁ : Machine)
      (asks : step m = (some opcode, .ok (.prepare callee) m₁))
      (signature : callee.method.signature = .initializer)
      (caller_eq : caller = { f with nextPc := f.pc })

/-- A cycle that makes the call stack higher puts one frame on top of the executing one. -/
theorem Next.push (h : Next base m m₁) (higher : m.depth < m₁.depth) :
    ∃ f caller callee callers, m.frames = f :: callers ∧
      m₁.frames = callee :: caller :: callers ∧ base ≤ callers.length ∧
      callee.Begins callee.owner callee.method ∧ m.Suspends f caller callee := by
  obtain ⟨above, v, hc⟩ := h
  obtain ⟨f, callers, hm, hb⟩ := exists_executing above
  have low (m₂ : Machine) (hd : m₂.depth = m.depth) (retreats : m₂.Retreats base World.Any m₁) :
      ¬ m.depth < m₁.depth := by
    rw [← hd]
    exact Nat.not_lt.2 retreats.frames.length_le
  rcases cycle_eq_ok above hc with ⟨opcode, action, m₂, hs, performs⟩ | ⟨-, retreats, -⟩
  · obtain ⟨byte, i, cursor, a, rfl, fetched, hx, rfl⟩ := step_eq_ok hm hs
    have asked := Instruction.asks_execute hx
    have hd : (m.withTop callers a).depth = m.depth := (depth_eq hm).symm
    have above' : base < (m.withTop callers a).depth := by rwa [hd]
    cases action with
    | proceed =>
      obtain ⟨-, rfl⟩ := performs
      exact absurd higher (low _ hd (proceed_retreats above'))
    | call callee =>
      obtain ⟨-, rfl⟩ := performs
      exact ⟨f, a.frame, callee, callers, hm, rfl, hb, asked.started.begins,
        .call byte i cursor _ hs fetched asked.caller⟩
    | prepare initializer =>
      obtain ⟨-, rfl⟩ := performs
      refine ⟨f, a.frame, initializer, callers, hm, rfl, hb, asked.started.begins,
        .initializer byte _ hs ?_ ?_⟩
      · exact ClassTable.signature_of_declared? asked.declared
      · exact asked.caller
    | leave result =>
      have retreats := (leave_retreats (R := World.Any) result above').1
      rw [show leave base result (m.withTop callers a) = .ok v m₁ from performs] at retreats
      exact absurd higher (low _ hd retreats)
    | raise exception =>
      have retreats := (unwind_cases World.tolerated_any.loading exception above').1
      rw [performs.2] at retreats
      exact absurd higher (low _ hd retreats)
  · exact absurd higher (Nat.not_lt.2 retreats.frames.length_le)

def NextAbove (base height : Nat) (m m' : Machine) : Prop := Next base m m' ∧ height < m'.depth

/-- A run gets from one machine to the other with more than `height` frames alive all the while. -/
abbrev ReachesAbove (base height : Nat) : Machine → Machine → Prop :=
  Relation.ReflTransGen (NextAbove base height)

/-- The frames below one that stays alive are not touched, and it runs the same method. -/
theorem ReachesAbove.kept {lower : List Frame} {g : Frame}
    (h : ReachesAbove base lower.length m m') (top : List Frame)
    (hm : m.frames = top ++ g :: lower) :
    ∃ top' g', m'.frames = top' ++ g' :: lower ∧ g.SameMethod g' := by
  induction h with
  | refl => exact ⟨top, g, hm, refl_of _ g⟩
  | tail _ next ih =>
    obtain ⟨top₁, g₁, h₁, same⟩ := ih
    obtain ⟨next, higher⟩ := next
    have shift := next.shift
    rw [h₁] at shift
    obtain ⟨top₂, g₂, h₂, same'⟩ := shift.kept higher
    exact ⟨top₂, g₂, h₂, trans_of _ same same'⟩

theorem ReachesAbove.level {lower : List Frame} {g : Frame}
    (h : ReachesAbove base lower.length m m') (hm : m.frames = g :: lower)
    (height : m'.depth = lower.length + 1) :
    ∃ g', m'.frames = g' :: lower ∧ g.SameMethod g' := by
  obtain ⟨top, g', h₁, same⟩ := h.kept [] hm
  cases top with
  | nil => exact ⟨g', h₁, same⟩
  | cons k top =>
    unfold depth at height
    rw [h₁] at height
    simp only [List.length_append, List.length_cons] at height
    omega

/-! ### Returns -/

/-- How a frame is left for a caller above the base: the caller goes on, with the value on its
operand stack if there is one. If there is no room for it, the run ends with the frames above the
base given up. -/
def Returns (base : Nat) (caller : Frame) (below : List Frame) (result : Option Value)
    (m : Machine) (r : EStateM.Result Error Machine (Option Value)) : Prop :=
  match result with
  | none => r = .ok none { m with frames := { caller with pc := caller.nextPc } :: below }
  | some v =>
    let height := caller.stack.size + v.category
    if caller.stack.maxStack < height then
      ∃ opcode l callers m', r = .error (.execution opcode l callers
        (.operandStackOverflow caller.stack.maxStack)) m' ∧
          m'.frames = below.drop (below.length - base)
    else r = .ok none { m with frames :=
      { caller with pc := caller.nextPc, stack := ⟨v :: caller.stack.values, height,
        caller.stack.maxStack⟩ } :: below }

theorem exceptionFor_eq_none {e : Error} (h : e.guestClassName = none) (w : World) :
    World.exceptionFor e w = .ok none w := by
  unfold World.exceptionFor
  rw [h]
  rfl

theorem handleFailure_of_internal (opcode : Option UInt8) {e : Error} {k : Frame}
    {below : List Frame} (hm : m.frames = k :: below) (hb : base ≤ below.length)
    (context : e.hasContext = false) (internal : e.guestClassName = none) :
    ∃ l callers m', handleFailure base opcode e m = .error (.execution opcode l callers e) m' ∧
      m'.frames = below.drop (below.length - base) := by
  rw [handleFailure_eq, if_neg (by simp [context]), exceptionFor_eq_none internal]
  obtain ⟨world, frames, natives, maxCallDepth⟩ := m
  cases hm
  refine ⟨k.location world.classes, below.map (Frame.location world.classes), _, rfl, ?_⟩
  unfold truncate depth
  dsimp only
  rw [List.length_cons, Nat.succ_sub hb]
  rfl

theorem cycle_eq_error {e e' : Error} (ha : (attempt base m).2 = .error e m₁)
    (hf : handleFailure base (attempt base m).1 e m₁ = .error e' m') :
    cycle base m = .error e' m' := by
  rw [cycle_eq, ha]
  dsimp only
  rw [hf]

theorem cycle_returns {g caller : Frame} {below : List Frame} {opcode : Option UInt8}
    {result : Option Value} (hm : m.frames = g :: caller :: below) (hb : base ≤ below.length)
    (hs : step m = (opcode, .ok (.leave result) m₁)) :
    Returns base caller below result m₁ (cycle base m) := by
  obtain ⟨byte, i, cursor, a, -, -, -, rfl⟩ := step_eq_ok hm hs
  have attempted : (attempt base m).2 = leave base result (m.withTop (caller :: below) a) := by
    unfold attempt
    rw [hs]
    rfl
  unfold leave at attempted
  dsimp only [withTop, List.tail_cons] at attempted
  rw [if_neg (Nat.not_lt.2 hb)] at attempted
  cases result with
  | none =>
    unfold Returns
    rw [cycle_eq, attempted]
    rfl
  | some v =>
    unfold Returns
    dsimp only [Frame.advance] at attempted ⊢
    unfold OperandStack.push at attempted
    split
    · rename_i full
      rw [if_pos full] at attempted
      obtain ⟨l, callers, m', hf, frames⟩ := handleFailure_of_internal (attempt base m).1
        (m := { m.withTop (caller :: below) a with
          frames := { caller with pc := caller.nextPc } :: below })
        (e := .operandStackOverflow caller.stack.maxStack) rfl hb rfl rfl
      exact ⟨_, l, callers, m', cycle_eq_error attempted hf, frames⟩
    · rename_i room
      rw [if_neg room] at attempted
      rw [cycle_eq, attempted]
      rfl

/-! ### Results -/

/-- A run above the frames `lower` has ended with the value that the frame on top of them was left
with. That frame runs the method of `f`. -/
def LeavesWith (f : Frame) (lower : List Frame) (m : Machine) (v : Option Value) (m' : Machine) :
    Prop :=
  ∃ m₁ g opcode m₂, Reaches lower.length m m₁ ∧ m₁.frames = g :: lower ∧ f.SameMethod g ∧
    step m₁ = (opcode, .ok (.leave v) m₂) ∧ m'.frames = lower

/-- A cycle comes down to the base only by a return, and then gives what was returned. -/
theorem cycle_to_base {v : Option Value} (above : base < m.depth) (hc : cycle base m = .ok v m')
    (low : m'.depth ≤ base) :
    ∃ g opcode m₂, m.frames = g :: m'.frames ∧ m'.frames.length = base ∧
      step m = (opcode, .ok (.leave v) m₂) := by
  obtain ⟨f, callers, hm, hb⟩ := exists_executing above
  rcases cycle_eq_ok above hc with ⟨opcode, action, m₂, hs, performs⟩ | ⟨-, -, higher⟩
  · obtain ⟨byte, i, cursor, a, -, -, -, rfl⟩ := step_eq_ok hm hs
    cases action with
    | proceed =>
      obtain ⟨-, rfl⟩ := performs
      exact absurd hb (Nat.not_le.2 low)
    | call callee =>
      obtain ⟨-, rfl⟩ := performs
      exact absurd hb (Nat.not_le.2 (Nat.lt_of_succ_lt low))
    | prepare initializer =>
      obtain ⟨-, rfl⟩ := performs
      exact absurd hb (Nat.not_le.2 (Nat.lt_of_succ_lt low))
    | leave result =>
      unfold Performs leave at performs
      dsimp only [withTop, List.tail_cons] at performs
      cases callers with
      | nil =>
        cases performs
        exact ⟨f, opcode, _, hm, (Nat.le_zero.1 hb).symm, hs⟩
      | cons caller below =>
        dsimp only at performs
        split at performs
        · rename_i hlt
          cases performs
          exact ⟨f, opcode, _, hm, Nat.le_antisymm hlt hb, hs⟩
        · rename_i hge
          have height : m'.depth = below.length + 1 := by
            split at performs
            · cases performs
              rfl
            · split at performs <;> cases performs
              rfl
          omega
    | raise exception =>
      have ways := (unwind_cases (m := m.withTop callers a) World.tolerated_any.loading exception
        (Nat.lt_succ_of_le hb)).2
      rw [performs.2] at ways
      exact absurd ways (Nat.not_lt.2 low)
  · exact absurd higher (Nat.not_lt.2 low)

theorem leavesWith_of_runAbove {f : Frame} (top : List Frame) {lower : List Frame}
    {result v : Option Value} (hm : m.frames = top ++ f :: lower)
    (h : runAbove lower.length bound result m = some (.ok v m')) : LeavesWith f lower m v m' := by
  induction bound generalizing result m top f with
  | zero => cases h
  | succ bound ih =>
    have above : lower.length < m.depth := by
      unfold depth
      rw [hm, List.length_append, List.length_cons]
      omega
    unfold runAbove at h
    rw [if_neg (Nat.not_le.2 above)] at h
    cases hc : cycle lower.length m with
    | error e m₁ =>
      rw [hc] at h
      cases h
    | ok v₁ m₁ =>
      simp only [hc] at h
      have next : Next lower.length m m₁ := ⟨above, v₁, hc⟩
      have shift := next.shift
      rw [hm] at shift
      rcases Nat.lt_or_ge lower.length m₁.depth with higher | low
      · obtain ⟨top₁, f₁, h₁, same⟩ := shift.kept higher
        obtain ⟨m₂, g, opcode, m₃, reached, h₂, same', left⟩ := ih top₁ h₁ h
        exact ⟨m₂, g, opcode, m₃, .head next reached, h₂, trans_of _ same same', left⟩
      · obtain ⟨g, opcode, m₂, h₁, height, left⟩ := cycle_to_base above hc low
        have level : (g :: m₁.frames).length = (f :: lower).length := congrArg (· + 1) height
        have same : g :: m₁.frames = f :: lower := by
          refine eq_of_suffix_of_length_eq (l := m.frames) ?_ ?_ level
          · exact h₁ ▸ List.suffix_refl _
          · rw [hm]
            exact List.suffix_append top _
        have bottom : m₁.frames = lower := (List.cons_eq_cons.1 same).2
        have done : v₁ = v ∧ m₁ = m' := by
          cases bound with
          | zero => cases h
          | succ bound =>
            unfold runAbove at h
            rw [if_pos low] at h
            cases h
            exact ⟨rfl, rfl⟩
        obtain ⟨rfl, rfl⟩ := done
        exact ⟨m, f, opcode, m₂, .refl, h₁.trans same, refl_of _ f, left, bottom⟩

/-- Calls are bracketed. A frame that is put on top of another one suspends it, and what the
instruction has asked for tells how. As long as the call stack stays higher than the suspended
frame, this frame and all below it are what they were, and when the frame on top of it is left, it
goes on as its return says. A run gives what its lowest frame was left with, and an invocation of a
method with bytecode what the frame of that method was. More cycles than needed change neither. -/
theorem calls_bracketed :
    (∀ base m m₁, Next base m m₁ → m.depth < m₁.depth →
      ∃ f caller callee callers, m.frames = f :: callers ∧
        m₁.frames = callee :: caller :: callers ∧ callee.Begins callee.owner callee.method ∧
        m.Suspends f caller callee ∧ ∀ m₂, ReachesAbove base m.depth m₁ m₂ →
          (∃ top g, m₂.frames = top ++ g :: caller :: callers ∧ callee.SameMethod g) ∧
          ∀ g opcode result m₃, m₂.frames = g :: caller :: callers →
            step m₂ = (opcode, .ok (.leave result) m₃) →
            Returns base caller callers result m₃ (cycle base m₂)) ∧
    (∀ bound m v m' top f, m.frames = top ++ [f] → run bound m = some (.ok v m') →
      LeavesWith f [] m v m') ∧
    (∀ bound c method arguments m v m', invoke bound c method arguments m = some (.ok v m') →
      ∃ m₁, initializeAll bound (m.world.uninitialized c) m = some (.ok () m₁) ∧
        m₁.frames = m.frames ∧ (m₁.world.classes.isBridged c method = false →
          ∃ f, f.Begins c method ∧
            enter c method arguments m₁ = .ok () { m₁ with frames := f :: m.frames } ∧
            LeavesWith f m.frames { m₁ with frames := f :: m.frames } v m')) ∧
    ∀ bound bound', bound ≤ bound' →
      (∀ m r, run bound m = some r → run bound' m = some r) ∧
      ∀ c method arguments m r, invoke bound c method arguments m = some r →
        invoke bound' c method arguments m = some r := by
  refine ⟨?_, ?_, ?_, ?_⟩
  · intro base m m₁ next higher
    obtain ⟨f, caller, callee, callers, hm, h₁, hb, begins, suspends⟩ := next.push higher
    refine ⟨f, caller, callee, callers, hm, h₁, begins, suspends, ?_⟩
    intro m₂ reached
    constructor
    · have height : m.depth = (caller :: callers).length := depth_eq hm
      rw [height] at reached
      exact reached.kept [] h₁
    · intro g opcode result m₃ h₂ hs
      exact cycle_returns h₂ hb hs
  · intro bound m v m' top f hm h
    exact leavesWith_of_runAbove top hm h
  · intro bound c method arguments m v m' h
    rcases invoke_cases h with ⟨e, m₁, -, ⟨⟩⟩ | ⟨m₁, hi, hm⟩
    have same : m₁.frames = m.frames := (initialization_of_eq hi).frames_eq rfl
    refine ⟨m₁, hi, same, ?_⟩
    intro hb
    rcases hm with ⟨bridged, -⟩ | ⟨-, ⟨e, -, ⟨⟩⟩ | ⟨f, begins, entered, ran⟩⟩
    · rw [hb] at bridged
      cases bridged
    · unfold depth at ran
      rw [same] at entered ran
      exact ⟨f, begins, entered, leavesWith_of_runAbove [] rfl ran⟩
  · intro bound bound' more
    exact ⟨fun _ _ ran => runAbove_mono ran more, fun _ _ _ _ _ ran => invoke_mono ran more⟩

/-! A method that returns what another one returns to it. The class of that one has to be
initialized first. -/

def given : EStateM.Result Error Machine (Option Value) → Option (Option Value)
  | .ok v _ => some v
  | .error _ _ => none

theorem eq_ok_of_given {r : EStateM.Result Error Machine (Option Value)} {v : Option Value}
    (h : given r = some v) : r = .ok v (endState r) := by
  cases r with
  | ok v' m => cases h; rfl
  | error e m => cases h

def asksInitializer (m : Machine) : Bool :=
  match (step m).2 with
  | .ok (.prepare _) _ => true
  | _ => false

def answering : Method :=
  { owner := .scalar "Other"
    signature := ⟨"answer", [], some (.primitive .int)⟩
    flags := Bootstrap.publicFlag ||| Bootstrap.staticFlag
    body := some ⟨1, 0, #[0x05, 0xac], []⟩ }

def preparing : Method :=
  { answering with
    signature := .initializer
    body := some ⟨0, 0, #[0xb1], []⟩ }

def asking : Method :=
  { answering with
    owner := .scalar "Main"
    signature := ⟨"ask", [], some (.primitive .int)⟩
    body := some ⟨1, 0, #[0xb8, 0x00, 0x01, 0xac], []⟩ }

def askingMachine : Machine :=
  start (World.ofProgram .working 0
    [{ ClassDefinition.ofName answering.owner with
        superclass := some 0
        methods := [preparing, answering].map fun m => (m.signature, m.flags, m.body) },
      { ClassDefinition.ofName asking.owner with
        superclass := some 0
        pool := .ofList [.method ⟨answering.owner, answering.signature⟩]
        methods := [(asking.signature, asking.flags, asking.body)] }])
    .standard defaultCallDepth

def asked : Machine := { askingMachine with frames := [⟨6, asking, 0, 0, .empty 0, .empty 1⟩] }

/-- The machine when the class that is asked has been initialized. -/
def prepared : Machine := { asked with world := asked.world.markInitialized 5 }

set_option maxRecDepth 100000 in
theorem asked_calls :
    given (cycle 0 asked) = some none ∧ (endState (cycle 0 asked)).depth = 2 ∧
      asksInitializer asked = true ∧ given (cycle 0 prepared) = some none ∧
      (endState (cycle 0 prepared)).depth = 2 ∧ asksInitializer prepared = false ∧
      (run 10 asked).map given = some (some (some (.int 2))) ∧
      (invoke 10 6 asking [] askingMachine).map given = some (some (some (.int 2))) := by
  decide +kernel

set_option maxRecDepth 100000 in
theorem asking_isBytecode :
    (initializeAll 10 (askingMachine.world.uninitialized 6) askingMachine).map
      (fun r => (endState r).world.classes.isBridged 6 asking) = some false := by
  decide +kernel

/-- The call is at the position 0 and three bytes long. The initializer that runs first leaves it
where it is, the call itself goes on past it. -/
theorem calls_bracketed_asked :
    (∃ m₁ caller callee, Next 0 asked m₁ ∧ m₁.frames = [callee, caller] ∧
      callee.method.signature = .initializer ∧ caller.pc = 0 ∧ caller.nextPc = 0) ∧
    (∃ m₁ caller callee, Next 0 prepared m₁ ∧ m₁.frames = [callee, caller] ∧
      caller.pc = 0 ∧ caller.nextPc = 3) ∧
    (∃ f m', run 10 asked = some (.ok (some (.int 2)) m') ∧
      LeavesWith f [] asked (some (.int 2)) m') ∧
    ∃ (f : Frame) (m₁ m' : Machine),
      invoke 10 6 asking [] askingMachine = some (.ok (some (.int 2)) m') ∧
      LeavesWith f [] { m₁ with frames := [f] } (some (.int 2)) m' := by
  obtain ⟨cycled, higher, first, cycled', higher', last, ran, invoked⟩ := asked_calls
  obtain ⟨calls, runs, invocations, -⟩ := calls_bracketed
  refine ⟨?_, ?_, ?_, ?_⟩
  · have next : Next 0 asked (endState (cycle 0 asked)) :=
      ⟨Nat.one_pos, none, eq_ok_of_given cycled⟩
    obtain ⟨f, caller, callee, callers, before, after, -, suspends, -⟩ :=
      calls 0 asked _ next (by rw [higher]; exact Nat.one_lt_two)
    cases before
    cases suspends with
    | call opcode i cursor m₁ asks =>
      simp [asksInitializer, asks] at first
    | initializer opcode m₁ asks signature caller_eq =>
      subst caller_eq
      exact ⟨_, _, callee, next, after, signature, rfl, rfl⟩
  · have next : Next 0 prepared (endState (cycle 0 prepared)) :=
      ⟨Nat.one_pos, none, eq_ok_of_given cycled'⟩
    obtain ⟨f, caller, callee, callers, before, after, -, suspends, -⟩ :=
      calls 0 prepared _ next (by rw [higher']; exact Nat.one_lt_two)
    cases before
    cases suspends with
    | call opcode i cursor m₁ asks fetched caller_eq =>
      cases fetched
      exact ⟨_, caller, callee, next, after, by rw [caller_eq], by rw [caller_eq]; rfl⟩
    | initializer opcode m₁ asks =>
      simp [asksInitializer, asks] at last
  · obtain ⟨r, ended, value⟩ := Option.map_eq_some_iff.1 ran
    rw [eq_ok_of_given value] at ended
    exact ⟨_, _, ended, runs 10 asked _ _ [] _ rfl ended⟩
  · obtain ⟨r, ended, value⟩ := Option.map_eq_some_iff.1 invoked
    rw [eq_ok_of_given value] at ended
    obtain ⟨m₁, initialized, -, entered⟩ := invocations 10 6 asking [] askingMachine _ _ ended
    have bytecode := asking_isBytecode
    rw [initialized] at bytecode
    obtain ⟨f, -, -, left⟩ := entered (Option.some.inj bytecode)
    exact ⟨f, m₁, _, ended, left⟩

end Machine

end JavaMachine
