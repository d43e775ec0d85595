import JavaMachine.Proofs.Invocations

/-!
# The call stack after an invocation

The frames alive before an invocation or a run are never touched, and nearly every way to end gives
up all frames above them. The one way that does not is a second failure, met while a guest-visible
one is raised: the exception object cannot be made, or the search for its handler is rejected. Then
the frames alive at that moment stay behind.
-/
namespace JavaMachine

namespace World

theorem classOf?_allocate {e : Entity} {w w' : World} {r : Reference}
    (h : allocate e w = .ok r w') : w'.classOf? r = some e.owner := by
  cases h
  change ((w.heap.allocate e).2.get? (w.heap.allocate e).1).map Entity.owner = some e.owner
  rw [Heap.get?_allocate, if_pos rfl]
  rfl

theorem classOf?_exceptionFor {e : Error} {w w' : World} {exception : Reference}
    (h : exceptionFor e w = .ok (some exception) w') : ∃ c, w'.classOf? exception = some c := by
  unfold exceptionFor at h
  obtain ⟨_, _, ⟨⟩, h⟩ := bind_eq_ok.1 h
  cases hc : e.guestClassName.bind fun name => w.findClass? (.scalar name) with
  | none =>
    rw [hc] at h
    cases h
  | some c =>
    rw [hc] at h
    dsimp only at h
    generalize e.guestMessage.filter _ = message at h
    cases message with
    | none =>
      obtain ⟨r, w₁, made, h⟩ := bind_eq_ok.1 h
      cases h
      exact ⟨_, classOf?_allocate made⟩
    | some message =>
      obtain ⟨text, w₁, -, h⟩ := bind_eq_ok.1 h
      obtain ⟨r, w₂, made, h⟩ := bind_eq_ok.1 h
      cases h
      exact ⟨_, classOf?_allocate made⟩

end World

namespace Machine

variable {base bound : Nat} {m m' : Machine} {result : Option Value}
  {r : EStateM.Result Error Machine (Option Value)}

/-- Raising a failure meets another one: the exception object cannot be made, or a handler on the
way has no room for it or a catch type that is no class of the constant pool. -/
def RaisingFails (base : Nat) (e : Error) (m : Machine) : Prop :=
  (∃ e' w, World.exceptionFor e m.world = .error e' w) ∨
    ∃ exception w c e' m', World.exceptionFor e m.world = .ok (some exception) w ∧
      w.classOf? exception = some c ∧
      seekHandler base exception c { m with world := w } = .error e' m'

/-- The instruction fails, and its failure meets another one while it is raised. -/
def FailsRaising (base : Nat) (m : Machine) : Prop :=
  base < m.depth ∧ ∃ e m₁, (attempt base m).2 = .error e m₁ ∧ e.hasContext = false ∧
    RaisingFails base e m₁

/-- A failure without context ends the run with all frames above the base given up, unless another
failure is met while it is raised. -/
theorem handleFailure_error_cases {opcode : Option UInt8} {e e' : Error} (h : base < m.depth)
    (context : e.hasContext = false) (hf : handleFailure base opcode e m = .error e' m') :
    (m'.depth = base ∧ ¬ RaisingFails base e m) ∨ (base < m'.depth ∧ RaisingFails base e m) := by
  rw [handleFailure_eq, if_neg (by simp [context])] at hf
  cases hx : World.exceptionFor e m.world with
  | error e₁ w =>
    rw [hx] at hf
    cases hf
    exact .inr ⟨h, .inl ⟨_, w, hx⟩⟩
  | ok exception w =>
    rw [hx] at hf
    cases exception with
    | none =>
      cases hf
      refine .inl ⟨?_, ?_⟩
      · rw [depth_truncate]
        exact Nat.min_eq_left (Nat.le_of_lt h)
      · rintro (⟨e₁, w₁, failed⟩ | ⟨x, w₁, c, e₁, m₁, made, -⟩)
        · rw [hx] at failed
          cases failed
        · rw [hx] at made
          cases made
    | some exception =>
      obtain ⟨c, known⟩ := World.classOf?_exceptionFor hx
      obtain ⟨-, settled⟩ := seekHandler_retreats (m := { m with world := w })
        World.tolerated_any.loading exception c (Nat.le_of_lt h)
      dsimp only at hf
      rw [unwind_eq, known] at hf
      dsimp only at hf
      cases hs : seekHandler base exception c { m with world := w } with
      | error e₁ m₁ =>
        rw [hs] at hf settled
        cases hf
        exact .inr ⟨settled, .inr ⟨exception, w, c, e', m', hx, known, hs⟩⟩
      | ok caught m₁ =>
        rw [hs] at hf settled
        cases caught with
        | true => cases hf
        | false =>
          cases hf
          refine .inl ⟨settled, ?_⟩
          rintro (⟨e₁, w₁, failed⟩ | ⟨x, w₁, c', e₁, m₁, made, known', failed⟩)
          · rw [hx] at failed
            cases failed
          · rw [hx] at made
            cases made
            rw [known] at known'
            cases known'
            rw [hs] at failed
            cases failed

/-- A cycle that ends the run gives up all frames above the base, unless a failure is met while
another is raised. -/
theorem cycle_error_cases {e : Error} (h : base < m.depth) (hc : cycle base m = .error e m') :
    (m'.depth = base ∧ ¬ FailsRaising base m) ∨ (base < m'.depth ∧ FailsRaising base m) := by
  have runs := attempt_runs World.tolerated_any m.natives.respects_any h fun _ _ _ _ => trivial
  rw [cycle_eq] at hc
  cases ha : (attempt base m).2 with
  | ok v m₁ =>
    rw [ha] at hc
    cases hc
  | error e₁ m₁ =>
    rw [ha] at hc runs
    have hle : base ≤ m₁.depth := (Shift.retreat runs.retreats.frames).base_le
    cases hf : handleFailure base (attempt base m).1 e₁ m₁ with
    | ok _ m₂ => simp [hf] at hc
    | error e₂ m₂ =>
      simp only [hf] at hc
      cases hc
      have same : FailsRaising base m ↔ e₁.hasContext = false ∧ RaisingFails base e₁ m₁ := by
        constructor
        · rintro ⟨-, e₂, m₂, failed, rest⟩
          rw [ha] at failed
          cases failed
          exact rest
        · exact fun rest => ⟨h, e₁, m₁, ha, rest⟩
      rw [same]
      cases context : e₁.hasContext with
      | true =>
        rw [handleFailure_eq, if_pos context] at hf
        cases hf
        refine .inl ⟨?_, by simp⟩
        rw [depth_truncate]
        exact Nat.min_eq_left hle
      | false =>
        have above : base < m₁.depth := runs.above.resolve_right (by simp [context])
        simpa using handleFailure_error_cases above context hf

/-- A failure that is met while another is raised ends the run. -/
theorem FailsRaising.cycle_eq_error (h : FailsRaising base m) :
    ∃ e m', cycle base m = .error e m' ∧ base < m'.depth := by
  obtain ⟨above, e, m₁, failed, context, raising⟩ := id h
  have ended : ∃ e' m', cycle base m = .error e' m' := by
    simp only [cycle_eq, failed, handleFailure_eq, context]
    rcases raising with ⟨e', w, hx⟩ | ⟨x, w, c, e', m', hx, known, hs⟩
    · simp [hx]
    · simp [hx, unwind_eq, known, hs]
  obtain ⟨e', m', hc⟩ := ended
  rcases cycle_error_cases above hc with ⟨-, none⟩ | ⟨higher, -⟩
  · exact absurd h none
  · exact ⟨e', m', hc, higher⟩

/-! ### Runs -/

theorem FailsRaising.ends_above (hf : FailsRaising base m)
    (h : runAbove base bound result m = some r) : base < (endState r).depth := by
  obtain ⟨e, m', hc, higher⟩ := hf.cycle_eq_error
  cases bound with
  | zero => cases h
  | succ bound =>
    unfold runAbove at h
    rw [if_neg (Nat.not_le.2 hf.1), hc] at h
    cases h
    exact higher

/-- The frames at the base survive every run that ends, and are all that is left unless a failure
is met while another is raised. -/
theorem runAbove_frames_eq_iff {lower : List Frame} (hl : lower <:+ m.frames)
    (hb : lower.length = base) (h : runAbove base bound result m = some r) :
    lower <:+ (endState r).frames ∧ ((endState r).frames = lower ↔
      ∀ m', Reaches base m m' → ¬ FailsRaising base m') := by
  obtain ⟨m₁, reached, ended⟩ := reaches_of_runAbove h
  have hl₁ := reached.suffix_of_le hl (Nat.le_of_eq hb)
  have never (hlow : (endState r).depth = base) (m' : Machine) (reached : Reaches base m m') :
      ¬ FailsRaising base m' := by
    intro hf
    obtain ⟨bound', result', h'⟩ := runAbove_of_reaches h reached
    exact Nat.ne_of_gt (hf.ends_above h') hlow
  rcases ended with ⟨low, v, rfl⟩ | ⟨above, e, m', hc, rfl⟩
  · have same : m₁.frames = lower :=
      (hl₁.eq_of_length_le (by rwa [hb])).symm
    have bottom : m₁.depth = base := by
      unfold depth
      rw [same, hb]
    exact ⟨hl₁, fun _ => never bottom, fun _ => same⟩
  · have moves := cycle_moves World.tolerated_any m₁.natives.respects_any above
      fun _ _ _ _ => trivial
    rw [hc] at moves
    have hl' := moves.frames.suffix_of_le hl₁ (Nat.le_of_eq hb)
    refine ⟨hl', ?_, ?_⟩
    · intro same
      have bottom : m'.depth = base := by
        change m'.frames = lower at same
        unfold depth
        rw [same, hb]
      exact never bottom
    · intro fine
      rcases cycle_error_cases above hc with ⟨bottom, -⟩ | ⟨-, failed⟩
      · exact (hl'.eq_of_length (by rw [hb]; exact bottom.symm)).symm
      · exact absurd failed (fine m₁ reached)

/-! ### Invocations -/

/-- The machines on which the initializers of the classes start to run, one after the other. -/
def initializerEntries (bound : Nat) : List ClassId → Machine → List Machine
  | [], _ => []
  | c :: rest, m =>
    match m.world.classes.declared? .initializer c with
    | none => initializerEntries bound rest { m with world := m.world.markInitialized c }
    | some initializer =>
      match enterInitializer c initializer m with
      | .error _ _ => []
      | .ok _ entered =>
        entered ::
          match runAbove m.depth bound none entered with
          | some (.ok _ m') => initializerEntries bound rest m'
          | _ => []

/-- The machine on which a method starts to run, if it gets a frame. -/
def methodEntries (c : ClassId) (method : Method) (arguments : List Value) (m : Machine) :
    List Machine :=
  if m.world.classes.isBridged c method then []
  else
    match enter c method arguments m with
    | .error _ _ => []
    | .ok _ entered => [entered]

/-- The machines on which an invocation lets a frame run that it has put in place itself: those of
initializers first, then that of the method. -/
def entries (bound : Nat) (c : ClassId) (method : Method) (arguments : List Value) (m : Machine) :
    List Machine :=
  initializerEntries bound (m.world.uninitialized c) m ++
    match initializeAll bound (m.world.uninitialized c) m with
    | some (.ok _ m') => methodEntries c method arguments m'
    | _ => []

/-- No run from the machines meets a failure while another one is raised. -/
def NeverFailRaising (base : Nat) (entered : List Machine) : Prop :=
  ∀ m ∈ entered, ∀ m', Reaches base m m' → ¬ FailsRaising base m'

theorem neverFailRaising_nil : NeverFailRaising base [] := by simp [NeverFailRaising]

theorem neverFailRaising_cons {entered : List Machine} :
    NeverFailRaising base (m :: entered) ↔
      (∀ m', Reaches base m m' → ¬ FailsRaising base m') ∧ NeverFailRaising base entered := by
  simp [NeverFailRaising]

theorem neverFailRaising_append {entered entered' : List Machine} :
    NeverFailRaising base (entered ++ entered') ↔
      NeverFailRaising base entered ∧ NeverFailRaising base entered' := by
  simp only [NeverFailRaising, List.mem_append, or_imp, forall_and]

/-- The initializers of an invocation leave the call stack as it was, unless a failure is met while
another is raised. -/
theorem Initialization.frames_eq_iff {pending : List ClassId}
    {r : EStateM.Result Error Machine Unit} (h : Initialization bound pending m r) :
    m.frames <:+ (endState r).frames ∧ ((endState r).frames = m.frames ↔
      NeverFailRaising m.depth (initializerEntries bound pending m)) := by
  induction h with
  | done m => exact ⟨List.suffix_refl _, by simp [initializerEntries, neverFailRaising_nil]⟩
  | marked undeclared later ih =>
    simp only [initializerEntries, undeclared]
    exact ih
  | refused declared refused =>
    simp only [initializerEntries, declared, refused]
    exact ⟨List.suffix_refl _, by simp [neverFailRaising_nil]⟩
  | @failed c rest m entered m' initializer e declared enters run =>
    simp only [initializerEntries, declared, enters, run, neverFailRaising_cons]
    obtain ⟨f, -, frames, -⟩ := frames_entered enters
    have hl : m.frames <:+ entered.frames := by
      rw [frames]
      exact List.suffix_cons f _
    obtain ⟨kept, iff⟩ := runAbove_frames_eq_iff hl rfl run
    exact ⟨kept, iff.trans ⟨fun fine => ⟨fine, neverFailRaising_nil⟩, And.left⟩⟩
  | @ran c rest m entered m' initializer v r declared enters run later ih =>
    simp only [initializerEntries, declared, enters, run, neverFailRaising_cons]
    obtain ⟨f, -, frames, -⟩ := frames_entered enters
    have hl : m.frames <:+ entered.frames := by
      rw [frames]
      exact List.suffix_cons f _
    have same : m'.frames = m.frames := frames_of_runAbove_ok hl rfl run
    have fine := (runAbove_frames_eq_iff hl rfl run).2.1 same
    have depth : m'.depth = m.depth := congrArg List.length same
    rw [same, depth] at ih
    exact ⟨ih.1, ih.2.trans ⟨fun rest => ⟨fine, rest⟩, And.right⟩⟩

theorem invoke_frames_eq_iff {c : ClassId} {method : Method} {arguments : List Value}
    (h : invoke bound c method arguments m = some r) :
    m.frames <:+ (endState r).frames ∧ ((endState r).frames = m.frames ↔
      NeverFailRaising m.depth (entries bound c method arguments m)) := by
  unfold entries
  rcases invoke_cases h with ⟨e, m', hi, rfl⟩ | ⟨m₁, hi, hm⟩
  · rw [hi, List.append_nil]
    exact (initialization_of_eq hi).frames_eq_iff
  · have same : m₁.frames = m.frames := (initialization_of_eq hi).frames_eq rfl
    have depth : m₁.depth = m.depth := congrArg List.length same
    have fine := (initialization_of_eq hi).frames_eq_iff.2.1 same
    have only : NeverFailRaising m.depth (initializerEntries bound (m.world.uninitialized c) m ++
        methodEntries c method arguments m₁) ↔
        NeverFailRaising m.depth (methodEntries c method arguments m₁) :=
      neverFailRaising_append.trans ⟨And.right, fun rest => ⟨fine, rest⟩⟩
    simp only [hi, only]
    unfold methodEntries
    rcases hm with ⟨hb, rfl⟩ | ⟨hb, ⟨e, he, rfl⟩ | ⟨f, -, he, run⟩⟩
    · simp [hb, callNative_eq, same, neverFailRaising_nil]
    · simp [hb, he, same, neverFailRaising_nil]
    · rw [depth, same] at run
      have height : m.frames.length = m.depth := rfl
      obtain ⟨kept, iff⟩ := runAbove_frames_eq_iff (List.suffix_cons f m.frames) height run
      refine ⟨kept, iff.trans ?_⟩
      simp [hb, he, same, neverFailRaising_cons, neverFailRaising_nil]

/-- What an invocation or a run that ends leaves of the call stack. The frames alive before are
there as they were, and they are all there is exactly if nothing that ran met a failure while
another was raised. -/
theorem frames_restored_iff (bound : Nat) (m : Machine) :
    (∀ c method arguments r, invoke bound c method arguments m = some r →
      m.frames <:+ (endState r).frames ∧ ((endState r).frames = m.frames ↔
        NeverFailRaising m.depth (entries bound c method arguments m))) ∧
    ∀ r, run bound m = some r → ((endState r).frames = [] ↔ NeverFailRaising 0 [m]) := by
  constructor
  · intro c method arguments r h
    exact invoke_frames_eq_iff h
  · intro r h
    have iff := (runAbove_frames_eq_iff List.nil_suffix rfl h).2
    rw [iff, neverFailRaising_cons]
    exact (and_iff_left neverFailRaising_nil).symm

/-! A method that divides one by zero, with the handlers given, in a machine that has an exception
class for the failure. -/

def dividing (handlers : List Handler) : Method :=
  { owner := .scalar "Main"
    signature := ⟨"run", [], none⟩
    flags := Bootstrap.publicFlag ||| Bootstrap.staticFlag
    body := some ⟨2, 0, #[0x04, 0x03, 0x6c, 0xb1], handlers⟩ }

def dividingMachine (handlers : List Handler) : Machine :=
  let m := dividing handlers
  start (World.ofProgram .working 0
    [{ ClassDefinition.ofName (.scalar "java/lang/ArithmeticException") with
        superclass := some 0 },
      { ClassDefinition.ofName m.owner with
        superclass := some 0
        methods := [(m.signature, m.flags, m.body)] }]) .standard defaultCallDepth

def misnamed : Handler := ⟨0, 4, 3, 7⟩

def divide (handlers : List Handler) : Outcome (Option Value) :=
  invoke 10 6 (dividing handlers) [] (dividingMachine handlers)

set_option maxRecDepth 100000 in
theorem depth_divide_uncaught : (divide []).map (fun r => (endState r).depth) = some 0 := by
  decide +kernel

set_option maxRecDepth 100000 in
theorem depth_divide_misnamed :
    (divide [misnamed]).map (fun r => (endState r).depth) = some 1 := by
  decide +kernel

theorem frames_restored_uncaught :
    (∃ r, divide [] = some r) ∧
      NeverFailRaising 0 (entries 10 6 (dividing []) [] (dividingMachine [])) := by
  obtain ⟨r, ended, depth⟩ := Option.map_eq_some_iff.1 depth_divide_uncaught
  refine ⟨⟨r, ended⟩, ?_⟩
  exact ((frames_restored_iff 10 (dividingMachine [])).1 6 (dividing []) [] r ended).2.1
    (List.length_eq_zero_iff.1 depth)

/-- A handler that is rejected while the failure is raised leaves the frame behind. -/
theorem frames_left_misnamed :
    ¬ ∀ bound c method arguments m r, invoke bound c method arguments m = some r →
      (endState r).frames = m.frames := by
  intro restored
  obtain ⟨r, ended, depth⟩ := Option.map_eq_some_iff.1 depth_divide_misnamed
  have same := restored 10 6 (dividing [misnamed]) [] (dividingMachine [misnamed]) r ended
  unfold Machine.depth at depth
  rw [same] at depth
  cases depth

end Machine

end JavaMachine
