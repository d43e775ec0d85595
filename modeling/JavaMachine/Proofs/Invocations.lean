import JavaMachine.Proofs.Cycles
import JavaMachine.World.Bootstrap

/-!
# Invocations from outside

An invocation from outside puts frames in place itself and lets each run down to where the call
stack was before: one for every initializer that is pending, then one for the method. What comes
of it is laid out here as a derivation, one case for each way it can go.
-/
namespace JavaMachine

def World.ofProgram (console : Console) (clock : Nat) (program : List ClassDefinition) : World :=
  program.foldl (fun w d => (w.define d).2) (start console clock)

namespace Machine

variable {base bound : Nat} {m m' : Machine}

theorem frames_of_runAbove_ok {lower : List Frame} {result v : Option Value}
    (hl : lower <:+ m.frames) (hb : lower.length = base)
    (h : runAbove base bound result m = some (.ok v m')) : m'.frames = lower := by
  obtain ⟨m₁, reached, ended⟩ := reaches_of_runAbove h
  have hl₁ := reached.suffix_of_le hl (Nat.le_of_eq hb)
  rcases ended with ⟨low, v, ⟨⟩⟩ | ⟨-, e, m₂, -, ⟨⟩⟩
  exact (hl₁.eq_of_length_le (by rwa [hb])).symm

/-- The initialization of classes one after the other, with what it comes to. -/
inductive Initialization (bound : Nat) :
    List ClassId → Machine → EStateM.Result Error Machine Unit → Prop
  | done (m : Machine) : Initialization bound [] m (.ok () m)
  /-- A class without initializer is only marked. -/
  | marked {c : ClassId} {rest : List ClassId} {m : Machine}
      {r : EStateM.Result Error Machine Unit}
      (undeclared : m.world.classes.declared? .initializer c = none)
      (later : Initialization bound rest { m with world := m.world.markInitialized c } r) :
      Initialization bound (c :: rest) m r
  /-- An initializer gets no frame. -/
  | refused {c : ClassId} {rest : List ClassId} {m : Machine} {initializer : Method} {e : Error}
      (declared : m.world.classes.declared? .initializer c = some initializer)
      (refused : enterInitializer c initializer m = .error e m) :
      Initialization bound (c :: rest) m (.error e m)
  /-- An initializer fails. -/
  | failed {c : ClassId} {rest : List ClassId} {m entered m' : Machine} {initializer : Method}
      {e : Error} (declared : m.world.classes.declared? .initializer c = some initializer)
      (enters : enterInitializer c initializer m = .ok () entered)
      (run : runAbove m.depth bound none entered = some (.error e m')) :
      Initialization bound (c :: rest) m (.error e m')
  /-- An initializer runs to its end, and the classes after it have their turn. -/
  | ran {c : ClassId} {rest : List ClassId} {m entered m' : Machine} {initializer : Method}
      {v : Option Value} {r : EStateM.Result Error Machine Unit}
      (declared : m.world.classes.declared? .initializer c = some initializer)
      (enters : enterInitializer c initializer m = .ok () entered)
      (run : runAbove m.depth bound none entered = some (.ok v m'))
      (later : Initialization bound rest m' r) : Initialization bound (c :: rest) m r

theorem initialization_of_eq {pending : List ClassId} {r : EStateM.Result Error Machine Unit}
    (h : initializeAll bound pending m = some r) : Initialization bound pending m r := by
  induction pending generalizing m with
  | nil =>
    cases h
    exact .done m
  | cons c rest ih =>
    unfold initializeAll at h
    cases hd : m.world.classes.declared? .initializer c with
    | none =>
      simp only [hd] at h
      exact .marked hd (ih h)
    | some initializer =>
      rcases enterInitializer_eq c initializer m with ⟨e, he⟩ | ⟨f, -, he⟩
      · simp only [hd, he, Outcome.andThen] at h
        cases h
        exact .refused hd he
      · simp only [hd, he, Outcome.andThen] at h
        split at h
        · cases h
        · rename_i hrun
          exact .ran hd he hrun (ih h)
        · rename_i hrun
          cases h
          exact .failed hd he hrun

theorem frames_entered {c : ClassId} {initializer : Method} {entered : Machine}
    (h : enterInitializer c initializer m = .ok () entered) :
    ∃ f, f.Begins c initializer ∧ entered.frames = f :: m.frames ∧
      entered.world = m.world.markInitialized c ∧ entered.natives = m.natives ∧
      entered.maxCallDepth = m.maxCallDepth := by
  rcases enterInitializer_eq c initializer m with ⟨e, he⟩ | ⟨f, begins, he⟩
  · rw [he] at h
    cases h
  · rw [he] at h
    cases h
    exact ⟨f, begins, rfl, rfl, rfl, rfl⟩

theorem Initialization.frames_eq {pending : List ClassId} {r : EStateM.Result Error Machine Unit}
    (h : Initialization bound pending m r) (hr : r = .ok () m') : m'.frames = m.frames := by
  induction h with
  | done m =>
    cases hr
    rfl
  | marked undeclared later ih => exact ih hr
  | refused declared refused => cases hr
  | failed declared enters run => cases hr
  | ran declared enters run later ih =>
    obtain ⟨f, -, frames, -⟩ := frames_entered enters
    rw [ih hr]
    refine frames_of_runAbove_ok ?_ rfl run
    rw [frames]
    exact List.suffix_cons f _

/-- A native method that is called from outside changes the world only. -/
theorem callNative_eq (c : ClassId) (method : Method) (arguments : List Value) (m : Machine) :
    endState (callNative c method arguments m) = { m with
      world := endState (NativeCall.run m.natives m.frames c method arguments m.world) } := by
  change endState (onWorld (NativeCall.run m.natives m.frames c method arguments) m) = _
  unfold onWorld
  dsimp only
  cases NativeCall.run m.natives m.frames c method arguments m.world <;> rfl

theorem Initialization.initializeAll_eq {bound' : Nat} {pending : List ClassId}
    {r : EStateM.Result Error Machine Unit} (h : Initialization bound pending m r)
    (hle : bound ≤ bound') : initializeAll bound' pending m = some r := by
  induction h with
  | done m => rfl
  | marked undeclared _ ih =>
    unfold initializeAll
    simp only [undeclared]
    exact ih
  | refused declared refused =>
    unfold initializeAll
    simp only [declared, refused, Outcome.andThen]
  | failed declared enters run =>
    unfold initializeAll
    simp only [declared, enters, Outcome.andThen, runAbove_mono run hle]
  | ran declared enters run _ ih =>
    unfold initializeAll
    simp only [declared, enters, Outcome.andThen, runAbove_mono run hle]
    exact ih

/-- The ways an invocation can go: its initializers fail, the native bridge runs the method, the
method gets no frame, or its frame runs. -/
theorem invoke_cases {c : ClassId} {method : Method} {arguments : List Value}
    {r : EStateM.Result Error Machine (Option Value)}
    (h : invoke bound c method arguments m = some r) :
    (∃ e m', initializeAll bound (m.world.uninitialized c) m = some (.error e m') ∧
      r = .error e m') ∨
    ∃ m₁, initializeAll bound (m.world.uninitialized c) m = some (.ok () m₁) ∧
      ((m₁.world.classes.isBridged c method = true ∧ r = callNative c method arguments m₁) ∨
        (m₁.world.classes.isBridged c method = false ∧
          ((∃ e, enter c method arguments m₁ = .error e m₁ ∧ r = .error e m₁) ∨
            ∃ f, f.Begins c method ∧
              enter c method arguments m₁ = .ok () { m₁ with frames := f :: m₁.frames } ∧
              runAbove m₁.depth bound none { m₁ with frames := f :: m₁.frames } = some r))) := by
  unfold invoke at h
  cases hi : initializeAll bound (m.world.uninitialized c) m with
  | none => simp [hi, Outcome.andThen] at h
  | some r₁ =>
    cases r₁ with
    | error e m' =>
      simp only [hi, Outcome.andThen] at h
      cases h
      exact .inl ⟨e, m', rfl, rfl⟩
    | ok _ m₁ =>
      simp only [hi, Outcome.andThen] at h
      refine .inr ⟨m₁, rfl, ?_⟩
      cases hb : m₁.world.classes.isBridged c method with
      | true =>
        simp only [hb, if_true] at h
        cases h
        exact .inl ⟨rfl, rfl⟩
      | false =>
        refine .inr ⟨rfl, ?_⟩
        rcases enter_eq c method arguments m₁ with ⟨e, he⟩ | ⟨f, begins, he⟩
        · simp [hb, he] at h
          exact .inl ⟨e, he, h.symm⟩
        · simp [hb, he] at h
          exact .inr ⟨f, begins, he, h⟩

theorem invoke_mono {bound' : Nat} {c : ClassId} {method : Method} {arguments : List Value}
    {r : EStateM.Result Error Machine (Option Value)}
    (h : invoke bound c method arguments m = some r) (hle : bound ≤ bound') :
    invoke bound' c method arguments m = some r := by
  unfold invoke
  rcases invoke_cases h with ⟨e, m', initialized, rfl⟩ | ⟨m₁, initialized, ways⟩
  · rw [(initialization_of_eq initialized).initializeAll_eq hle]
    rfl
  · rw [(initialization_of_eq initialized).initializeAll_eq hle]
    rcases ways with ⟨bridged, rfl⟩ | ⟨bytecode, ⟨e, refused, rfl⟩ | ⟨f, -, entered, ran⟩⟩
    · simp [Outcome.andThen, bridged]
    · simp [Outcome.andThen, bytecode, refused]
    · simp [Outcome.andThen, bytecode, entered, runAbove_mono ran hle]

end Machine

end JavaMachine
