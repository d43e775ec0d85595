import JavaMachine.Proofs.CallStack
import Mathlib.Logic.Relation

/-!
# Cycles and runs

A cycle is a step, the request of its instruction, and the handling of a failure. Each part moves
the machine on by a change of the call stack, so a run does: what holds for the frames at the base
and below holds for runs of every length by induction over their cycles.
-/
namespace JavaMachine

namespace Machine

variable {base : Nat} {m m' m₁ : Machine}

/-! ### Carrying out requests -/

theorem pushFrame_eq (f : Frame) (m : Machine) :
    (∃ e, pushFrame f m = .error e m) ∨
      pushFrame f m = .ok () { m with frames := f :: m.frames } := by
  unfold pushFrame
  split
  · exact .inl ⟨_, rfl⟩
  · exact .inr rfl

/-- The machine after one cycle or a part of it, in a world that went along the relation. -/
structure Moves (base : Nat) (R : World → World → Prop) (m m' : Machine) : Prop where
  frames : Shift base m.frames m'.frames
  world : R m.world m'.world
  natives : m'.natives = m.natives
  maxCallDepth : m'.maxCallDepth = m.maxCallDepth

section Requests

variable {R : World → World → Prop} [IsPreorder World R]

omit [IsPreorder World R] in
theorem Retreats.moves (h : m.Retreats base R m') : m.Moves base R m' :=
  ⟨.retreat h.frames, h.world, h.natives, h.maxCallDepth⟩

theorem Retreats.refl (h : base < m.depth) : m.Retreats base R m := by
  refine ⟨?_, refl_of R _, rfl, rfl⟩
  obtain ⟨f, callers, hm, hb⟩ := exists_executing h
  rw [hm]
  exact .replace (refl_of _ f) hb

/-- What is left of a computation that failed: frames were only given up, and the executing one is
above the base unless the failure has left the run already. -/
structure Fails (base : Nat) (R : World → World → Prop) (m : Machine) (e : Error)
    (m' : Machine) : Prop where
  retreats : m.Retreats base R m'
  above : base < m'.depth ∨ e.hasContext = true

/-- A computation moves the machine on, and only retreats if it fails. -/
def Runs {α : Type} (base : Nat) (R : World → World → Prop) (m : Machine) :
    EStateM.Result Error Machine α → Prop
  | .ok _ m' => m.Moves base R m'
  | .error e m' => m.Fails base R e m'

theorem pushFrame_runs {callee : Frame} (h : base < m.depth) :
    m.Runs base R (pushFrame callee m) := by
  unfold pushFrame
  split
  · exact ⟨.refl h, .inl h⟩
  · obtain ⟨f, callers, hm, hb⟩ := exists_executing h
    refine ⟨?_, refl_of R _, rfl, rfl⟩
    rw [hm]
    exact .push (refl_of _ f) hb

theorem proceed_retreats (h : base < m.depth) : m.Retreats base R m.proceed := by
  obtain ⟨f, callers, hm, hb⟩ := exists_executing h
  unfold proceed
  rw [hm]
  refine ⟨?_, refl_of R _, rfl, rfl⟩
  rw [hm]
  exact .replace ⟨rfl, rfl⟩ hb

theorem leave_retreats (result : Option Value) (h : base < m.depth) :
    m.Retreats base R (endState (leave base result m)) ∧
      ∀ e m', leave base result m = .error e m' → base < m'.depth := by
  obtain ⟨f, callers, hm, above⟩ := exists_executing h
  unfold leave
  rw [hm, List.tail_cons]
  cases callers with
  | nil =>
    have hb : base = 0 := Nat.le_zero.1 above
    subst hb
    refine ⟨⟨?_, refl_of R _, rfl, rfl⟩, fun _ _ h => by cases h⟩
    rw [hm]
    exact .clear [f] rfl
  | cons caller below =>
    dsimp only
    split
    · rename_i hlt
      have bottom : (caller :: below).length = base := Nat.le_antisymm hlt above
      refine ⟨⟨?_, refl_of R _, rfl, rfl⟩, fun _ _ h => by cases h⟩
      rw [hm]
      exact .clear [f] bottom
    · rename_i hge
      have hle : base ≤ below.length := Nat.not_lt.1 hge
      have resumed {k : Frame} (same : caller.SameMethod k) :
          Retreat base m.frames (k :: below) := by
        rw [hm]
        exact .resume [f] same hle
      cases result with
      | none => exact ⟨⟨resumed ⟨rfl, rfl⟩, refl_of R _, rfl, rfl⟩, fun _ _ h => by cases h⟩
      | some v =>
        dsimp only
        split
        · exact ⟨⟨resumed ⟨rfl, rfl⟩, refl_of R _, rfl, rfl⟩, fun _ _ h => by cases h⟩
        · refine ⟨⟨resumed ⟨rfl, rfl⟩, refl_of R _, rfl, rfl⟩, ?_⟩
          rintro e m' ⟨⟩
          exact Nat.lt_succ_of_le hle

theorem Runs.bind {α β : Type} {x : Transition α} {g : α → Transition β}
    (hx : m.Runs base R (x m))
    (hg : ∀ a m₁, x m = .ok a m₁ → ∃ b w, g a m₁ = .ok b { m₁ with world := w } ∧
      R m₁.world w) : m.Runs base R ((x >>= g) m) := by
  change m.Runs base R (EStateM.bind x g m)
  unfold EStateM.bind
  cases hx' : x m with
  | error e m₁ =>
    rw [hx'] at hx
    exact hx
  | ok a m₁ =>
    rw [hx'] at hx
    obtain ⟨b, w, hb, hw⟩ := hg a m₁ hx'
    dsimp only
    rw [hb]
    exact ⟨hx.frames, trans_of R hx.world hw, hx.natives, hx.maxCallDepth⟩

theorem perform_runs (hR : World.Tolerated R) (action : Action) (h : base < m.depth)
    (marks : ∀ f, action = .prepare f → R m.world (m.world.markInitialized f.owner)) :
    m.Runs base R (perform base action m) := by
  cases action with
  | proceed => exact (proceed_retreats h).moves
  | call callee =>
    refine Runs.bind (pushFrame_runs h) fun _ m₁ _ => ?_
    exact ⟨none, m₁.world, rfl, refl_of R _⟩
  | prepare f =>
    refine Runs.bind (pushFrame_runs h) fun _ m₁ pushed => ?_
    refine ⟨none, m₁.world.markInitialized f.owner, rfl, ?_⟩
    have same : m₁.world = m.world := by
      unfold pushFrame at pushed
      split at pushed <;> cases pushed
      rfl
    rw [same]
    exact marks f rfl
  | leave result =>
    obtain ⟨retreats, above⟩ := leave_retreats (R := R) result h
    change m.Runs base R (leave base result m)
    cases hl : leave base result m with
    | ok v m' =>
      rw [hl] at retreats
      exact retreats.moves
    | error e m' =>
      rw [hl] at retreats
      exact ⟨retreats, .inl (above e m' hl)⟩
  | raise exception =>
    obtain ⟨retreats, ways⟩ := unwind_cases hR.loading exception h
    change m.Runs base R (EStateM.bind (unwind base exception) _ m)
    unfold EStateM.bind
    cases hu : unwind base exception m with
    | ok _ m' =>
      rw [hu] at retreats
      exact retreats.moves
    | error e m' =>
      rw [hu] at retreats ways
      refine ⟨retreats, ?_⟩
      rcases ways with ⟨context, -⟩ | ⟨-, -, rfl⟩ | ⟨c, -, above, -⟩
      · exact .inr context
      · exact .inl h
      · exact .inl above

end Requests

/-! ### Cycles -/

/-- An instruction with what it asks for, before a failure is handled. The opcode comes first. -/
def attempt (base : Nat) (m : Machine) :
    Option UInt8 × EStateM.Result Error Machine (Option Value) :=
  ((step m).1,
    match (step m).2 with
    | .ok action m => perform base action m
    | .error e m => .error e m)

theorem cycle_eq (base : Nat) (m : Machine) :
    cycle base m =
      match (attempt base m).2 with
      | .ok v m' => .ok v m'
      | .error e m₁ =>
        match handleFailure base (attempt base m).1 e m₁ with
        | .ok _ m' => .ok none m'
        | .error e m' => .error e m' := rfl

theorem handleFailure_eq (base : Nat) (opcode : Option UInt8) (e : Error) (m : Machine) :
    handleFailure base opcode e m =
      if e.hasContext then .error e (m.truncate base)
      else
        match World.exceptionFor e m.world with
        | .error e' w => .error e' { m with world := w }
        | .ok (some exception) w => unwind base exception { m with world := w }
        | .ok none w =>
          .error (e.inContext opcode (locations { m with world := w }))
            (truncate base { m with world := w }) := by
  obtain ⟨world, frames, natives, maxCallDepth⟩ := m
  unfold handleFailure
  split
  · rfl
  · change EStateM.bind (onWorld (World.exceptionFor e)) _ _ = _
    unfold EStateM.bind onWorld
    dsimp only
    cases World.exceptionFor e world with
    | ok exception w => cases exception <;> rfl
    | error e' w => rfl

theorem cycle_eq_ok_of_attempt {v : Option Value} (ha : (attempt base m).2 = .ok v m') :
    cycle base m = .ok v m' := by
  rw [cycle_eq, ha]

theorem endState_cycle {e : Error} (ha : (attempt base m).2 = .error e m₁) :
    endState (cycle base m) = endState (handleFailure base (attempt base m).1 e m₁) := by
  rw [cycle_eq, ha]
  dsimp only
  cases handleFailure base (attempt base m).1 e m₁ <;> rfl

/-- An initializer that is asked for gets its frame, together with the mark on its class, or
nothing changes. -/
theorem attempt_prepare {opcode : Option UInt8} {g : Frame} (base : Nat)
    (asked : step m = (opcode, .ok (.prepare g) m₁)) :
    (∃ e, (attempt base m).2 = .error e m₁) ∨
      (attempt base m).2 = .ok none { m₁ with
        world := m₁.world.markInitialized g.owner
        frames := g :: m₁.frames } := by
  unfold attempt
  rw [asked]
  change (∃ e, EStateM.bind (pushFrame g) _ m₁ = _) ∨ EStateM.bind (pushFrame g) _ m₁ = _
  unfold EStateM.bind
  rcases pushFrame_eq g m₁ with ⟨e, refused⟩ | pushed
  · rw [refused]
    exact .inl ⟨e, rfl⟩
  · rw [pushed]
    exact .inr rfl

section Cycles

variable {R : World → World → Prop} [IsPreorder World R] (hR : World.Tolerated R)
include hR

theorem step_retreats (hn : m.natives.Respects R) (h : base < m.depth) :
    m.Retreats base R (endState (step m).2) ∧ (endState (step m).2).depth = m.depth := by
  obtain ⟨f, callers, hm, hb⟩ := exists_executing h
  obtain ⟨f', w, stepped, same, kept⟩ := step_keeps Frame.tolerated_samePlace hR hn hm
  rw [stepped, depth_eq hm]
  refine ⟨⟨?_, kept, rfl, rfl⟩, rfl⟩
  rw [hm]
  exact .replace same.sameMethod hb

/-- An instruction and its request move the machine on, if the relation allows for what an
initializer marks. -/
theorem attempt_runs (hn : m.natives.Respects R) (h : base < m.depth)
    (marks : ∀ opcode f m₁, step m = (opcode, .ok (.prepare f) m₁) →
      R m₁.world (m₁.world.markInitialized f.owner)) :
    m.Runs base R (attempt base m).2 := by
  obtain ⟨replaced, level⟩ := step_retreats hR hn h
  have above := h
  rw [← level] at above
  unfold attempt
  rcases hs : step m with ⟨opcode, outcome⟩
  rw [hs] at replaced level above
  cases outcome with
  | error e m₁ => exact ⟨replaced, .inl above⟩
  | ok action m₁ =>
    have runs := perform_runs hR action above fun g asked => marks opcode g m₁ (by rw [hs, asked])
    dsimp only [endState_ok] at replaced runs ⊢
    cases hp : perform base action m₁ with
    | ok v m' =>
      rw [hp] at runs
      exact ⟨.after replaced.frames level runs.frames, trans_of R replaced.world runs.world,
        runs.natives.trans replaced.natives, runs.maxCallDepth.trans replaced.maxCallDepth⟩
    | error e m' =>
      rw [hp] at runs
      exact ⟨replaced.trans runs.retreats, runs.above⟩

theorem attempt_relates (hn : m.natives.Respects R) (h : base < m.depth)
    (marks : ∀ opcode f m₁, step m = (opcode, .ok (.prepare f) m₁) →
      R m₁.world (m₁.world.markInitialized f.owner)) :
    (endState (attempt base m).2).natives = m.natives ∧
      R m.world (endState (attempt base m).2).world := by
  have runs := attempt_runs hR hn h marks
  cases ha : (attempt base m).2 with
  | ok v m' =>
    rw [ha] at runs
    exact ⟨runs.natives, runs.world⟩
  | error e m' =>
    rw [ha] at runs
    exact ⟨runs.retreats.natives, runs.retreats.world⟩

omit hR in
theorem truncate_retreats (hle : base ≤ m.depth) : m.Retreats base R (m.truncate base) := by
  refine ⟨?_, refl_of R _, rfl, rfl⟩
  have bottom : (m.frames.drop (m.depth - base)).length = base := by
    have := m.depth_truncate base
    unfold depth truncate at this
    rw [this]
    exact Nat.min_eq_left hle
  have h := Retreat.clear (m.frames.take (m.depth - base)) bottom
  rwa [List.take_append_drop] at h

omit hR in
theorem handleFailure_retreats (hR : World.ToleratesAllocation R) (opcode : Option UInt8)
    {e : Error} (hle : base ≤ m.depth)
    (above : base < m.depth ∨ e.hasContext = true) :
    m.Retreats base R (endState (handleFailure base opcode e m)) := by
  rw [handleFailure_eq]
  split
  · exact truncate_retreats hle
  · rename_i context
    have h : base < m.depth := above.resolve_right context
    have kept := World.keeps_exceptionFor hR e m.world
    have refl := Retreats.refl (R := R) h
    cases hx : World.exceptionFor e m.world with
    | error e' w =>
      rw [hx] at kept
      exact ⟨refl.frames, kept, rfl, rfl⟩
    | ok exception w =>
      rw [hx] at kept
      have entered : m.Retreats base R { m with world := w } := ⟨refl.frames, kept, rfl, rfl⟩
      cases exception with
      | none => exact entered.trans (truncate_retreats hle)
      | some exception =>
        exact entered.trans (unwind_cases (m := { m with world := w }) hR.loading exception h).1

theorem Fails.handled {e : Error} (h : m.Fails base R e m₁) (opcode : Option UInt8) :
    m.Retreats base R (endState (handleFailure base opcode e m₁)) := by
  have hle : base ≤ m₁.depth := (Shift.retreat h.retreats.frames).base_le
  exact h.retreats.trans (handleFailure_retreats hR.allocation opcode hle h.above)

/-- Every cycle moves the machine on, also one that ends the run. -/
theorem cycle_moves (hn : m.natives.Respects R) (h : base < m.depth)
    (marks : ∀ opcode f m₁, step m = (opcode, .ok (.prepare f) m₁) →
      R m₁.world (m₁.world.markInitialized f.owner)) :
    m.Moves base R (endState (cycle base m)) := by
  have runs := attempt_runs hR hn h marks
  cases ha : (attempt base m).2 with
  | ok v m' =>
    rw [ha] at runs
    rw [cycle_eq, ha]
    exact runs
  | error e m₁ =>
    rw [ha] at runs
    rw [endState_cycle ha]
    exact (runs.handled hR (attempt base m).1).moves

end Cycles

/-! ### What a cycle without failure has done -/

theorem pushFrame_eq_ok {f : Frame} (h : pushFrame f m = .ok () m') :
    m' = { m with frames := f :: m.frames } := by
  unfold pushFrame at h
  split at h <;> cases h
  rfl

def Performs (base : Nat) (m : Machine) (v : Option Value) (m' : Machine) : Action → Prop
  | .proceed => v = none ∧ m' = m.proceed
  | .call callee => v = none ∧ m' = { m with frames := callee :: m.frames }
  | .prepare f => v = none ∧
      m' = { m with world := m.world.markInitialized f.owner, frames := f :: m.frames }
  | .leave result => leave base result m = .ok v m'
  | .raise exception => v = none ∧ unwind base exception m = .ok () m'

theorem performs_of_eq_ok {action : Action} {v : Option Value}
    (h : perform base action m = .ok v m') : Performs base m v m' action := by
  cases action with
  | proceed =>
    cases h
    exact ⟨rfl, rfl⟩
  | call callee =>
    obtain ⟨_, m₁, pushed, h⟩ := bind_eq_ok.1 h
    cases h
    exact ⟨rfl, pushFrame_eq_ok pushed⟩
  | prepare f =>
    obtain ⟨_, m₁, pushed, h⟩ := bind_eq_ok.1 h
    obtain ⟨_, m₂, ⟨⟩, h⟩ := bind_eq_ok.1 h
    cases h
    cases pushFrame_eq_ok pushed
    exact ⟨rfl, rfl⟩
  | leave result => exact h
  | raise exception =>
    obtain ⟨_, m₁, unwound, h⟩ := bind_eq_ok.1 h
    cases h
    exact ⟨rfl, unwound⟩

/-- A cycle that does not end the run has carried out a request, or has handed the exception for a
failure to a handler above the base. -/
theorem cycle_eq_ok {v : Option Value} (h : base < m.depth) (hc : cycle base m = .ok v m') :
    (∃ opcode action m₁, step m = (opcode, .ok action m₁) ∧ Performs base m₁ v m' action) ∨
    (v = none ∧ m.Retreats base World.Any m' ∧ base < m'.depth) := by
  have runs := attempt_runs World.tolerated_any m.natives.respects_any h fun _ _ _ _ => trivial
  rw [cycle_eq] at hc
  cases ha : (attempt base m).2 with
  | ok v₁ m₁ =>
    simp only [ha] at hc
    cases hc
    left
    unfold attempt at ha
    rcases hs : step m with ⟨opcode, outcome⟩
    rw [hs] at ha
    cases outcome with
    | ok action m₁ => exact ⟨opcode, action, m₁, rfl, performs_of_eq_ok ha⟩
    | error e m₁ => cases ha
  | error e m₁ =>
    simp only [ha] at hc runs
    right
    cases hf : handleFailure base (attempt base m).1 e m₁ with
    | error e' m₂ => simp [hf] at hc
    | ok _ m₂ =>
      simp only [hf] at hc
      cases hc
      have retreats := runs.handled World.tolerated_any (attempt base m).1
      rw [hf] at retreats
      refine ⟨rfl, retreats, ?_⟩
      rw [handleFailure_eq] at hf
      split at hf
      · cases hf
      · rename_i context
        have above : base < m₁.depth := runs.above.resolve_right context
        split at hf
        · cases hf
        · rename_i exception w _
          have ways := (unwind_cases (m := { m₁ with world := w }) World.tolerated_any.loading
            exception above).2
          rw [hf] at ways
          exact ways
        · cases hf

theorem cycle_error_retreats {e : Error} (h : base < m.depth) (hc : cycle base m = .error e m') :
    m.Retreats base World.Any m' := by
  have runs := attempt_runs World.tolerated_any m.natives.respects_any h fun _ _ _ _ => trivial
  have ended : m' = endState (cycle base m) := by rw [hc, endState_error]
  cases ha : (attempt base m).2 with
  | ok v₁ m₁ =>
    rw [cycle_eq, ha] at hc
    cases hc
  | error e₁ m₁ =>
    rw [ha] at runs
    rw [ended, endState_cycle ha]
    exact runs.handled World.tolerated_any (attempt base m).1

/-! ### Runs -/

/-- One cycle of a run above `base` frames that does not end it. -/
def Next (base : Nat) (m m' : Machine) : Prop := base < m.depth ∧ ∃ v, cycle base m = .ok v m'

/-- A run above `base` frames gets from one machine to the other. -/
abbrev Reaches (base : Nat) : Machine → Machine → Prop := Relation.ReflTransGen (Next base)

theorem Next.shift (h : Next base m m') : Shift base m.frames m'.frames := by
  obtain ⟨above, v, hc⟩ := h
  have moves := cycle_moves World.tolerated_any m.natives.respects_any above
    fun _ _ _ _ => trivial
  rw [hc] at moves
  exact moves.frames

theorem Reaches.suffix_of_le {lower : List Frame} (h : Reaches base m m')
    (hl : lower <:+ m.frames) (hle : lower.length ≤ base) : lower <:+ m'.frames := by
  induction h with
  | refl => exact hl
  | tail _ next ih => exact next.shift.suffix_of_le ih hle

/-- A run that ends has reached its last cycle: it came down to the base, or failed. -/
theorem reaches_of_runAbove {bound : Nat} {result : Option Value}
    {r : EStateM.Result Error Machine (Option Value)}
    (h : runAbove base bound result m = some r) :
    ∃ m₁, Reaches base m m₁ ∧ ((m₁.depth ≤ base ∧ ∃ v, r = .ok v m₁) ∨
      (base < m₁.depth ∧ ∃ e m', cycle base m₁ = .error e m' ∧ r = .error e m')) := by
  induction bound generalizing result m with
  | zero => cases h
  | succ bound ih =>
    unfold runAbove at h
    split at h
    · rename_i low
      cases h
      exact ⟨m, .refl, .inl ⟨low, result, rfl⟩⟩
    · rename_i high
      have above : base < m.depth := Nat.not_le.1 high
      cases hc : cycle base m with
      | error e m' =>
        rw [hc] at h
        cases h
        exact ⟨m, .refl, .inr ⟨above, e, m', hc, rfl⟩⟩
      | ok v m₂ =>
        rw [hc] at h
        obtain ⟨m₁, reached, ended⟩ := ih h
        exact ⟨m₁, .head ⟨above, v, hc⟩ reached, ended⟩

/-- A run that ends does so through every machine it reaches. -/
theorem runAbove_of_reaches {bound : Nat} {result : Option Value}
    {r : EStateM.Result Error Machine (Option Value)}
    (h : runAbove base bound result m = some r) (reached : Reaches base m m₁) :
    ∃ bound' result', runAbove base bound' result' m₁ = some r := by
  induction reached with
  | refl => exact ⟨bound, result, h⟩
  | tail _ next ih =>
    obtain ⟨bound', result', h'⟩ := ih
    obtain ⟨above, v, hc⟩ := next
    cases bound' with
    | zero => cases h'
    | succ bound' =>
      unfold runAbove at h'
      rw [if_neg (Nat.not_le.2 above), hc] at h'
      exact ⟨bound', v, h'⟩

theorem runAbove_mono {bound bound' : Nat} {result : Option Value}
    {r : EStateM.Result Error Machine (Option Value)}
    (h : runAbove base bound result m = some r) (hle : bound ≤ bound') :
    runAbove base bound' result m = some r := by
  induction bound generalizing bound' result m with
  | zero => cases h
  | succ bound ih =>
    cases bound' with
    | zero => exact absurd hle (Nat.not_succ_le_zero bound)
    | succ bound' =>
      unfold runAbove at h ⊢
      split at h
      · rename_i low
        rwa [if_pos low]
      · rename_i high
        rw [if_neg high]
        cases hc : cycle base m with
        | error e m' =>
          rw [hc] at h
          exact h
        | ok v m' =>
          rw [hc] at h
          exact ih h (Nat.le_of_succ_le_succ hle)

/-! ### Entering methods -/

theorem enter_eq (c : ClassId) (method : Method) (arguments : List Value) (m : Machine) :
    (∃ e, enter c method arguments m = .error e m) ∨
      ∃ f, f.Begins c method ∧
        enter c method arguments m = .ok () { m with frames := f :: m.frames } := by
  have entered : enter c method arguments m =
      (ofExcept (Frame.ofArguments m.world.classes c method arguments) >>= pushFrame) m := rfl
  rw [entered]
  cases hf : Frame.ofArguments m.world.classes c method arguments with
  | error e => exact .inl ⟨e, rfl⟩
  | ok f =>
    rcases pushFrame_eq f m with ⟨e, pushed⟩ | pushed
    · exact .inl ⟨e, pushed⟩
    · exact .inr ⟨f, Frame.begins_of_ofArguments hf, pushed⟩

theorem enterInitializer_eq (c : ClassId) (initializer : Method) (m : Machine) :
    (∃ e, enterInitializer c initializer m = .error e m) ∨
      ∃ f, f.Begins c initializer ∧ enterInitializer c initializer m =
        .ok () { m with world := m.world.markInitialized c, frames := f :: m.frames } := by
  have entered : enterInitializer c initializer m =
      EStateM.bind (enter c initializer [])
        (fun _ => modify fun m => { m with world := m.world.markInitialized c }) m := rfl
  rw [entered]
  unfold EStateM.bind
  rcases enter_eq c initializer [] m with ⟨e, he⟩ | ⟨f, begins, he⟩
  · rw [he]
    exact .inl ⟨e, rfl⟩
  · rw [he]
    exact .inr ⟨f, begins, rfl⟩

end Machine

end JavaMachine
