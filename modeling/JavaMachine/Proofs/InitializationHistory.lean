import JavaMachine.Proofs.Growth
import JavaMachine.Proofs.Invocations
import Mathlib.Data.List.Nodup

/-!
# How often initializers are started

An instruction that needs a class looks at what is initialized whenever it is executed. An
invocation from outside lists the pending classes once, and then runs their initializers one after
the other; an initializer among the first of them may have had a later one started by then. The
log of all initializers that were started, in their order, tells the two apart, and says that an
initializer is started twice exactly if an invocation comes to a class that is initialized already.
-/
namespace JavaMachine

inductive Start
  /-- An instruction asked for it. -/
  | demanded (c : ClassId)
  /-- An invocation from outside came to its class, which was initialized or not before. -/
  | entered (c : ClassId) (again : Bool)
  deriving DecidableEq

def Start.owner : Start → ClassId
  | demanded c | entered c _ => c

/-- A call from outside, with the call stack that it is made on. -/
structure Invocation where
  callers : List Frame
  owner : ClassId
  method : Method
  arguments : List Value

namespace Machine

variable {base bound : Nat} {m m' m₁ : Machine} {log : List Start}

/-- The initializer that a change of the machine has put on top of the frames. -/
def startsBetween (m m' : Machine) : List Start :=
  match m'.frames with
  | [] => []
  | f :: _ =>
    if m.depth < m'.depth ∧ f.method.signature = .initializer then [.demanded f.owner] else []

def runStarts (base : Nat) : Nat → Machine → List Start
  | 0, _ => []
  | bound + 1, m =>
    if m.depth ≤ base then []
    else
      match cycle base m with
      | .ok _ m' => startsBetween m m' ++ runStarts base bound m'
      | .error _ m' => startsBetween m m'

/-- The initializers started on the way through classes that are initialized from outside. -/
def initializationStarts (bound : Nat) : List ClassId → Machine → List Start
  | [], _ => []
  | c :: rest, m =>
    match m.world.classes.declared? .initializer c with
    | none => initializationStarts bound rest { m with world := m.world.markInitialized c }
    | some initializer =>
      match enterInitializer c initializer m with
      | .error _ _ => []
      | .ok _ entered =>
        .entered c (m.world.isInitialized c) :: runStarts m.depth bound entered ++
          match runAbove m.depth bound none entered with
          | some (.ok _ m') => initializationStarts bound rest m'
          | _ => []

/-- The initializers started while a method runs that is called from outside. -/
def methodStarts (bound : Nat) (c : ClassId) (method : Method) (arguments : List Value)
    (m : Machine) : List Start :=
  if m.world.classes.isBridged c method then []
  else
    match enter c method arguments m with
    | .error _ _ => []
    | .ok _ entered => startsBetween m entered ++ runStarts m.depth bound entered

def invocationStarts (bound : Nat) (i : Invocation) (m : Machine) : List Start :=
  let pending := m.world.uninitialized i.owner
  initializationStarts bound pending m ++
    match initializeAll bound pending m with
    | some (.ok _ m') => methodStarts bound i.owner i.method i.arguments m'
    | _ => []

/-- The initializers started by calls from outside, one after the other, whatever each comes to.
Nothing follows a call that does not end. -/
def historyStarts (bound : Nat) : List Invocation → Machine → List Start
  | [], _ => []
  | i :: rest, m =>
    let m := { m with frames := i.callers }
    invocationStarts bound i m ++
      match invoke bound i.owner i.method i.arguments m with
      | some r => historyStarts bound rest (endState r)
      | none => []

/-! ### What the log says about the world -/

/-- The log of the initializers started so far fits the world. -/
structure Accounts (log : List Start) (w : World) : Prop where
  unnamed : w.Unnamed
  begun : ∀ c ∈ log.map Start.owner, w.isInitialized c = true
  listed : ∀ c initializer, w.isInitialized c = true →
    w.classes.declared? .initializer c = some initializer → c ∈ log.map Start.owner
  once : (log.map Start.owner).Nodup ↔ ∀ c, .entered c true ∉ log

theorem mem_owners_append {log : List Start} {s : Start} {c : ClassId} :
    c ∈ (log ++ [s]).map Start.owner ↔ c ∈ log.map Start.owner ∨ c = s.owner := by
  simp only [List.map_append, List.map_cons, List.map_nil, List.mem_append, List.mem_singleton]

theorem nodup_owners_append (log : List Start) (s : Start) :
    ((log ++ [s]).map Start.owner).Nodup ↔
      s.owner ∉ log.map Start.owner ∧ (log.map Start.owner).Nodup := by
  rw [List.map_append, List.nodup_append_comm]
  exact List.nodup_cons

namespace Accounts

variable {w w' : World} {c : ClassId}

theorem grows (h : Accounts log w) (growth : w.Grows w') : Accounts log w' where
  unnamed := h.unnamed.grows growth
  begun c started := growth.kept c (h.begun c started)
  listed c initializer begun declared := by
    rw [growth.declared] at declared
    rcases growth.marked c begun with before | none
    · exact h.listed c initializer before declared
    · rw [declared] at none
      cases none
  once := h.once

theorem start (h : Accounts log w) {s : Start}
    (once : ((log ++ [s]).map Start.owner).Nodup ↔ ∀ c, .entered c true ∉ log ++ [s]) :
    Accounts (log ++ [s]) (w.markInitialized s.owner) where
  unnamed := h.unnamed.markInitialized s.owner
  begun k started := by
    rw [World.isInitialized_markInitialized]
    rcases mem_owners_append.1 started with before | now
    · exact .inr (h.begun k before)
    · exact .inl now
  listed k initializer begun declared := by
    rw [World.classes_markInitialized] at declared
    rw [mem_owners_append]
    rcases World.isInitialized_markInitialized.1 begun with now | before
    · exact .inr now
    · exact .inl (h.listed k initializer before declared)
  once := once

theorem unlisted (h : Accounts log w) (fresh : w.isInitialized c = false) :
    c ∉ log.map Start.owner := by
  intro listed
  rw [h.begun c listed] at fresh
  cases fresh

theorem demanded (h : Accounts log w) (fresh : w.isInitialized c = false) :
    Accounts (log ++ [.demanded c]) (w.markInitialized c) := by
  have unlisted := h.unlisted fresh
  apply h.start (s := .demanded c)
  rw [nodup_owners_append]
  simp [unlisted, Start.owner, h.once]

theorem entered (h : Accounts log w) {initializer : Method}
    (declared : w.classes.declared? .initializer c = some initializer) :
    Accounts (log ++ [.entered c (w.isInitialized c)]) (w.markInitialized c) := by
  apply h.start (s := .entered c (w.isInitialized c))
  rw [nodup_owners_append]
  cases begun : w.isInitialized c with
  | false =>
    have unlisted := h.unlisted begun
    simp [unlisted, Start.owner, h.once]
  | true =>
    have listed := h.listed c initializer begun declared
    constructor
    · intro unlisted
      exact absurd listed unlisted.1
    · intro never
      exact absurd (List.mem_append_right log (List.mem_singleton_self _)) (never c)

end Accounts

/-! ### Cycles -/

theorem startsBetween_of_le (h : m'.depth ≤ m.depth) : startsBetween m m' = [] := by
  unfold startsBetween
  split
  · rfl
  · exact if_neg fun higher => absurd higher.1 (Nat.not_lt.2 h)

theorem startsBetween_of_ne {f : Frame} {callers : List Frame} (hm : m'.frames = f :: callers)
    (other : f.method.signature ≠ .initializer) : startsBetween m m' = [] := by
  unfold startsBetween
  rw [hm]
  exact if_neg fun started => other started.2

theorem startsBetween_of_initializer {f : Frame} {callers : List Frame}
    (hm : m'.frames = f :: callers) (higher : m.depth < m'.depth)
    (initializer : f.method.signature = .initializer) :
    startsBetween m m' = [.demanded f.owner] := by
  unfold startsBetween
  rw [hm]
  exact if_pos ⟨higher, initializer⟩

/-- A cycle whose instruction asks for no initializer starts none. -/
theorem startsBetween_eq_nil (unnamed : m.world.Unnamed) (h : base < m.depth)
    (unasked : ∀ opcode f m₁, step m ≠ (opcode, .ok (.prepare f) m₁)) :
    startsBetween m (endState (cycle base m)) = [] := by
  obtain ⟨f, callers, hm⟩ := List.exists_cons_of_length_pos (Nat.zero_lt_of_lt h)
  cases hc : cycle base m with
  | error e m' => exact startsBetween_of_le (cycle_error_retreats h hc).frames.length_le
  | ok v m' =>
    rcases cycle_eq_ok h hc with ⟨opcode, action, m₁, hs, performs⟩ | ⟨-, retreats, -⟩
    · obtain ⟨byte, i, cursor, a, -, fetched, executed, rfl⟩ := step_eq_ok hm hs
      have height : (m.withTop callers a).depth = m.depth := by
        simp [depth, withTop, hm]
      have above : base < (m.withTop callers a).depth := by
        rw [height]
        exact h
      have asks := Instruction.asks_execute executed
      cases action with
      | proceed =>
        obtain ⟨-, rfl⟩ := performs
        have retreats := proceed_retreats (R := World.Any) above
        exact startsBetween_of_le (height ▸ retreats.frames.length_le)
      | call callee =>
        obtain ⟨-, rfl⟩ := performs
        obtain ⟨index, r, read, signature⟩ := asks.named
        apply startsBetween_of_ne rfl
        rw [signature]
        exact ConstantPool.signature_ne_initializer (unnamed f.owner) read
      | prepare g => exact absurd hs (unasked opcode g _)
      | leave result =>
        have retreats := (leave_retreats (R := World.Any) result above).1
        have left : leave base result (m.withTop callers a) = .ok v m' := performs
        rw [left] at retreats
        exact startsBetween_of_le (height ▸ retreats.frames.length_le)
      | raise exception =>
        have retreats := (unwind_cases World.tolerated_any.loading exception above).1
        rw [performs.2] at retreats
        exact startsBetween_of_le (height ▸ retreats.frames.length_le)
    · exact startsBetween_of_le retreats.frames.length_le

/-- A request for an initializer that is due puts it on the log, if there is room for a frame. -/
theorem Accounts.prepare {opcode : Option UInt8} {g : Frame} (acc : Accounts log m.world)
    (respects : m.natives.Respects World.Grows) (h : base < m.depth)
    (hs : step m = (opcode, .ok (.prepare g) m₁)) :
    Accounts (log ++ startsBetween m (endState (Machine.cycle base m)))
      (endState (Machine.cycle base m)).world := by
  obtain ⟨f, callers, hm⟩ := List.exists_cons_of_length_pos (Nat.zero_lt_of_lt h)
  obtain ⟨retreats, level⟩ := step_retreats World.tolerated_grows respects h
  obtain ⟨_, i, cursor, a, -, -, executed, eq⟩ := step_eq_ok hm hs
  have prepares : Execution.Prepares _ g a := Instruction.asks_execute executed
  rw [hs] at retreats level
  have acc₁ : Accounts log m₁.world := acc.grows retreats.world
  have world : a.world = m₁.world := by rw [eq]; rfl
  rcases attempt_prepare base hs with ⟨e, failed⟩ | placed
  · have fails : m.Fails base World.Grows e m₁ := ⟨retreats, .inl (level ▸ h)⟩
    have handled := fails.handled World.tolerated_grows (attempt base m).1
    rw [endState_cycle failed, startsBetween_of_le handled.frames.length_le, List.append_nil]
    exact acc.grows handled.world
  · have done := cycle_eq_ok_of_attempt placed
    have initializer : g.method.signature = .initializer :=
      ClassTable.signature_of_declared? prepares.declared
    have due : m₁.world.isInitialized g.owner = false := world ▸ prepares.fresh
    rw [done, endState_ok, startsBetween_of_initializer rfl _ initializer]
    · exact acc₁.demanded due
    · exact Nat.lt_succ_of_le (Nat.le_of_eq level.symm)

theorem Accounts.cycle (acc : Accounts log m.world) (respects : m.natives.Respects World.Grows)
    (h : base < m.depth) :
    Accounts (log ++ startsBetween m (endState (Machine.cycle base m)))
      (endState (Machine.cycle base m)).world := by
  by_cases asked : ∃ opcode g m₁, step m = (opcode, .ok (.prepare g) m₁)
  · obtain ⟨opcode, g, m₁, hs⟩ := asked
    exact acc.prepare respects h hs
  · have unasked : ∀ opcode g m₁, step m ≠ (opcode, .ok (.prepare g) m₁) := by
      intro opcode g m₁ hs
      exact asked ⟨opcode, g, m₁, hs⟩
    have moves := cycle_moves World.tolerated_grows respects h
      fun opcode g m₁ hs => absurd hs (unasked opcode g m₁)
    rw [startsBetween_eq_nil acc.unnamed h unasked, List.append_nil]
    exact acc.grows moves.world

/-! ### Runs and calls from outside -/

/-- The log fits what an outcome leaves, with the native methods of before. -/
def Logs {α : Type} (natives : NativeRegistry) (log : List Start) : Outcome α → Prop
  | none => ∃ w, Accounts log w
  | some r => Accounts log (endState r).world ∧ (endState r).natives = natives

theorem runAbove_logs (base bound : Nat) (acc : Accounts log m.world)
    (respects : m.natives.Respects World.Grows) (result : Option Value) :
    Logs m.natives (log ++ runStarts base bound m) (runAbove base bound result m) := by
  induction bound generalizing log m result with
  | zero =>
    rw [runStarts, List.append_nil]
    exact ⟨m.world, acc⟩
  | succ bound ih =>
    unfold runStarts runAbove
    split
    · rw [List.append_nil]
      exact ⟨acc, rfl⟩
    · rename_i high
      have above : base < m.depth := Nat.not_le.1 high
      have next := acc.cycle respects above
      have moves := cycle_moves World.tolerated_any m.natives.respects_any above
        fun _ _ _ _ => trivial
      cases hc : Machine.cycle base m with
      | error e m' =>
        rw [hc] at next moves
        exact ⟨next, moves.natives⟩
      | ok v m' =>
        rw [hc] at next moves
        have same : m'.natives = m.natives := moves.natives
        rw [← same] at respects ⊢
        rw [← List.append_assoc]
        exact ih next respects v

theorem initializeAll_logs (bound : Nat) (pending : List ClassId) (acc : Accounts log m.world)
    (respects : m.natives.Respects World.Grows) :
    Logs m.natives (log ++ initializationStarts bound pending m)
      (initializeAll bound pending m) := by
  induction pending generalizing log m with
  | nil =>
    rw [initializationStarts, List.append_nil]
    exact ⟨acc, rfl⟩
  | cons c rest ih =>
    unfold initializationStarts initializeAll
    cases declared : m.world.classes.declared? .initializer c with
    | none =>
      have marked := acc.grows (World.grows_markInitialized declared)
      exact ih (m := { m with world := m.world.markInitialized c }) marked respects
    | some initializer =>
      dsimp only
      rcases enterInitializer_eq c initializer m with ⟨e, refused⟩ | ⟨f, -, entered⟩
      · rw [refused, List.append_nil]
        exact ⟨acc, rfl⟩
      · rw [entered]
        have started := acc.entered declared
        have ran := runAbove_logs m.depth bound
          (m := { m with world := m.world.markInitialized c, frames := f :: m.frames })
          started respects none
        rw [List.append_assoc, List.singleton_append] at ran
        dsimp only [Outcome.andThen]
        cases hr : runAbove m.depth bound none
            { m with world := m.world.markInitialized c, frames := f :: m.frames } with
        | none =>
          rw [hr] at ran
          rw [List.append_nil]
          exact ran
        | some r =>
          rw [hr] at ran
          cases r with
          | error e m' =>
            rw [List.append_nil]
            exact ran
          | ok v m' =>
            obtain ⟨acc', same⟩ := ran
            change m'.natives = m.natives at same
            have later := ih (m := m') acc' (same ▸ respects)
            rw [same, List.append_assoc] at later
            exact later

theorem methodStarts_logs {c : ClassId} {method : Method} (arguments : List Value)
    (acc : Accounts log m.world) (respects : m.natives.Respects World.Grows)
    (bytecode : m.world.classes.isBridged c method = false)
    (other : method.signature ≠ .initializer) :
    Logs m.natives (log ++ methodStarts bound c method arguments m)
      (Outcome.andThen (some (enter c method arguments m)) fun _ entered =>
        runAbove m.depth bound none entered) := by
  unfold methodStarts
  rw [if_neg (by simp [bytecode])]
  rcases enter_eq c method arguments m with ⟨e, refused⟩ | ⟨f, begins, entered⟩
  · rw [refused, List.append_nil]
    exact ⟨acc, rfl⟩
  · have silent : startsBetween m { m with frames := f :: m.frames } = [] := by
      apply startsBetween_of_ne rfl
      rw [begins.method]
      exact other
    rw [entered]
    dsimp only [Outcome.andThen]
    rw [silent, List.nil_append]
    exact runAbove_logs m.depth bound (m := { m with frames := f :: m.frames }) acc respects none

theorem invoke_logs (bound : Nat) (i : Invocation) (acc : Accounts log m.world)
    (respects : m.natives.Respects World.Grows) (other : i.method.signature ≠ .initializer) :
    Logs m.natives (log ++ invocationStarts bound i m)
      (invoke bound i.owner i.method i.arguments m) := by
  have initialized := initializeAll_logs bound (m.world.uninitialized i.owner) acc respects
  unfold invocationStarts invoke
  dsimp only
  cases hi : initializeAll bound (m.world.uninitialized i.owner) m with
  | none =>
    rw [hi] at initialized
    rw [List.append_nil]
    exact initialized
  | some r =>
    rw [hi] at initialized
    cases r with
    | error e m' =>
      rw [List.append_nil]
      exact initialized
    | ok _ m' =>
      obtain ⟨acc', same⟩ := initialized
      change Accounts _ m'.world at acc'
      change m'.natives = m.natives at same
      rw [← same] at respects ⊢
      rw [← List.append_assoc]
      dsimp only [Outcome.andThen]
      cases hb : m'.world.classes.isBridged i.owner i.method with
      | true =>
        have called := callNative_eq i.owner i.method i.arguments m'
        have growth := NativeCall.keeps_run World.tolerated_grows respects m'.frames i.owner
          i.method i.arguments m'.world
        unfold methodStarts
        rw [if_pos hb, if_pos rfl, List.append_nil]
        refine ⟨?_, by rw [called]⟩
        rw [called]
        exact acc'.grows growth
      | false => exact methodStarts_logs i.arguments acc' respects hb other

/-- Whatever calls from outside come to, the log of the initializers they start fits a world. -/
theorem history_logs (bound : Nat) (calls : List Invocation) (acc : Accounts log m.world)
    (respects : m.natives.Respects World.Grows)
    (others : ∀ i ∈ calls, i.method.signature ≠ .initializer) :
    ∃ w, Accounts (log ++ historyStarts bound calls m) w := by
  induction calls generalizing log m with
  | nil =>
    rw [historyStarts, List.append_nil]
    exact ⟨m.world, acc⟩
  | cons i rest ih =>
    have first := invoke_logs bound (m := { m with frames := i.callers }) i acc respects
      (others i List.mem_cons_self)
    have later : ∀ j ∈ rest, j.method.signature ≠ .initializer := by
      intro j member
      exact others j (List.mem_cons_of_mem i member)
    unfold historyStarts
    dsimp only
    cases hr : invoke bound i.owner i.method i.arguments { m with frames := i.callers } with
    | none =>
      rw [hr] at first
      rw [List.append_nil]
      exact first
    | some r =>
      rw [hr] at first
      obtain ⟨acc', same⟩ := first
      change (endState r).natives = m.natives at same
      rw [← List.append_assoc]
      exact ih acc' (same ▸ respects) later

theorem accounts_of_untouched {w : World} (h : w.Untouched) : Accounts [] w where
  unnamed := h.unnamed
  begun c listed := nomatch listed
  listed c initializer begun declared := by
    rw [h.undeclared c begun] at declared
    cases declared
  once := by simp

/-- Over any calls from outside, each initializer is given a frame at most once, by an instruction
or by one of the calls, exactly if no call comes to a class with an initializer that has been
initialized by then. -/
theorem initializers_started_once_iff (console : Console) (clock : Nat)
    (program : List ClassDefinition) (natives : NativeRegistry) (maxCallDepth bound : Nat)
    (calls : List Invocation) (respects : natives.Respects World.Grows)
    (unnamed : ∀ d ∈ program, d.pool.namesInitializer = false)
    (others : ∀ i ∈ calls, i.method.signature ≠ .initializer) :
    let m := start (World.ofProgram console clock program) natives maxCallDepth
    ((historyStarts bound calls m).map Start.owner).Nodup ↔
      ∀ c, .entered c true ∉ historyStarts bound calls m := by
  intro m
  have untouched := World.untouched_ofProgram console clock program unnamed
  obtain ⟨w, acc⟩ := history_logs bound (m := m) calls (accounts_of_untouched untouched) respects
    others
  exact acc.once

/-! Two classes with initializers, of which the one extends the other. In the second program the
superclass reads the counter that its subclass declares and its initializer increments. -/

def initializing (code : Array UInt8) : MethodSignature × UInt16 × Option MethodBody :=
  (.initializer, Bootstrap.staticFlag, some ⟨2, 0, code, []⟩)

def counter : FieldReference := ⟨.scalar "Sub", "n", .primitive .int⟩

def counted : Method :=
  { owner := .scalar "Sub"
    signature := ⟨"run", [], some (.primitive .int)⟩
    flags := Bootstrap.publicFlag ||| Bootstrap.staticFlag
    body := some ⟨1, 0, #[0xb2, 0x00, 0x01, 0xac], []⟩ }

def countingProgram (base : Array UInt8) : List ClassDefinition :=
  [{ ClassDefinition.ofName (.scalar "Base") with
      superclass := some 0
      pool := .ofList [.field counter]
      methods := [initializing base] },
    { ClassDefinition.ofName counted.owner with
      superclass := some 5
      pool := .ofList [.field counter]
      fields := [⟨counter.name, counter.type, Bootstrap.publicFlag ||| Bootstrap.staticFlag⟩]
      methods := [initializing #[0xb2, 0x00, 0x01, 0x04, 0x60, 0xb3, 0x00, 0x01, 0xb1],
        (counted.signature, counted.flags, counted.body)] }]

def countingMachine (base : Array UInt8) : Machine :=
  start (World.ofProgram .working 0 (countingProgram base)) .standard defaultCallDepth

def idle : Array UInt8 := #[0xb1]

def curious : Array UInt8 := #[0xb2, 0x00, 0x01, 0x57, 0xb1]

theorem countingProgram_unnamed :
    ∀ base ∈ [idle, curious], ∀ d ∈ countingProgram base, d.pool.namesInitializer = false := by
  decide +kernel

set_option maxRecDepth 100000 in
theorem historyStarts_idle :
    historyStarts 30 [⟨[], 6, counted, []⟩] (countingMachine idle) =
      [.entered 5 false, .entered 6 false] := by
  decide +kernel

set_option maxRecDepth 100000 in
theorem historyStarts_curious :
    historyStarts 30 [⟨[], 6, counted, []⟩] (countingMachine curious) =
      [.entered 5 false, .demanded 6, .entered 6 true] := by
  decide +kernel

theorem counted_isOther : ∀ i ∈ [Invocation.mk [] 6 counted []],
    i.method.signature ≠ .initializer := by
  decide

theorem initializers_started_once_idle :
    ((historyStarts 30 [⟨[], 6, counted, []⟩] (countingMachine idle)).map Start.owner).Nodup := by
  have iff := initializers_started_once_iff .working 0 (countingProgram idle) .standard
    defaultCallDepth 30 [⟨[], 6, counted, []⟩]
    (NativeRegistry.respects_standard World.tolerated_grows)
    (countingProgram_unnamed idle (by decide)) counted_isOther
  apply iff.2
  change ∀ c, .entered c true ∉ historyStarts 30 _ (countingMachine idle)
  rw [historyStarts_idle]
  simp

/-- An initializer that reads a field of a subclass has the subclass initialized twice. -/
theorem initializer_started_twice :
    ¬ ∀ program bound calls, (∀ d ∈ program, d.pool.namesInitializer = false) →
      (∀ i ∈ calls, i.method.signature ≠ .initializer) →
      ((historyStarts bound calls
        (start (World.ofProgram .working 0 program) .standard defaultCallDepth)).map
          Start.owner).Nodup := by
  intro once
  have nodup := once (countingProgram curious) 30 [⟨[], 6, counted, []⟩]
    (countingProgram_unnamed curious (by decide)) counted_isOther
  change ((historyStarts 30 _ (countingMachine curious)).map Start.owner).Nodup at nodup
  rw [historyStarts_curious] at nodup
  revert nodup
  decide

end Machine

end JavaMachine
