import JavaMachine.Proofs.Invocations

/-!
# Reachable machines

A machine is reached from another one by calls from outside and runs, one after the other, or in
the middle of one: between the cycles of a run and within them, and between the classes that a call
initializes. Every run and every call that ends does so in a machine that is counted here, so what
all the parts of the machine preserve holds whenever one can look.
-/
namespace JavaMachine

namespace Machine

variable {base bound : Nat} {m m' m₁ m₀ : Machine} {c : ClassId} {method : Method}
  {arguments : List Value}

/-- The machines that a run above `base` frames passes through. -/
inductive Passes (base : Nat) (m : Machine) : Machine → Prop
  | between {m' : Machine} (h : Reaches base m m') : Passes base m m'
  /-- An instruction is executed, and nothing of what it asks for is done. -/
  | executed {m₁ : Machine} (h : Reaches base m m₁) (above : base < m₁.depth) :
      Passes base m (endState (step m₁).2)
  /-- An instruction is executed and what it asks for is done, but no failure is handled. -/
  | attempted {m₁ : Machine} (h : Reaches base m m₁) (above : base < m₁.depth) :
      Passes base m (endState (attempt base m₁).2)
  /-- The last cycle of a run may fail. -/
  | ended {m₁ : Machine} (h : Reaches base m m₁) (above : base < m₁.depth) :
      Passes base m (endState (cycle base m₁))

theorem passes_of_runAbove {result : Option Value}
    {r : EStateM.Result Error Machine (Option Value)}
    (h : runAbove base bound result m = some r) : Passes base m (endState r) := by
  obtain ⟨m₁, reached, ended⟩ := reaches_of_runAbove h
  rcases ended with ⟨-, v, rfl⟩ | ⟨above, e, m', hc, rfl⟩
  · exact .between reached
  · have last : endState (cycle base m₁) = m' := by rw [hc, endState_error]
    rw [endState_error, ← last]
    exact .ended reached above

/-- The initialization of the pending classes, begun on a machine, has come to the classes `rest`
on another one. -/
inductive ComesTo (pending : List ClassId) (m : Machine) : List ClassId → Machine → Prop
  | begins : ComesTo pending m pending m
  | marked {c : ClassId} {rest : List ClassId} {m₁ : Machine}
      (h : ComesTo pending m (c :: rest) m₁)
      (undeclared : m₁.world.classes.declared? .initializer c = none) :
      ComesTo pending m rest { m₁ with world := m₁.world.markInitialized c }
  | ran {bound : Nat} {c : ClassId} {rest : List ClassId} {m₁ entered m₂ : Machine}
      {initializer : Method} {v : Option Value} (h : ComesTo pending m (c :: rest) m₁)
      (declared : m₁.world.classes.declared? .initializer c = some initializer)
      (enters : enterInitializer c initializer m₁ = .ok () entered)
      (run : runAbove m₁.depth bound none entered = some (.ok v m₂)) : ComesTo pending m rest m₂

/-- The machines that a call from outside passes through. -/
inductive Meets (m : Machine) (c : ClassId) (method : Method) (arguments : List Value) :
    Machine → Prop
  | initialization {rest : List ClassId} {m₁ : Machine}
      (h : ComesTo (m.world.uninitialized c) m rest m₁) : Meets m c method arguments m₁
  | initializer {k : ClassId} {rest : List ClassId} {m₁ entered m' : Machine}
      {initializer : Method} (h : ComesTo (m.world.uninitialized c) m (k :: rest) m₁)
      (declared : m₁.world.classes.declared? .initializer k = some initializer)
      (enters : enterInitializer k initializer m₁ = .ok () entered)
      (passes : Passes m₁.depth entered m') : Meets m c method arguments m'
  | native {m₁ : Machine} (h : ComesTo (m.world.uninitialized c) m [] m₁)
      (bridged : m₁.world.classes.isBridged c method = true) :
      Meets m c method arguments (endState (callNative c method arguments m₁))
  | method {m₁ entered m' : Machine} (h : ComesTo (m.world.uninitialized c) m [] m₁)
      (unbridged : m₁.world.classes.isBridged c method = false)
      (enters : enter c method arguments m₁ = .ok () entered)
      (passes : Passes m₁.depth entered m') : Meets m c method arguments m'

/-- The rest of an initialization passes through machines of the call, and comes to its end if it
does not fail. -/
theorem meets_of_initialization (method : Method) (arguments : List Value)
    {rest : List ClassId} {r : EStateM.Result Error Machine Unit}
    (h : Initialization bound rest m₁ r) (come : ComesTo (m.world.uninitialized c) m rest m₁) :
    m.Meets c method arguments (endState r) ∧
      ∀ m', r = .ok () m' → ComesTo (m.world.uninitialized c) m [] m' := by
  induction h with
  | done m₁ =>
    refine ⟨.initialization come, ?_⟩
    rintro m' ⟨⟩
    exact come
  | marked undeclared later ih => exact ih (.marked come undeclared)
  | refused declared refused => exact ⟨.initialization come, fun _ h => by cases h⟩
  | failed declared enters run =>
    exact ⟨.initializer come declared enters (passes_of_runAbove run), fun _ h => by cases h⟩
  | ran declared enters run later ih => exact ih (.ran come declared enters run)

theorem meets_of_invoke {r : EStateM.Result Error Machine (Option Value)}
    (h : invoke bound c method arguments m = some r) :
    m.Meets c method arguments (endState r) := by
  rcases invoke_cases h with ⟨e, m', initialized, rfl⟩ | ⟨m₁, initialized, ways⟩
  · exact (meets_of_initialization method arguments (initialization_of_eq initialized) .begins).1
  · have come := (meets_of_initialization method arguments (initialization_of_eq initialized)
      .begins).2 m₁ rfl
    rcases ways with ⟨bridged, rfl⟩ | ⟨unbridged, ⟨e, -, rfl⟩ | ⟨f, -, entered, run⟩⟩
    · exact .native come bridged
    · exact .initialization come
    · exact .method come unbridged entered (passes_of_runAbove run)

/-- The machines that are left between calls and runs. In between, the world may be changed from
outside as the relation allows. -/
inductive Arises (Outside : World → World → Prop) (m₀ : Machine) : Machine → Prop
  | start : Arises Outside m₀ m₀
  | changed {m : Machine} {w : World} (h : Arises Outside m₀ m) (change : Outside m.world w) :
      Arises Outside m₀ { m with world := w }
  | called {m : Machine} {bound : Nat} {c : ClassId} {method : Method} {arguments : List Value}
      {r : EStateM.Result Error Machine (Option Value)} (h : Arises Outside m₀ m)
      (ended : invoke bound c method arguments m = some r) : Arises Outside m₀ (endState r)
  | ran {m : Machine} {bound : Nat} {r : EStateM.Result Error Machine (Option Value)}
      (h : Arises Outside m₀ m) (ended : run bound m = some r) : Arises Outside m₀ (endState r)

/-- The machines that are left between calls and runs, or passed through by one. -/
inductive Reachable (Outside : World → World → Prop) (m₀ : Machine) : Machine → Prop
  | between {m : Machine} (h : Arises Outside m₀ m) : Reachable Outside m₀ m
  | calling {m m' : Machine} {c : ClassId} {method : Method} {arguments : List Value}
      (h : Arises Outside m₀ m) (meets : m.Meets c method arguments m') : Reachable Outside m₀ m'
  | running {m m' : Machine} (h : Arises Outside m₀ m) (passes : Passes 0 m m') :
      Reachable Outside m₀ m'

/-! ### Invariants -/

/-- What every part of the machine preserves, and every change from outside. -/
structure Invariant (Outside : World → World → Prop) (P : Machine → Prop) : Prop where
  changed {m : Machine} {w : World} (h : P m) (change : Outside m.world w) :
    P { m with world := w }
  step {base : Nat} {m : Machine} (h : P m) (above : base < m.depth) :
    P (endState (Machine.step m).2)
  attempt {base : Nat} {m : Machine} (h : P m) (above : base < m.depth) :
    P (endState (Machine.attempt base m).2)
  cycle {base : Nat} {m : Machine} (h : P m) (above : base < m.depth) :
    P (endState (Machine.cycle base m))
  mark {m₀ m : Machine} {c k : ClassId} {rest : List ClassId} (h₀ : P m₀)
    (come : ComesTo (m₀.world.uninitialized c) m₀ (k :: rest) m) (h : P m)
    (undeclared : m.world.classes.declared? .initializer k = none) :
    P { m with world := m.world.markInitialized k }
  prepare {m₀ m entered : Machine} {c k : ClassId} {rest : List ClassId}
    {initializer : Method} (h₀ : P m₀)
    (come : ComesTo (m₀.world.uninitialized c) m₀ (k :: rest) m) (h : P m)
    (declared : m.world.classes.declared? .initializer k = some initializer)
    (enters : enterInitializer k initializer m = .ok () entered) : P entered
  enter {m entered : Machine} {c : ClassId} {method : Method} {arguments : List Value} (h : P m)
    (enters : Machine.enter c method arguments m = .ok () entered) : P entered
  native {m : Machine} (h : P m) (c : ClassId) (method : Method) (arguments : List Value) :
    P (endState (callNative c method arguments m))

namespace Invariant

variable {Outside : World → World → Prop} {P : Machine → Prop} (hP : Invariant Outside P)
include hP

theorem reaches (h : P m) (reached : Reaches base m m') : P m' := by
  induction reached with
  | refl => exact h
  | tail _ next ih =>
    obtain ⟨above, v, hc⟩ := next
    have kept := hP.cycle ih above
    rwa [hc] at kept

theorem passes (h : P m) (passed : Passes base m m') : P m' := by
  cases passed with
  | between reached => exact hP.reaches h reached
  | executed reached above => exact hP.step (hP.reaches h reached) above
  | attempted reached above => exact hP.attempt (hP.reaches h reached) above
  | ended reached above => exact hP.cycle (hP.reaches h reached) above

theorem comesTo {rest : List ClassId} (h : P m)
    (come : ComesTo (m.world.uninitialized c) m rest m') : P m' := by
  induction come with
  | begins => exact h
  | marked come undeclared ih => exact hP.mark h come ih undeclared
  | ran come declared enters run ih =>
    exact hP.passes (hP.prepare h come ih declared enters) (passes_of_runAbove run)

theorem meets (h : P m) (met : m.Meets c method arguments m') : P m' := by
  cases met with
  | initialization come => exact hP.comesTo h come
  | initializer come declared enters passes =>
    exact hP.passes (hP.prepare h come (hP.comesTo h come) declared enters) passes
  | native come _ => exact hP.native (hP.comesTo h come) c method arguments
  | method come _ enters passes => exact hP.passes (hP.enter (hP.comesTo h come) enters) passes

theorem arises (h₀ : P m₀) (h : Arises Outside m₀ m) : P m := by
  induction h with
  | start => exact h₀
  | changed _ change ih => exact hP.changed ih change
  | called _ ended ih => exact hP.meets ih (meets_of_invoke ended)
  | ran _ ended ih => exact hP.passes ih (passes_of_runAbove ended)

/-- What every part preserves holds in every reachable machine. -/
theorem reachable (h₀ : P m₀) (h : Reachable Outside m₀ m) : P m := by
  cases h with
  | between h => exact hP.arises h₀ h
  | calling h meets => exact hP.meets (hP.arises h₀ h) meets
  | running h passes => exact hP.passes (hP.arises h₀ h) passes

end Invariant

/-- The machines that come after a machine, whatever its parts do from there and whatever is changed
from outside. -/
inductive ComesAfter (Outside : World → World → Prop) (m : Machine) : Machine → Prop
  | refl : ComesAfter Outside m m
  | changed {m₁ : Machine} {w : World} (h : ComesAfter Outside m m₁) (change : Outside m₁.world w) :
      ComesAfter Outside m { m₁ with world := w }
  | step {base : Nat} {m₁ : Machine} (h : ComesAfter Outside m m₁) (above : base < m₁.depth) :
      ComesAfter Outside m (endState (Machine.step m₁).2)
  | attempt {base : Nat} {m₁ : Machine} (h : ComesAfter Outside m m₁) (above : base < m₁.depth) :
      ComesAfter Outside m (endState (Machine.attempt base m₁).2)
  | cycle {base : Nat} {m₁ : Machine} (h : ComesAfter Outside m m₁) (above : base < m₁.depth) :
      ComesAfter Outside m (endState (Machine.cycle base m₁))
  | mark {m₁ m₂ : Machine} {c k : ClassId} {rest : List ClassId} (h₁ : ComesAfter Outside m m₁)
      (come : ComesTo (m₁.world.uninitialized c) m₁ (k :: rest) m₂) (h : ComesAfter Outside m m₂)
      (undeclared : m₂.world.classes.declared? .initializer k = none) :
      ComesAfter Outside m { m₂ with world := m₂.world.markInitialized k }
  | prepare {m₁ m₂ entered : Machine} {c k : ClassId} {rest : List ClassId}
      {initializer : Method} (h₁ : ComesAfter Outside m m₁)
      (come : ComesTo (m₁.world.uninitialized c) m₁ (k :: rest) m₂) (h : ComesAfter Outside m m₂)
      (declared : m₂.world.classes.declared? .initializer k = some initializer)
      (enters : enterInitializer k initializer m₂ = .ok () entered) : ComesAfter Outside m entered
  | enter {m₁ entered : Machine} {c : ClassId} {method : Method} {arguments : List Value}
      (h : ComesAfter Outside m m₁)
      (enters : Machine.enter c method arguments m₁ = .ok () entered) : ComesAfter Outside m entered
  | native {m₁ : Machine} (h : ComesAfter Outside m m₁) (c : ClassId) (method : Method)
      (arguments : List Value) : ComesAfter Outside m (endState (callNative c method arguments m₁))

theorem invariant_comesAfter (Outside : World → World → Prop) (m : Machine) :
    Invariant Outside (ComesAfter Outside m) where
  changed := .changed
  step := .step
  attempt := .attempt
  cycle := .cycle
  mark := .mark
  prepare := .prepare
  enter := .enter
  native := .native

/-- Every reachable machine comes after the one it is reached from. -/
theorem Reachable.comesAfter {Outside : World → World → Prop} (h : Reachable Outside m₀ m) :
    ComesAfter Outside m₀ m := (invariant_comesAfter Outside m₀).reachable .refl h

theorem Invariant.comesAfter {Outside : World → World → Prop} {P : Machine → Prop}
    (hP : Invariant Outside P) (h : P m) (after : ComesAfter Outside m m') : P m' := by
  induction after with
  | refl => exact h
  | changed _ change ih => exact hP.changed ih change
  | step _ above ih => exact hP.step ih above
  | attempt _ above ih => exact hP.attempt ih above
  | cycle _ above ih => exact hP.cycle ih above
  | mark _ come _ undeclared ih₁ ih => exact hP.mark ih₁ come ih undeclared
  | prepare _ come _ declared enters ih₁ ih => exact hP.prepare ih₁ come ih declared enters
  | enter _ enters ih => exact hP.enter ih enters
  | native _ c method arguments ih => exact hP.native ih c method arguments

/-- A relation that every operation keeps and that allows for every mark relates the world of the
first machine to that of each reachable one. -/
theorem invariant_of_tolerated {R : World → World → Prop} [IsPreorder World R]
    (hR : World.Tolerated R) (marks : ∀ w c, R w (w.markInitialized c)) {natives : NativeRegistry}
    (respects : natives.Respects R) (w : World) :
    Invariant R fun m => m.natives = natives ∧ R w m.world := by
  constructor
  case changed => exact fun h change => ⟨h.1, trans_of R h.2 change⟩
  case step =>
    rintro base m ⟨rfl, related⟩ above
    have retreats := (step_retreats hR respects above).1
    exact ⟨retreats.natives, trans_of R related retreats.world⟩
  case attempt =>
    rintro base m ⟨rfl, related⟩ above
    obtain ⟨same, attempted⟩ := attempt_relates hR respects above fun _ _ _ _ => marks _ _
    exact ⟨same, trans_of R related attempted⟩
  case cycle =>
    rintro base m ⟨rfl, related⟩ above
    have moves := cycle_moves hR respects above fun _ _ _ _ => marks _ _
    exact ⟨moves.natives, trans_of R related moves.world⟩
  case mark => exact fun _ _ h _ => ⟨h.1, trans_of R h.2 (marks _ _)⟩
  case prepare =>
    intro m₀ m entered c k rest initializer _ _ h _ enters
    obtain ⟨f, -, -, world, same, -⟩ := frames_entered enters
    rw [world, same]
    exact ⟨h.1, trans_of R h.2 (marks _ _)⟩
  case enter =>
    intro m entered c method arguments h enters
    rcases enter_eq c method arguments m with ⟨e, refused⟩ | ⟨f, -, placed⟩
    · rw [refused] at enters
      cases enters
    · rw [placed] at enters
      cases enters
      exact h
  case native =>
    rintro m ⟨rfl, related⟩ c method arguments
    rw [callNative_eq]
    exact ⟨rfl, trans_of R related (NativeCall.keeps_run hR respects _ _ _ _ _)⟩

end Machine

end JavaMachine
