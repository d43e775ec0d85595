import JavaMachine.Proofs.Bracketing
import JavaMachine.Proofs.NeededClasses
import JavaMachine.Proofs.Reachability

/-!
# Instructions that are executed again

An instruction that gives way to an initializer leaves its frame as it found it. When the
initializer returns, the instruction is executed again on the same operands, and each time one
initializer less is to be started. In the end it does what it would have done at once with the class
initialized.
-/
namespace JavaMachine

namespace Machine

variable {base n : Nat} {m m' m₁ : Machine} {f : Frame} {callers : List Frame} {c : ClassId}
  {opcode : UInt8} {i : Instruction} {cursor : Cursor} {rest : Execution Action} {w : World}

/-- The executing instruction asks for an initializer, and this gets its frame. Whatever runs above
the executing frame then, the frame of the initializer is left by a return that gives no value. -/
inductive GivesWay (base : Nat) (m m' : Machine) : Prop
  | intro {opcode opcode' : Option UInt8} {g : Frame} {m₁ m₂ m₃ m₄ : Machine}
      (asked : step m = (opcode, .ok (.prepare g) m₁)) (pushed : Next base m m₂)
      (higher : m.depth < m₂.depth) (runs : ReachesAbove base m.depth m₂ m₃)
      (level : m₃.depth = m.depth + 1) (left : step m₃ = (opcode', .ok (.leave none) m₄))
      (returned : Next base m₃ m')

/-- The executing instruction gives way to a number of initializers, one after the other. -/
inductive GivesWayTimes (base : Nat) : Nat → Machine → Machine → Prop
  | zero (m : Machine) : GivesWayTimes base 0 m m
  | succ {n : Nat} {m m₁ m' : Machine} (first : GivesWay base m m₁)
      (later : GivesWayTimes base n m₁ m') : GivesWayTimes base (n + 1) m m'

/-- The machine is back at the instruction of a frame, on the same operands. Only the world may have
changed, and where the frame is to go on. -/
structure BackAt (m : Machine) (f : Frame) (callers : List Frame) (m' : Machine) : Prop where
  frames : ∃ pc, m'.frames = { f with nextPc := pc } :: callers
  natives : m'.natives = m.natives
  maxCallDepth : m'.maxCallDepth = m.maxCallDepth

/-! ### One initializer -/

theorem Reaches.maxCallDepth_eq (h : Reaches base m m') : m'.maxCallDepth = m.maxCallDepth := by
  induction h with
  | refl => rfl
  | @tail m₁ m₂ _ next ih =>
    obtain ⟨above, v, hc⟩ := next
    have moves := cycle_moves World.tolerated_any m₁.natives.respects_any above
      fun _ _ _ _ => trivial
    rw [hc] at moves
    exact moves.maxCallDepth.trans ih

theorem pushed_of_asked {asking : Option UInt8} {g : Frame} {m₂ : Machine}
    (asked : step m = (asking, .ok (.prepare g) m₁)) (pushed : Next base m m₂)
    (higher : m.depth < m₂.depth) : m₂ = { m₁ with
      world := m₁.world.markInitialized g.owner
      frames := g :: m₁.frames } := by
  obtain ⟨above, v, hc⟩ := pushed
  rcases attempt_prepare base asked with ⟨e, failed⟩ | placed
  · have runs := attempt_runs World.tolerated_any m.natives.respects_any above
      fun _ _ _ _ => trivial
    rw [failed] at runs
    have handled := (runs.handled World.tolerated_any (attempt base m).1).frames.length_le
    rw [← endState_cycle failed, hc] at handled
    exact absurd higher (Nat.not_lt.2 handled)
  · rw [cycle_eq_ok_of_attempt placed] at hc
    cases hc
    rfl

theorem step_of_fetch (hm : m.frames = f :: callers)
    (fetched : Instruction.fetch ⟨f.code, f.pc⟩ = .ok (opcode, i) cursor) :
    step m = (some opcode, m.stepResult callers
      (i.execute m.natives callers ⟨{ f with nextPc := cursor.position }, m.world⟩)) := by
  have decoded : Activation.fetch ⟨f, m.world⟩ =
      .ok (opcode, i, ⟨{ f with nextPc := cursor.position }, m.world⟩) := by
    unfold Activation.fetch
    rw [fetched]
  rcases step_eq hm with ⟨e, failed, -⟩ | ⟨opcode', i', a, decoded', stepped⟩
  · rw [decoded] at failed
    cases failed
  · rw [decoded] at decoded'
    cases decoded'
    exact stepped

theorem stepResult_congr (natives : m'.natives = m.natives)
    (limit : m'.maxCallDepth = m.maxCallDepth) (r : EStateM.Result Error Activation Action) :
    m'.stepResult callers r = m.stepResult callers r := by
  unfold stepResult withTop
  rw [natives, limit]

theorem GivesWay.resumes (h : GivesWay base m m') (hm : m.frames = f :: callers)
    (respects : m.natives.Respects World.KeepsClasses) :
    m.BackAt f callers m' ∧ ∃ asking g m₁, step m = (asking, .ok (.prepare g) m₁) ∧
      (m₁.world.markInitialized g.owner).KeepsClasses m'.world := by
  obtain @⟨asking, leaving, g, m₁, m₂, m₃, m₄, asked, pushed, higher, runs, level, left, returned⟩
    := h
  have hb : base ≤ callers.length := by
    have above := pushed.1
    rw [depth_eq hm] at above
    exact Nat.le_of_lt_succ above
  have placed := pushed_of_asked asked pushed higher
  obtain ⟨_, _, cursor, a, -, -, executed, rfl⟩ := step_eq_ok hm asked
  have caller : a.frame = { f with nextPc := f.pc } := (Instruction.asks_execute executed).caller
  have reached : Reaches base m₂ m' :=
    .tail (runs.lift id fun _ _ next => next.1) returned
  have height : m.depth = (a.frame :: callers).length := depth_eq hm
  rw [height] at runs level
  have frames : m₂.frames = g :: a.frame :: callers := congrArg Machine.frames placed
  obtain ⟨g', h₃, -⟩ := runs.level frames level
  obtain ⟨-, v, hc⟩ := returned
  have returns : cycle base m₃ =
      .ok none { m₄ with frames := { a.frame with pc := a.frame.nextPc } :: callers } :=
    cycle_returns h₃ hb left
  rw [hc, caller] at returns
  cases returns
  have respects₂ : m₂.natives.Respects World.KeepsClasses := by
    rw [placed]
    exact respects
  obtain ⟨natives, world⟩ := (invariant_of_tolerated World.tolerated_keepsClasses
    World.keepsClasses_markInitialized respects₂ m₂.world).reaches ⟨rfl, refl_of _ _⟩ reached
  have limit := reached.maxCallDepth_eq
  rw [placed] at natives world limit
  exact ⟨⟨⟨f.pc, rfl⟩, natives, limit⟩, asking, g, _, asked, world⟩

/-! ### One initializer after the other -/

section Again

variable (respects : m.natives.Respects World.KeepsClasses) (linked : m.world.Linked)
  (hm : m.frames = f :: callers)
  (fetched : Instruction.fetch ⟨f.code, f.pc⟩ = .ok (opcode, i) cursor)
  (needs : i.Needs m.natives callers f.owner m.world c rest w)

section Step

include hm fetched needs

/-- What becomes of an instruction that needs a class initialized. -/
theorem step_needing :
    (∃ k initializer e m₁, k ∈ w.unstarted c ∧
      w.classes.declared? .initializer k = some initializer ∧ initializer.body = none ∧
      step m = (some opcode, .error e m₁)) ∨
    (∃ g m₁, g.owner ∈ w.unstarted c ∧ w.KeepsClasses m₁.world ∧
      step m = (some opcode, .ok (.prepare g) m₁)) ∨
    ∃ w', w.KeepsClasses w' ∧ w.SameContents w' ∧ w'.isInitialized c = true ∧
      step m = (some opcode, m.stepResult callers
        (rest ⟨{ f with nextPc := cursor.position }, w'⟩)) := by
  have stepped := step_of_fetch hm fetched
  rw [Instruction.Needs.execute_eq needs] at stepped
  have kept := w.keepsClasses_nextInitializer c
  have same := World.relates_nextInitializer World.toleratesLoading_sameContents.marks
    (w.due_uninitialized c)
  obtain ⟨w', rfl, ways⟩ :=
    Execution.whenInitialized_cases c rest ⟨{ f with nextPc := cursor.position }, w⟩
  rcases ways with ⟨k, initializer, e, pending, declared, none, h⟩ | ⟨g, pending, h⟩ | ⟨begun, h⟩
  all_goals rw [h] at stepped
  · exact .inl ⟨k, initializer, e, _, pending, declared, none, stepped⟩
  · exact .inr (.inl ⟨g, _, pending, kept, stepped⟩)
  · exact .inr (.inr ⟨_, kept, same, begun, stepped⟩)

theorem step_of_begun (begun : w.isInitialized c = true) : step m = (some opcode,
    m.stepResult callers (rest ⟨{ f with nextPc := cursor.position }, w⟩)) := by
  rw [step_of_fetch hm fetched, Instruction.Needs.execute_eq needs,
    Execution.whenInitialized_of_begun begun]

end Step

include respects linked hm fetched needs

theorem GivesWay.fewer (h : GivesWay base m m₁) :
    w.KeepsClasses m₁.world ∧ (m₁.world.unstarted c).length < (w.unstarted c).length := by
  obtain ⟨-, asking, g, m₀, asked, kept⟩ := h.resumes hm respects
  have marked : m₁.world.isInitialized g.owner = true :=
    kept.begun _ (World.isInitialized_markInitialized_self _ _)
  rcases step_needing hm fetched needs with ⟨k, initializer, e, m₂, -, -, -, stepped⟩ |
    ⟨g', m₂, pending, kept', stepped⟩ | ⟨w', -, -, -, stepped⟩
  all_goals rw [asked] at stepped
  · cases stepped
  · cases stepped
    have all := kept'.trans ((World.keepsClasses_markInitialized _ _).trans kept)
    exact ⟨all, all.length_unstarted_lt (needs.lt_size linked) pending marked⟩
  · cases done : rest ⟨{ f with nextPc := cursor.position }, w'⟩ with
    | ok action a =>
      rw [done] at stepped
      cases stepped
      exact absurd rfl (needs.rest_preparesNothing _ _ _ done g)
    | error e a =>
      rw [done] at stepped
      cases stepped

/-- The instruction is executed again each time it has given way, and still needs the class. -/
theorem GivesWayTimes.resumes (h : GivesWayTimes base n m m') :
    m.BackAt f callers m' ∧ ∃ w', w.KeepsClasses w' ∧
      i.Needs m'.natives callers f.owner m'.world c rest w' ∧ m'.world.Linked ∧
      n + (w'.unstarted c).length ≤ (w.unstarted c).length := by
  induction h generalizing f w with
  | zero m =>
    refine ⟨⟨⟨f.nextPc, hm⟩, rfl, rfl⟩, w, .refl w, needs, linked, ?_⟩
    rw [Nat.zero_add]
  | @succ n m m₁ m' first later ih =>
    obtain ⟨⟨pc, frames⟩, natives, limit⟩ := (first.resumes hm respects).1
    obtain ⟨kept, fewer⟩ := first.fewer respects linked hm fetched needs
    have linked₁ := kept.linked (needs.keepsClasses.linked linked)
    have needs₁ := needs.later linked kept
    rw [← natives] at respects needs₁
    obtain ⟨⟨⟨pc', frames'⟩, natives', limit'⟩, w', kept', needs', linked', bound⟩ :=
      ih respects linked₁ frames fetched needs₁
    refine ⟨⟨⟨pc', frames'⟩, natives'.trans natives, limit'.trans limit⟩, w', ?_⟩
    exact ⟨kept.trans kept', needs', linked', by omega⟩

end Again

/-- Initialization is transparent. An instruction that asks for an initializer needs a class
initialized, and leaves its frame as it was, set to execute it again. However often it gives way to
initializers that return, it is executed again on the same operands, no more often than there were
initializers to be started from its class up. It fails only if an initializer has no body, and does
in the end what it would have done at once in a world in which the class is initialized, and all
else is as the initializers have left it. -/
theorem initialization_transparent :
    (∀ (natives : NativeRegistry) (callers : List Frame) (i : Instruction) (a a' : Activation)
      (g : Frame), i.execute natives callers a = .ok (.prepare g) a' →
        a'.frame = { a.frame with nextPc := a.frame.pc } ∧
          ∃ c rest w, i.Needs natives callers a.frame.owner a.world c rest w) ∧
    ∀ (base n : Nat) (m m' : Machine) (f : Frame) (callers : List Frame) (opcode : UInt8)
      (i : Instruction) (cursor : Cursor) (c : ClassId) (rest : Execution Action) (w : World),
      m.natives.Respects World.KeepsClasses → m.world.Linked → m.frames = f :: callers →
      Instruction.fetch ⟨f.code, f.pc⟩ = .ok (opcode, i) cursor →
      i.Needs m.natives callers f.owner m.world c rest w → GivesWayTimes base n m m' →
        n ≤ (w.unstarted c).length ∧ m.BackAt f callers m' ∧
          ((∃ k initializer e m₁, k ∈ w.unstarted c ∧
              w.classes.declared? .initializer k = some initializer ∧ initializer.body = none ∧
              step m' = (some opcode, .error e m₁)) ∨
            (∃ g m₁, g.owner ∈ w.unstarted c ∧ n < (w.unstarted c).length ∧
              step m' = (some opcode, .ok (.prepare g) m₁)) ∨
            ∃ w', m'.world.KeepsClasses w' ∧ m'.world.SameContents w' ∧
              w'.isInitialized c = true ∧ step m' = step { m with world := w' }) := by
  constructor
  · intro natives callers i a a' g h
    exact ⟨(Instruction.asks_execute h).caller, Instruction.needs_of_prepare h⟩
  · intro base n m m' f callers opcode i cursor c rest w respects linked hm fetched needs times
    obtain ⟨back, w₁, kept, needs₁, linked₁, bound⟩ :=
      times.resumes respects linked hm fetched needs
    have below := needs.lt_size linked
    refine ⟨Nat.le_of_add_right_le bound, back, ?_⟩
    obtain ⟨⟨pc, frames⟩, natives, limit⟩ := back
    have before {k : ClassId} (pending : k ∈ w₁.unstarted c) : k ∈ w.unstarted c := by
      rw [kept.unstarted_eq below] at pending
      exact (List.mem_filter.1 pending).1
    rcases step_needing frames fetched needs₁ with
      ⟨k, initializer, e, m₁, pending, declared, none, stepped⟩ |
      ⟨g, m₁, pending, -, stepped⟩ | ⟨w', kept', same, begun, stepped⟩
    · have lower := Nat.lt_of_le_of_lt (ClassTable.le_of_mem_superclasses
        (List.mem_filter.1 (before pending)).1) below
      rw [kept.agree.declared?_eq lower] at declared
      exact .inl ⟨k, initializer, e, m₁, before pending, declared, none, stepped⟩
    · have some := List.length_pos_of_mem pending
      exact .inr (.inl ⟨g, m₁, before pending, by omega, stepped⟩)
    · right; right
      refine ⟨w', needs₁.keepsClasses.trans kept', trans_of _ needs₁.sameContents same, begun, ?_⟩
      have needs' := needs₁.later linked₁ kept'
      rw [natives] at needs'
      rw [stepped, step_of_begun (m := { m with world := w' }) hm fetched needs' begun]
      exact congrArg (Prod.mk _) (stepResult_congr natives limit _)

/-! A static field of a class that extends another one. Both have initializers, and that of the
class itself sets the field. -/

def requested (m : Machine) : Option Action :=
  match (step m).2 with
  | .ok action _ => some action
  | .error _ _ => none

theorem step_eq_of_requested {action : Action} (h : m.requested = some action) :
    step m = ((step m).1, .ok action (endState (step m).2)) := by
  unfold requested at h
  split at h
  · rename_i stepped
    cases h
    rw [Prod.ext_iff]
    exact ⟨rfl, by rw [stepped, endState_ok]⟩
  · cases h

def startingBase : Method :=
  { owner := .scalar "Base"
    signature := .initializer
    flags := Bootstrap.staticFlag
    body := some ⟨0, 0, #[0xb1], []⟩ }

def startingDerived : Method :=
  { startingBase with
    owner := .scalar "Derived"
    body := some ⟨1, 0, #[0x05, 0xb3, 0x00, 0x01, 0xb1], []⟩ }

def reading : Method :=
  { owner := .scalar "Main"
    signature := ⟨"run", [], some (.primitive .int)⟩
    flags := Bootstrap.publicFlag ||| Bootstrap.staticFlag
    body := some ⟨1, 0, #[0xb2, 0x00, 0x01, 0xac], []⟩ }

def derivedField : FieldReference := ⟨.scalar "Derived", "x", .primitive .int⟩

def readingProgram : List ClassDefinition :=
  let pool := ConstantPool.ofList [.field derivedField]
  let declare (m : Method) := (m.signature, m.flags, m.body)
  [{ ClassDefinition.ofName startingBase.owner with
      superclass := some 0
      methods := [declare startingBase] },
    { ClassDefinition.ofName startingDerived.owner with
      superclass := some 5
      pool := pool
      fields := [⟨"x", .primitive .int, Bootstrap.staticFlag⟩]
      methods := [declare startingDerived] },
    { ClassDefinition.ofName reading.owner with
      superclass := some 0
      pool := pool
      methods := [declare reading] }]

def readingFrame : Frame := ⟨7, reading, 0, 0, .empty 0, .empty 1⟩

def readingMachine : Machine :=
  { start (World.ofProgram .working 0 readingProgram) .standard defaultCallDepth with
    frames := [readingFrame] }

def readingAfter : Nat → Machine
  | 0 => readingMachine
  | n + 1 => endState (cycle 0 (readingAfter n))

set_option maxRecDepth 100000 in
theorem readingAfter_facts :
    (∀ n < 6, 0 < (readingAfter n).depth ∧ given (cycle 0 (readingAfter n)) = some none) ∧
    (readingAfter 0).requested = some (.prepare ⟨5, startingBase, 0, 0, .empty 0, .empty 0⟩) ∧
    (readingAfter 1).requested = some (.leave none) ∧
    (readingAfter 2).requested = some (.prepare ⟨6, startingDerived, 0, 0, .empty 0, .empty 1⟩) ∧
    (readingAfter 5).requested = some (.leave none) ∧
    (readingAfter 6).requested = some .proceed ∧
    [0, 1, 2, 3, 4, 5].map (fun n => (readingAfter n).depth) = [1, 2, 1, 2, 2, 2] := by
  decide +kernel

theorem next_reading {n : Nat} (below : n < 6) :
    Next 0 (readingAfter n) (readingAfter (n + 1)) := by
  obtain ⟨above, cycled⟩ := readingAfter_facts.1 n below
  exact ⟨above, none, eq_ok_of_given cycled⟩

/-- The initializer of the class above returns at once, the one of the class itself when it has set
the field. -/
theorem givesWayTimes_reading : GivesWayTimes 0 2 readingMachine (readingAfter 6) := by
  obtain ⟨-, asked, left, asked', left', -, depths⟩ := readingAfter_facts
  simp only [List.map_cons, List.map_nil, List.cons.injEq, and_true] at depths
  obtain ⟨d₀, d₁, d₂, d₃, d₄, d₅⟩ := depths
  have first : GivesWay 0 (readingAfter 0) (readingAfter 2) := by
    have pushed : Next 0 (readingAfter 0) (readingAfter 1) := next_reading (by decide)
    exact .intro (step_eq_of_requested asked) pushed (by omega) .refl (by omega)
      (step_eq_of_requested left) (next_reading (by decide))
  have second : GivesWay 0 (readingAfter 2) (readingAfter 6) := by
    have pushed : Next 0 (readingAfter 2) (readingAfter 3) := next_reading (by decide)
    have constant : Next 0 (readingAfter 3) (readingAfter 4) := next_reading (by decide)
    have set : Next 0 (readingAfter 4) (readingAfter 5) := next_reading (by decide)
    have runs : ReachesAbove 0 (readingAfter 2).depth (readingAfter 3) (readingAfter 5) :=
      .head ⟨constant, by omega⟩ (.single ⟨set, by omega⟩)
    exact .intro (step_eq_of_requested asked') pushed (by omega) runs (by omega)
      (step_eq_of_requested left') (next_reading (by decide))
  exact .succ first (.succ second (.zero _))

set_option maxRecDepth 100000 in
theorem needs_reading : ∃ rest, (Instruction.getStatic 1).Needs .standard [] 7
    readingMachine.world 6 rest readingMachine.world := by
  have found : readingMachine.world.registry.get? derivedField.owner = some 6 := by decide +kernel
  have read : (readingMachine.world.classes.pool 7).fieldAt 1 = .ok derivedField := by
    decide +kernel
  have owner : readingMachine.world.staticOwner? 6 derivedField.name = some 6 := by decide +kernel
  refine ⟨_, .getStatic read ?_⟩
  apply World.resolveStatic_eq_ok.2
  exact ⟨6, World.loadClass_of_registered found, owner⟩

theorem initialization_transparent_reading :
    (∃ g a, (Instruction.getStatic 1).execute .standard []
        ⟨{ readingFrame with nextPc := 3 }, readingMachine.world⟩ = .ok (.prepare g) a ∧
      a.frame = readingFrame) ∧
    2 ≤ (readingMachine.world.unstarted 6).length ∧
    readingMachine.BackAt readingFrame [] (readingAfter 6) ∧
    ∃ w, w.isInitialized 6 = true ∧
      step (readingAfter 6) = step { readingMachine with world := w } := by
  obtain ⟨rest, needs⟩ := needs_reading
  have fetched : Instruction.fetch ⟨readingFrame.code, readingFrame.pc⟩ =
      .ok (0xb2, .getStatic 1) ⟨readingFrame.code, 3⟩ := rfl
  obtain ⟨untouched, again⟩ := initialization_transparent
  constructor
  · have asked := step_eq_of_requested readingAfter_facts.2.1
    obtain ⟨byte, i, cursor, a, -, fetched', executed, -⟩ := step_eq_ok rfl asked
    cases fetched.symm.trans fetched'
    exact ⟨_, a, executed, (untouched _ _ _ _ _ _ executed).1⟩
  have respects := NativeRegistry.respects_standard World.tolerated_keepsClasses
  have linked := World.linked_ofProgram .working 0 readingProgram
  obtain ⟨bound, back, ways⟩ := again 0 2 readingMachine _ readingFrame [] _ _ _ 6 rest _ respects
    linked rfl fetched needs givesWayTimes_reading
  refine ⟨bound, back, ?_⟩
  have proceeds := step_eq_of_requested readingAfter_facts.2.2.2.2.2.1
  rcases ways with ⟨k, initializer, e, m₁, -, -, -, stepped⟩ | ⟨g, m₁, -, -, stepped⟩ |
    ⟨w, -, -, begun, same⟩
  · cases congrArg Prod.snd (proceeds.symm.trans stepped)
  · cases congrArg Prod.snd (proceeds.symm.trans stepped)
  · exact ⟨w, begun, same⟩

end Machine

end JavaMachine
