import JavaMachine.Proofs.GuardedAccess
import JavaMachine.Proofs.Growth
import JavaMachine.Proofs.Reachability

/-!
# The order of initialization

The initialization of a class begins after that of its superclasses. The walk up the hierarchy that
lists the pending classes stops at the first one that is initialized, so this order is what makes it
right, and it is kept by every operation on the world, by both ways to start an initializer, and by
whatever the initializers themselves run. No flag changes except together with the frame of an
initializer, or for a class without one.
-/
namespace JavaMachine

namespace ClassTable

theorem superclass?_push (t : ClassTable) (d : Class) (c : ClassId) :
    (t.push d).superclass? c =
      if c = t.size then d.superclass.filter (earlier c) else t.superclass? c := by
  unfold superclass?
  rw [get?_push]
  split <;> rfl

end ClassTable

namespace World

variable {w w₁ w' : World} {c k s : ClassId}

/-- The initialization of a class has begun only after that of its superclass, and every array class
has one that is initialized. -/
structure Ordered (w : World) : Prop where
  root : ∃ o, w.registry.get? objectName = some o ∧ w.isInitialized o = true
  due : ∀ c, w.isInitialized c = true → w.IsDue c

theorem Ordered.above (h : w.Ordered) (due : w.IsDue c) :
    ∀ s ∈ w.classes.superclasses c, s ≠ c → w.isInitialized s = true := by
  induction c using Nat.strongRecOn with
  | ind c ih =>
    intro s member other
    cases up : w.classes.superclass? c with
    | none =>
      rw [ClassTable.superclasses_of_none up, List.mem_singleton] at member
      exact absurd member other
    | some k =>
      rw [ClassTable.superclasses_of_some up] at member
      have begun := due k up
      rcases List.mem_cons.1 member with same | further
      · exact absurd same other
      · by_cases same : s = k
        · rwa [same]
        · exact ih k (ClassTable.superclass?_lt up) (h.due k begun) s further same

/-- Classes stay initialized, and a class gets no superclass but an initialized one. -/
structure Advances (w w' : World) : Prop where
  kept : ∀ c, w.isInitialized c = true → w'.isInitialized c = true
  superclass : ∀ c s, w'.classes.superclass? c = some s →
    w.classes.superclass? c = some s ∨ w'.isInitialized s = true

theorem Advances.refl (w : World) : w.Advances w := ⟨fun _ => id, fun _ _ => .inl⟩

theorem Advances.trans (h : w.Advances w₁) (h' : w₁.Advances w') : w.Advances w' where
  kept c begun := h'.kept c (h.kept c begun)
  superclass c s up := by
    rcases h'.superclass c s up with before | begun
    · rcases h.superclass c s before with first | begun
      · exact .inl first
      · exact .inr (h'.kept s begun)
    · exact .inr begun

theorem Advances.mark (h : w.Advances w') (c : ClassId) :
    (w.markInitialized c).Advances (w'.markInitialized c) where
  kept k begun := by
    rcases isInitialized_markInitialized.1 begun with rfl | before
    · exact isInitialized_markInitialized_self w' k
    · exact isInitialized_markInitialized.2 (.inr (h.kept k before))
  superclass k s up := by
    rw [classes_markInitialized] at up ⊢
    exact (h.superclass k s up).imp_right fun begun => isInitialized_markInitialized.2 (.inr begun)

theorem advances_markInitialized (w : World) (c : ClassId) : w.Advances (w.markInitialized c) where
  kept _ begun := isInitialized_markInitialized.2 (.inr begun)
  superclass k s up := by
    rw [classes_markInitialized] at up
    exact .inl up

theorem IsDue.advances (h : w.IsDue c) (advances : w.Advances w') : w'.IsDue c := by
  intro s up
  rcases advances.superclass c s up with before | begun
  · exact advances.kept s (h s before)
  · exact begun

theorem Due.advances {pending : List ClassId} (h : w.Due pending) (advances : w.Advances w') :
    w'.Due pending := by
  induction pending generalizing w w' with
  | nil => trivial
  | cons c rest ih => exact ⟨h.1.advances advances, ih h.2 (advances.mark c)⟩

/-! ### Changes of the world -/

def KeepsOrder (w w' : World) : Prop := w.Ordered → w'.Ordered ∧ w.Advances w'

instance : IsPreorder World KeepsOrder where
  refl w h := ⟨h, .refl w⟩
  trans _ _ _ first later h := by
    obtain ⟨ordered₁, advances₁⟩ := first h
    obtain ⟨ordered, advances⟩ := later ordered₁
    exact ⟨ordered, advances₁.trans advances⟩

theorem keepsOrder_of_same (classes : w'.classes = w.classes) (registry : w'.registry = w.registry)
    (initialized : w'.initialized = w.initialized) : w.KeepsOrder w' := by
  have begun (c : ClassId) : w'.isInitialized c = w.isInitialized c := by
    unfold isInitialized
    rw [initialized]
  intro h
  refine ⟨⟨?_, ?_⟩, ?_, ?_⟩
  · obtain ⟨o, found, marked⟩ := h.root
    exact ⟨o, registry ▸ found, begun o ▸ marked⟩
  · intro c marked s up
    rw [begun] at marked ⊢
    rw [classes] at up
    exact h.due c marked s up
  · intro c marked
    rwa [begun]
  · intro c s up
    rw [classes] at up
    exact .inl up

theorem keepsOrder_markInitialized (due : w.IsDue c) : w.KeepsOrder (w.markInitialized c) := by
  intro h
  have advances := w.advances_markInitialized c
  refine ⟨⟨?_, ?_⟩, advances⟩
  · obtain ⟨o, found, marked⟩ := h.root
    refine ⟨o, ?_, advances.kept o marked⟩
    unfold markInitialized
    split <;> exact found
  · intro k begun
    rcases isInitialized_markInitialized.1 begun with rfl | before
    · exact due.advances advances
    · exact (h.due k before).advances advances

theorem keepsOrder_of_push {d : Class} (classes : w'.classes = w.classes.push d)
    (registry : w'.registry.get? objectName = w.registry.get? objectName)
    (marked : ∀ c, w'.isInitialized c = true ↔ c = w.classes.size ∨ w.isInitialized c = true)
    (above : w.Ordered → ∀ s, d.superclass = some s → w.isInitialized s = true) :
    w.KeepsOrder w' := by
  intro h
  have kept (c : ClassId) (begun : w.isInitialized c = true) : w'.isInitialized c = true :=
    (marked c).2 (.inr begun)
  have added {c s : ClassId} (up : w'.classes.superclass? c = some s) :
      w.classes.superclass? c = some s ∨ c = w.classes.size ∧ w'.isInitialized s = true := by
    rw [classes, ClassTable.superclass?_push] at up
    split at up
    · rename_i new
      exact .inr ⟨new, kept s (above h s (Option.filter_eq_some_iff.1 up).1)⟩
    · exact .inl up
  refine ⟨⟨?_, ?_⟩, kept, ?_⟩
  · obtain ⟨o, found, begun⟩ := h.root
    exact ⟨o, registry.trans found, kept o begun⟩
  · intro c begun s up
    rcases added up with old | ⟨-, begun⟩
    · rcases (marked c).1 begun with rfl | before
      · have absent : w.classes.superclass? w.classes.size = none := by
          simp [ClassTable.superclass?, ClassTable.get?_eq_none]
        rw [absent] at old
        cases old
      · exact kept s (h.due c before s old)
    · exact begun
  · intro c s up
    exact (added up).imp_right And.right

theorem toleratesHeap_keepsOrder : ToleratesHeap KeepsOrder where
  primitive w p := by
    refine keepsOrder_of_push (d := Class.ofPrimitive p) rfl rfl ?_ ?_
    · intro c
      simp [isInitialized]
    · intro _ s up
      cases up
  array w type component flags object found _ _ := by
    have other : objectName ≠ .array type := by
      intro same
      cases same
    refine keepsOrder_of_push (classes_markInitialized _ _) ?_ ?_ ?_
    · unfold markInitialized addClass
      split <;> exact FiniteMap.get?_insert_ne _ other _
    · intro c
      exact isInitialized_markInitialized
    · rintro h s ⟨⟩
      obtain ⟨o, root, begun⟩ := h.root
      cases found.symm.trans root
      exact begun
  marked w c _ due := keepsOrder_markInitialized due
  heap _ _ := keepsOrder_of_same rfl rfl rfl
  statics _ _ _ _ := keepsOrder_of_same rfl rfl rfl
  classObjects _ _ := keepsOrder_of_same rfl rfl rfl
  strings _ _ := keepsOrder_of_same rfl rfl rfl
  console _ _ := keepsOrder_of_same rfl rfl rfl

theorem tolerated_keepsOrder : Tolerated KeepsOrder := toleratesHeap_keepsOrder.tolerated

/-! ### The first worlds -/

set_option maxRecDepth 100000 in
theorem ordered_start (console : Console) (clock : Nat) : (start console clock).Ordered := by
  have classes : (start console clock).classes = (start .working 0).classes := rfl
  have registry : (start console clock).registry = (start .working 0).registry := rfl
  have initialized : (start console clock).initialized = (start .working 0).initialized := rfl
  have root : (start .working 0).registry.get? objectName = some 0 ∧
      (start .working 0).isInitialized 0 = true := by
    decide +kernel
  have above : ∀ c ∈ (start .working 0).initialized,
      ((start .working 0).classes.superclass? c).all (start .working 0).isInitialized := by
    decide +kernel
  have begun (c : ClassId) :
      (start console clock).isInitialized c = (start .working 0).isInitialized c := by
    unfold isInitialized
    rw [initialized]
  constructor
  · rw [registry]
    exact ⟨0, root.1, (begun 0).trans root.2⟩
  · intro c marked s up
    rw [begun] at marked ⊢
    rw [classes] at up
    have all := above c (List.contains_iff_mem.1 marked)
    rwa [up] at all

/-- A class that is defined is not initialized, so it may extend whatever it wants. -/
theorem Ordered.define (h : w.Ordered) (fresh : w.isInitialized w.classes.size = false)
    {d : ClassDefinition} (other : d.name ≠ objectName) : (w.define d).2.Ordered := by
  have begun (c : ClassId) : (w.define d).2.isInitialized c = w.isInitialized c := rfl
  constructor
  · obtain ⟨o, found, marked⟩ := h.root
    refine ⟨o, ?_, marked⟩
    have registry : (w.define d).2.registry = w.registry.insert d.name w.classes.size := rfl
    rw [registry, FiniteMap.get?_insert, if_neg fun same => other same.symm]
    exact found
  · intro c marked s up
    rw [begun] at marked ⊢
    have table : (w.define d).2.classes = w.classes.push d.toClass := rfl
    rw [table, ClassTable.superclass?_push] at up
    split at up
    · rename_i new
      rw [new, fresh] at marked
      cases marked
    · exact h.due c marked s up

theorem ordered_ofProgram (console : Console) (clock : Nat) (program : List ClassDefinition)
    (names : ∀ d ∈ program, d.name ≠ objectName) : (ofProgram console clock program).Ordered := by
  have defined : (ofProgram console clock program).Ordered ∧
      ∀ c, (ofProgram console clock program).isInitialized c = true →
        c < (ofProgram console clock program).classes.size := by
    refine program.foldlRecOn
      (motive := fun w : World => w.Ordered ∧ ∀ c, w.isInitialized c = true → c < w.classes.size)
      _ ⟨ordered_start console clock, (untouched_start console clock).below⟩ ?_
    rintro w ⟨ordered, below⟩ d member
    have fresh : w.isInitialized w.classes.size = false :=
      Bool.eq_false_iff.2 fun begun => Nat.lt_irrefl _ (below _ begun)
    have size : (w.define d).2.classes.size = w.classes.size + 1 := ClassTable.size_push _ _
    refine ⟨ordered.define fresh (names d member), fun c begun => ?_⟩
    rw [size]
    exact Nat.lt_succ_of_lt (below c begun)
  exact defined.1

end World

namespace Machine

variable {base bound : Nat} {m m' m₁ : Machine} {c k : ClassId}

/-! ### Initializers that are asked for -/

/-- The initializer has been given a frame, and its class was marked with it. All superclasses of
the class had been initialized before. -/
structure Starts (f : Frame) (m m' : Machine) : Prop where
  begins : f.Begins f.owner f.method
  declared : m.world.classes.declared? .initializer f.owner = some f.method
  above : ∀ s ∈ m.world.classes.superclasses f.owner, s ≠ f.owner →
    m.world.isInitialized s = true
  placed : m' = { m with
    world := m.world.markInitialized f.owner
    frames := f :: m.frames }

theorem prepares_of_step {opcode : Option UInt8} {g : Frame}
    (asked : step m = (opcode, .ok (.prepare g) m₁)) :
    ∃ f a, Execution.Prepares f g a ∧ a.world = m₁.world := by
  cases hm : m.frames with
  | nil =>
    obtain ⟨world, frames, natives, maxCallDepth⟩ := m
    cases hm
    cases asked
  | cons f callers =>
    obtain ⟨_, i, cursor, a, -, -, executed, rfl⟩ := step_eq_ok hm asked
    exact ⟨_, a, Instruction.asks_execute executed, rfl⟩

theorem keepsOrder_of_asked {opcode : Option UInt8} {g : Frame}
    (asked : step m = (opcode, .ok (.prepare g) m₁)) :
    m₁.world.KeepsOrder (m₁.world.markInitialized g.owner) := by
  obtain ⟨f, a, prepares, world⟩ := prepares_of_step asked
  have due := prepares.due
  rw [world] at due
  exact World.keepsOrder_markInitialized due

/-! ### Runs -/

/-- The machine goes on with the same native methods, in a world that keeps the order. -/
structure GoesOn (m m' : Machine) : Prop where
  natives : m'.natives = m.natives
  world : m.world.KeepsOrder m'.world

instance : IsPreorder Machine GoesOn where
  refl m := ⟨rfl, refl_of _ m.world⟩
  trans _ _ _ h h' := ⟨h'.natives.trans h.natives, trans_of _ h.world h'.world⟩

section Runs

variable (respects : m.natives.Respects World.KeepsOrder)
include respects

theorem goesOn_step (above : base < m.depth) : m.GoesOn (endState (step m).2) := by
  have retreats := (step_retreats World.tolerated_keepsOrder respects above).1
  exact ⟨retreats.natives, retreats.world⟩

theorem goesOn_attempt (above : base < m.depth) : m.GoesOn (endState (attempt base m).2) := by
  obtain ⟨natives, world⟩ := attempt_relates World.tolerated_keepsOrder respects above
    fun _ _ _ asked => keepsOrder_of_asked asked
  exact ⟨natives, world⟩

theorem goesOn_cycle (above : base < m.depth) : m.GoesOn (endState (cycle base m)) := by
  have moves := cycle_moves World.tolerated_keepsOrder respects above
    fun _ _ _ asked => keepsOrder_of_asked asked
  exact ⟨moves.natives, moves.world⟩

theorem goesOn_reaches (reached : Reaches base m m') : m.GoesOn m' := by
  induction reached with
  | refl => exact refl_of _ m
  | tail _ next ih =>
    obtain ⟨above, v, hc⟩ := next
    rw [← ih.natives] at respects
    have cycled := goesOn_cycle respects above
    rw [hc] at cycled
    exact trans_of _ ih cycled

theorem goesOn_runAbove {result : Option Value} {r : EStateM.Result Error Machine (Option Value)}
    (h : runAbove base bound result m = some r) : m.GoesOn (endState r) := by
  obtain ⟨m₁, reached, ended⟩ := reaches_of_runAbove h
  have goesOn := goesOn_reaches respects reached
  rcases ended with ⟨-, v, rfl⟩ | ⟨above, e, m', hc, rfl⟩
  · exact goesOn
  · rw [← goesOn.natives] at respects
    have cycled := goesOn_cycle respects above
    rw [hc] at cycled
    exact trans_of _ goesOn cycled

end Runs

/-! ### Calls from outside -/

structure Turn (m : Machine) (c : ClassId) (rest : List ClassId) (m₁ : Machine) : Prop where
  natives : m₁.natives = m.natives
  ordered : m₁.world.Ordered
  due : m₁.world.Due rest
  left : m₁.world.isInitialized c = true ∨ c ∈ rest

/-- The classes whose turn is still to come are due one after the other, whatever the initializers
before them have run. -/
theorem ComesTo.turn {rest : List ClassId} (respects : m.natives.Respects World.KeepsOrder)
    (ordered : m.world.Ordered) (come : ComesTo (m.world.uninitialized c) m rest m₁) :
    m.Turn c rest m₁ := by
  have step {k : ClassId} {rest : List ClassId} {w : World} (left : w.isInitialized c = true ∨
      c ∈ k :: rest) : (w.markInitialized k).isInitialized c = true ∨ c ∈ rest := by
    rcases left with begun | member
    · exact .inl (World.isInitialized_markInitialized.2 (.inr begun))
    · rcases List.mem_cons.1 member with rfl | later
      · exact .inl (World.isInitialized_markInitialized_self w c)
      · exact .inr later
  induction come with
  | begins =>
    refine ⟨rfl, ordered, m.world.due_uninitialized c, ?_⟩
    cases begun : m.world.isInitialized c with
    | true => exact .inl rfl
    | false => exact .inr (World.mem_uninitialized_self begun)
  | marked come undeclared ih =>
    have kept := World.keepsOrder_markInitialized ih.due.1 ih.ordered
    exact ⟨ih.natives, kept.1, ih.due.2, step ih.left⟩
  | @ran _ k rest m₁ entered m₂ initializer v come declared enters run ih =>
    obtain ⟨f, -, -, world, natives, -⟩ := frames_entered enters
    have kept := (World.keepsOrder_markInitialized ih.due.1 ih.ordered).1
    rw [← world] at kept
    have same : entered.natives = m.natives := natives.trans ih.natives
    rw [← same] at respects
    have goesOn := goesOn_runAbove respects run
    obtain ⟨ordered', advances⟩ := goesOn.world kept
    refine ⟨goesOn.natives.trans same, ordered', ?_, ?_⟩
    · refine World.Due.advances ?_ advances
      rw [world]
      exact ih.due.2
    · have left := step ih.left
      rw [← world] at left
      exact left.imp_left (advances.kept c)

/-- An initializer that a call starts gets its frame, together with the mark on its class, or
nothing changes. -/
theorem enterInitializer_starts {initializer : Method} (ordered : m.world.Ordered)
    (due : m.world.IsDue c)
    (declared : m.world.classes.declared? .initializer c = some initializer) :
    (∃ e, enterInitializer c initializer m = .error e m) ∨
      ∃ f m', enterInitializer c initializer m = .ok () m' ∧ f.owner = c ∧ Starts f m m' := by
  rcases enterInitializer_eq c initializer m with refused | ⟨f, begins, entered⟩
  · exact .inl refused
  · refine .inr ⟨f, _, entered, begins.owner, ?_, ?_, ?_, ?_⟩
    · rw [begins.owner, begins.method]
      exact begins
    · rw [begins.owner, begins.method]
      exact declared
    · rw [begins.owner]
      exact ordered.above due
    · rw [begins.owner]

/-! ### Flags -/

/-- The classes that declare an initializer are initialized if they were before. -/
def KeepsFlags (m m' : Machine) : Prop :=
  ∀ c initializer, m.world.classes.declared? .initializer c = some initializer →
    m'.world.isInitialized c = m.world.isInitialized c

theorem keepsFlags_of_grows (growth : m.world.Grows m'.world) : m.KeepsFlags m' := by
  intro c initializer declared
  cases begun : m.world.isInitialized c with
  | true => exact growth.kept c begun
  | false =>
    cases marked : m'.world.isInitialized c with
    | false => rfl
    | true =>
      rcases growth.marked c marked with before | none
      · rw [before] at begun
        cases begun
      · rw [declared] at none
        cases none

/-- The flags of classes with initializers change in a cycle only when an instruction has asked for
an initializer of a class that was due, and this gets its frame. -/
theorem cycle_starts (growing : m.natives.Respects World.Grows)
    (orderly : m.natives.Respects World.KeepsOrder) (ordered : m.world.Ordered)
    (above : base < m.depth)
    (hm' : m' = endState (attempt base m).2 ∨ m' = endState (cycle base m)) :
    m.KeepsFlags m' ∨ ∃ opcode f m₁, step m = (opcode, .ok (.prepare f) m₁) ∧ m.KeepsFlags m₁ ∧
      m₁.world.isInitialized f.owner = false ∧ Starts f m₁ m' := by
  by_cases asked : ∃ opcode g m₁, step m = (opcode, .ok (.prepare g) m₁)
  · obtain ⟨opcode, g, m₁, asked⟩ := asked
    obtain ⟨retreats, level⟩ := step_retreats World.tolerated_grows growing above
    have goesOn := goesOn_step orderly above
    rw [asked] at retreats level goesOn
    rcases attempt_prepare base asked with ⟨e, failed⟩ | placed
    · left
      have fails : m.Fails base World.Grows e m₁ := ⟨retreats, .inl (level ▸ above)⟩
      have handled := fails.handled World.tolerated_grows (attempt base m).1
      rw [endState_cycle failed, failed] at hm'
      rcases hm' with rfl | rfl
      · exact keepsFlags_of_grows retreats.world
      · exact keepsFlags_of_grows handled.world
    · right
      obtain ⟨f, a, prepares, world⟩ := prepares_of_step asked
      obtain ⟨-, started, declared, fresh, due⟩ := prepares
      rw [world] at declared fresh due
      rw [cycle_eq_ok_of_attempt placed, placed, or_self] at hm'
      refine ⟨opcode, g, m₁, asked, keepsFlags_of_grows retreats.world, fresh, ?_⟩
      exact ⟨started.begins, declared, (goesOn.world ordered).1.above due, hm'⟩
  · left
    have unasked : ∀ opcode g m₁, step m = (opcode, .ok (.prepare g) m₁) →
        m₁.world.Grows (m₁.world.markInitialized g.owner) :=
      fun opcode g m₁ hs => absurd ⟨opcode, g, m₁, hs⟩ asked
    rcases hm' with rfl | rfl
    · exact keepsFlags_of_grows
        (attempt_relates World.tolerated_grows growing above unasked).2
    · exact keepsFlags_of_grows (cycle_moves World.tolerated_grows growing above unasked).world

theorem callNative_goesOn (respects : m.natives.Respects World.KeepsOrder) (c : ClassId)
    (method : Method) (arguments : List Value) :
    m.GoesOn (endState (callNative c method arguments m)) := by
  rw [callNative_eq]
  exact ⟨rfl, NativeCall.keeps_run World.tolerated_keepsOrder respects _ _ _ _ _⟩

theorem callNative_keepsFlags (growing : m.natives.Respects World.Grows) (c : ClassId)
    (method : Method) (arguments : List Value) :
    m.KeepsFlags (endState (callNative c method arguments m)) := by
  rw [callNative_eq]
  exact keepsFlags_of_grows (NativeCall.keeps_run World.tolerated_grows growing _ _ _ _ _)

theorem invariant_ordered {natives : NativeRegistry}
    (respects : natives.Respects World.KeepsOrder) :
    Invariant World.KeepsOrder fun m => m.natives = natives ∧ m.world.Ordered := by
  have goes {m m' : Machine} (h : m.natives = natives ∧ m.world.Ordered)
      (goesOn : m.natives.Respects World.KeepsOrder → m.GoesOn m') :
      m'.natives = natives ∧ m'.world.Ordered := by
    obtain ⟨rfl, ordered⟩ := h
    have goesOn := goesOn respects
    exact ⟨goesOn.natives, (goesOn.world ordered).1⟩
  constructor
  case changed => exact fun h change => ⟨h.1, (change h.2).1⟩
  case step => exact fun h above => goes h fun respects => goesOn_step respects above
  case attempt => exact fun h above => goes h fun respects => goesOn_attempt respects above
  case cycle => exact fun h above => goes h fun respects => goesOn_cycle respects above
  case mark =>
    rintro m₀ m c k rest ⟨rfl, ordered₀⟩ come ⟨same, ordered⟩ -
    have due := (come.turn respects ordered₀).due.1
    exact ⟨same, (World.keepsOrder_markInitialized due ordered).1⟩
  case prepare =>
    rintro m₀ m entered c k rest initializer ⟨rfl, ordered₀⟩ come ⟨same, ordered⟩ - enters
    obtain ⟨f, -, -, world, natives, -⟩ := frames_entered enters
    have due := (come.turn respects ordered₀).due.1
    rw [world, natives]
    exact ⟨same, (World.keepsOrder_markInitialized due ordered).1⟩
  case enter =>
    intro m entered c method arguments h enters
    rcases enter_eq c method arguments m with ⟨e, refused⟩ | ⟨f, -, placed⟩
    · rw [refused] at enters
      cases enters
    · rw [placed] at enters
      cases enters
      exact h
  case native =>
    exact fun h c method arguments => goes h fun respects => callNative_goesOn respects c method _

open Execution in
/-- Whatever is run on the classes of a program that does not replace the root of the hierarchy, a
class is initialized only after its superclasses. The flag of a class with an initializer changes
only together with its frame being put in place. Until a class has its flag, nothing accesses it,
and a call on it from outside starts no method. -/
theorem initialization_ordered (console : Console) (clock : Nat) (program : List ClassDefinition)
    (names : ∀ d ∈ program, d.name ≠ World.objectName) (natives : NativeRegistry)
    (growing : natives.Respects World.Grows) (orderly : natives.Respects World.KeepsOrder)
    (maxCallDepth : Nat)
    (h : Reachable World.KeepsOrder
      (start (World.ofProgram console clock program) natives maxCallDepth) m) :
    (∀ c s, m.world.isInitialized c = true → s ∈ m.world.classes.superclasses c →
      m.world.isInitialized s = true) ∧
    (∀ base m', base < m.depth →
      (m' = endState (step m).2 → m.KeepsFlags m') ∧
      (m' = endState (attempt base m).2 ∨ m' = endState (cycle base m) →
        m.KeepsFlags m' ∨ ∃ opcode f m₁, step m = (opcode, .ok (.prepare f) m₁) ∧
          m.KeepsFlags m₁ ∧ m₁.world.isInitialized f.owner = false ∧ Starts f m₁ m')) ∧
    (∀ c k rest m₁ initializer, ComesTo (m.world.uninitialized c) m (k :: rest) m₁ →
      m₁.world.classes.declared? .initializer k = some initializer →
      (∃ e, enterInitializer k initializer m₁ = .error e m₁) ∨
        ∃ f m', enterInitializer k initializer m₁ = .ok () m' ∧ f.owner = k ∧
          Starts f m₁ m') ∧
    (∀ c method arguments, m.KeepsFlags (endState (enter c method arguments m)) ∧
      m.KeepsFlags (endState (callNative c method arguments m))) ∧
    (∀ bound c m₁, initializeAll bound (m.world.uninitialized c) m = some (.ok () m₁) →
      m₁.world.isInitialized c = true) ∧
    (∀ bound c method arguments r, invoke bound c method arguments m = some r →
      (∃ e m', initializeAll bound (m.world.uninitialized c) m = some (.error e m') ∧
        r = .error e m') ∨
      ∃ m₁, initializeAll bound (m.world.uninitialized c) m = some (.ok () m₁) ∧
        m₁.world.isInitialized c = true ∧
        ((m₁.world.classes.isBridged c method = true ∧ r = callNative c method arguments m₁) ∨
          (m₁.world.classes.isBridged c method = false ∧
            ((∃ e, enter c method arguments m₁ = .error e m₁ ∧ r = .error e m₁) ∨
              ∃ f, enter c method arguments m₁ = .ok () { m₁ with frames := f :: m₁.frames } ∧
                runAbove m₁.depth bound none { m₁ with frames := f :: m₁.frames } =
                  some r)))) ∧
    (∀ index a, Guarded (CreatesInstance a index) a (newObject index a)) ∧
    (∀ index a, Guarded (ReadsStatic a index) a (getStatic index a)) ∧
    (∀ index a, Guarded (WritesStatic a index) a (putStatic index a)) ∧
    (∀ callers index a, Guarded (CallsStatic natives callers a index) a
      (invokeStatic natives callers index a)) := by
  obtain ⟨rfl, ordered⟩ := (invariant_ordered orderly).reachable
    ⟨rfl, World.ordered_ofProgram console clock program names⟩ h
  have marked (bound : Nat) (c : ClassId) (m₁ : Machine)
      (initialized : initializeAll bound (m.world.uninitialized c) m = some (.ok () m₁)) :
      m₁.world.isInitialized c = true := by
    obtain ⟨-, come⟩ := meets_of_initialization (c := c) default []
      (initialization_of_eq initialized) .begins
    exact ((come m₁ rfl).turn orderly ordered).left.resolve_right List.not_mem_nil
  refine ⟨?_, ?_, ?_, ?_, marked, ?_, guarded_newObject, guarded_getStatic, guarded_putStatic,
    guarded_invokeStatic _⟩
  · intro c s begun member
    by_cases same : s = c
    · rwa [same]
    · exact ordered.above (ordered.due c begun) s member same
  · intro base m' above
    refine ⟨?_, cycle_starts growing orderly ordered above⟩
    rintro rfl
    exact keepsFlags_of_grows (step_retreats World.tolerated_grows growing above).1.world
  · intro c k rest m₁ initializer come declared
    have turn := come.turn orderly ordered
    exact enterInitializer_starts turn.ordered turn.due.1 declared
  · intro c method arguments
    refine ⟨?_, callNative_keepsFlags growing c method arguments⟩
    rcases enter_eq c method arguments m with ⟨e, refused⟩ | ⟨f, -, placed⟩
    · rw [refused]
      exact fun _ _ _ => rfl
    · rw [placed]
      exact fun _ _ _ => rfl
  · intro bound c method arguments r invoked
    rcases invoke_cases invoked with failed | ⟨m₁, initialized, ways⟩
    · exact .inl failed
    · refine .inr ⟨m₁, initialized, marked bound c m₁ initialized, ways.imp_right ?_⟩
      rintro ⟨bytecode, refused | ⟨f, -, entered, ran⟩⟩
      · exact ⟨bytecode, .inl refused⟩
      · exact ⟨bytecode, .inr ⟨f, entered, ran⟩⟩

/-! Two classes, of which the one extends the other and both have initializers that only return. -/

def extending : Method :=
  { owner := .scalar "Derived"
    signature := ⟨"run", [], none⟩
    flags := Bootstrap.publicFlag ||| Bootstrap.staticFlag
    body := some ⟨0, 0, #[0xb1], []⟩ }

def extendingProgram : List ClassDefinition :=
  let initializer := (.initializer, Bootstrap.staticFlag, extending.body)
  [{ ClassDefinition.ofName (.scalar "Base") with
      superclass := some 0
      methods := [initializer] },
    { ClassDefinition.ofName extending.owner with
      superclass := some 5
      methods := [initializer, (extending.signature, extending.flags, extending.body)] }]

def extendingMachine : Machine :=
  start (World.ofProgram .working 0 extendingProgram) .standard defaultCallDepth

theorem extendingProgram_names : ∀ d ∈ extendingProgram, d.name ≠ World.objectName := by decide

set_option maxRecDepth 100000 in
theorem invoke_extending :
    (invoke 10 6 extending [] extendingMachine).map (fun r =>
      ((endState r).world.isInitialized 6, (endState r).world.classes.superclasses 6)) =
        some (true, [6, 5, 0]) := by
  decide +kernel

theorem initialization_ordered_extending :
    ∃ r, invoke 10 6 extending [] extendingMachine = some r ∧
      (endState r).world.isInitialized 6 = true ∧ (endState r).world.isInitialized 5 = true := by
  obtain ⟨r, ended, facts⟩ := Option.map_eq_some_iff.1 invoke_extending
  obtain ⟨begun, chain⟩ := Prod.mk.inj facts
  obtain ⟨ordered, -⟩ := initialization_ordered .working 0 extendingProgram
    extendingProgram_names .standard (NativeRegistry.respects_standard World.tolerated_grows)
    (NativeRegistry.respects_standard World.tolerated_keepsOrder) defaultCallDepth
    (.between (.called .start ended))
  refine ⟨r, ended, begun, ordered 6 5 begun ?_⟩
  rw [chain]
  decide

end Machine

end JavaMachine
