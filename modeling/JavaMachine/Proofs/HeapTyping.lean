import JavaMachine.Proofs.NamedClasses

/-!
# Typed heaps

Arrays of references hold nothing but null and instances of their component class, and arrays of
primitives the elements that their class is named for. Every change of the heap that an operation
makes preserves this, and no entity changes its class or its length. What was checked when an
element was stored stays true, since the class table only grows.
-/
namespace JavaMachine

structure Entity.SameShape (e e' : Entity) : Prop where
  owner : e'.owner = e.owner
  length : e'.length? = e.length?

namespace World

variable {w w₁ w' : World} {c k : ClassId} {r x : Reference} {e : Entity}

/-- The reference may be an element of an array with components of the class. -/
def Fits (w : World) (k : ClassId) (x : Reference) : Prop :=
  x = .null ∨ ∃ d, w.classOf? x = some d ∧ w.classes.isAssignable d k = true

/-- What the entity holds is what its class says. -/
def Holds (w : World) : Entity → Prop
  | .references c elements => (w.classes.name c).isArray = true ∧
      ∃ k, w.classes.component? c = some k ∧ ∀ x ∈ elements, w.Fits k x
  | .primitives c storage => w.classes.name c = .array (.primitive storage.type)
  | .object _ _ | .classObject _ _ _ => True

/-- The entities are instances of classes in the table, and hold what these say. -/
structure HeapTyped (w : World) : Prop where
  owners : ∀ r e, w.heap.get? r = some e → e.owner < w.classes.size
  entities : ∀ r e, w.heap.get? r = some e → w.Holds e

/-- The names of classes are right, and the heap is typed. -/
structure Sound (w : World) : Prop where
  named : w.Named
  typed : w.HeapTyped

/-! ### Later worlds -/

/-- The classes and the entities of the world are still there. -/
structure Later (w w' : World) : Prop where
  size : w.classes.size ≤ w'.classes.size
  agree : ClassTable.Agree w.classes.size w.classes w'.classes
  kept : ∀ r e, w.heap.get? r = some e → ∃ e', w'.heap.get? r = some e' ∧ e.SameShape e'

theorem Later.refl (w : World) : w.Later w where
  size := Nat.le_refl _
  agree _ _ := rfl
  kept _ e here := ⟨e, here, rfl, rfl⟩

theorem Later.trans (h : w.Later w₁) (h' : w₁.Later w') : w.Later w' where
  size := Nat.le_trans h.size h'.size
  agree i below := (h'.agree i (Nat.lt_of_lt_of_le below h.size)).trans (h.agree i below)
  kept r e here := by
    obtain ⟨e₁, here₁, same₁⟩ := h.kept r e here
    obtain ⟨e', here', same'⟩ := h'.kept r e₁ here₁
    exact ⟨e', here', same'.owner.trans same₁.owner, same'.length.trans same₁.length⟩

theorem Later.classOf? (h : w.Later w') (here : w.classOf? r = some c) :
    w'.classOf? r = some c := by
  obtain ⟨e, found, rfl⟩ := Option.map_eq_some_iff.1 here
  obtain ⟨e', found', same⟩ := h.kept r e found
  exact Option.map_eq_some_iff.2 ⟨e', found', same.owner⟩

theorem lt_size_of_classOf? (h : w.HeapTyped) (here : w.classOf? r = some c) :
    c < w.classes.size := by
  obtain ⟨e, found, rfl⟩ := Option.map_eq_some_iff.1 here
  exact h.owners r e found

theorem Fits.later (h : w.Fits k x) (typed : w.HeapTyped) (known : k < w.classes.size)
    (later : w.Later w') : w'.Fits k x := by
  rcases h with null | ⟨d, here, assignable⟩
  · exact .inl null
  · refine .inr ⟨d, later.classOf? here, ?_⟩
    rwa [later.agree.isAssignable_eq (lt_size_of_classOf? typed here) (.known known)]

theorem Holds.later (h : w.Holds e) (typed : w.HeapTyped) (known : e.owner < w.classes.size)
    (later : w.Later w') : w'.Holds e := by
  cases e with
  | object | classObject => trivial
  | primitives c storage => exact (later.agree.name_eq known).trans h
  | references c elements =>
    change c < w.classes.size at known
    obtain ⟨array, k, component, fits⟩ := h
    have lower := Nat.lt_trans (ClassTable.component?_lt component) known
    refine ⟨by rwa [later.agree.name_eq known], k, by rwa [later.agree.component?_eq known], ?_⟩
    exact fun x member => (fits x member).later typed lower later

theorem Sound.of_later (h : w.Sound) (later : w.Later w') (named : w'.Named)
    (entities : ∀ r e, w'.heap.get? r = some e →
      w.heap.get? r = some e ∨ e.owner < w.classes.size ∧ w.Holds e) : w'.Sound := by
  have held (r : Reference) (e : Entity) (here : w'.heap.get? r = some e) :
      e.owner < w.classes.size ∧ w.Holds e := by
    rcases entities r e here with before | new
    · exact ⟨h.typed.owners r e before, h.typed.entities r e before⟩
    · exact new
  refine ⟨named, fun r e here => ?_, fun r e here => ?_⟩
  · exact Nat.lt_of_lt_of_le (held r e here).1 later.size
  · exact (held r e here).2.later h.typed (held r e here).1 later

/-! ### Instances by name -/

def HasClass (w : World) (name : ClassName) (x : Reference) : Prop :=
  ∃ d, w.classOf? x = some d ∧ w.classes.name d = name

theorem HasClass.later {name : ClassName} (h : w.HasClass name x) (sound : w.Sound)
    (later : w.Later w') : w'.HasClass name x := by
  obtain ⟨d, here, named⟩ := h
  refine ⟨d, later.classOf? here, ?_⟩
  rw [later.agree.name_eq (lt_size_of_classOf? sound.typed here), named]

theorem HasClass.fits (h : w.HasClass (w.classes.name k) x) : w.Fits k x := by
  obtain ⟨d, here, named⟩ := h
  exact .inr ⟨d, here, ClassTable.isAssignable_of_name_eq named⟩

theorem Sound.holds_references (h : w.Sound) {type : FieldType}
    (name : w.classes.name c = .array type) {elements : Array Reference}
    (fits : ∀ x ∈ elements, x = .null ∨ w.HasClass type.className x) :
    w.Holds (.references c elements) := by
  obtain ⟨k, component, named⟩ := h.named.components c type name
  refine ⟨by rw [name]; rfl, k, component, fun x member => ?_⟩
  rcases fits x member with null | here
  · exact .inl null
  · exact (named ▸ here).fits

/-! ### Changes -/

/-- The first world has become the second one, and if it was sound, so is the second one. -/
def Preserves (w w' : World) : Prop := w.Sound → w'.Sound ∧ w.Later w'

instance : IsPreorder World Preserves where
  refl w h := ⟨h, .refl w⟩
  trans _ _ _ h h' sound := by
    obtain ⟨sound₁, later₁⟩ := h sound
    obtain ⟨sound', later'⟩ := h' sound₁
    exact ⟨sound', later₁.trans later'⟩

theorem preserves_of_same (classes : w'.classes = w.classes) (registry : w'.registry = w.registry)
    (primitives : w'.primitives = w.primitives) (heap : w'.heap = w.heap) : w.Preserves w' := by
  intro h
  have later : w.Later w' := by
    refine ⟨Nat.le_of_eq (by rw [classes]), fun i _ => by rw [classes], fun r e here => ?_⟩
    exact ⟨e, by rwa [heap], rfl, rfl⟩
  refine ⟨h.of_later later (h.named.of_same classes registry primitives) ?_, later⟩
  rw [heap]
  exact fun r e => .inl

theorem preserves_markInitialized (w : World) (c : ClassId) :
    w.Preserves (w.markInitialized c) := by
  obtain ⟨initialized, marked⟩ := markInitialized_eq w c
  rw [marked]
  exact preserves_of_same rfl rfl rfl rfl

theorem preserves_of_push {d : Class} (named : w.Named → w'.Named)
    (classes : w'.classes = w.classes.push d) (heap : w'.heap = w.heap) : w.Preserves w' := by
  intro h
  have later : w.Later w' := by
    refine ⟨?_, ?_, fun r e here => ⟨e, by rwa [heap], rfl, rfl⟩⟩
    · rw [classes, ClassTable.size_push]
      exact Nat.le_succ _
    · rw [classes]
      exact w.classes.agree_push d
  refine ⟨h.of_later later (named h.named) ?_, later⟩
  rw [heap]
  exact fun r e => .inl

theorem toleratesLoading_preserves : ToleratesLoading Preserves where
  marked w c _ _ := w.preserves_markInitialized c
  primitive w p := preserves_of_push (toleratesLoading_named.primitive w p) rfl rfl
  array w type component flags object found components new := by
    refine preserves_of_push (toleratesLoading_named.array w type component flags object found
      components new) (classes_markInitialized _ _) ?_
    obtain ⟨initialized, marked⟩ := markInitialized_eq
      (w.addClass (Class.arrayOf type component flags object)).2 w.classes.size
    rw [marked]
    rfl

theorem preserves_allocate (known : w.Sound → e.owner < w.classes.size)
    (holds : w.Sound → w.Holds e) : w.Preserves (endState (allocate e w)) := by
  intro h
  have later : w.Later (endState (allocate e w)) :=
    ⟨Nat.le_refl _, fun _ _ => rfl, fun r e' here =>
      ⟨e', Heap.get?_allocate_of_some e here, rfl, rfl⟩⟩
  refine ⟨h.of_later later (h.named.of_same rfl rfl rfl) fun r e' here => ?_, later⟩
  rw [show (endState (allocate e w)).heap = (w.heap.allocate e).2 from rfl,
    Heap.get?_allocate] at here
  split at here
  · cases here
    exact .inr ⟨known h, holds h⟩
  · exact .inl here

/-- An entity becomes one of the same class and length that holds what its class says. -/
theorem preserves_modify {f : Entity → Entity}
    (changed : ∀ e, w.Sound → w.heap.get? r = some e → e.SameShape (f e) ∧ w.Holds (f e)) :
    w.Preserves (endState (modifyEntity r f w)) := by
  intro h
  have get (r' : Reference) : (endState (modifyEntity r f w)).heap.get? r' =
      if r' = r then (w.heap.get? r').map f else w.heap.get? r' := Heap.get?_modify _ _ _ _
  have later : w.Later (endState (modifyEntity r f w)) := by
    refine ⟨Nat.le_refl _, fun _ _ => rfl, fun r' e here => ?_⟩
    by_cases same : r' = r
    · subst same
      exact ⟨f e, by rw [get, if_pos rfl, here]; rfl, (changed e h here).1⟩
    · exact ⟨e, by rw [get, if_neg same, here], rfl, rfl⟩
  refine ⟨h.of_later later (h.named.of_same rfl rfl rfl) fun r' e here => ?_, later⟩
  rw [get] at here
  split at here
  · rename_i same
    subst same
    obtain ⟨e₀, here₀, rfl⟩ := Option.map_eq_some_iff.1 here
    obtain ⟨same, holds⟩ := changed e₀ h here₀
    exact .inr ⟨same.owner ▸ h.typed.owners r' e₀ here₀, holds⟩
  · exact .inl here

theorem preserves_scalar (w : World) (r : Reference) (i : Nat) (s : Scalar) :
    w.Preserves (endState (modifyEntity r (.setScalar i s) w)) := by
  refine preserves_modify fun e h here => ?_
  have holds := h.typed.entities r e here
  cases e with
  | primitives c storage =>
    refine ⟨⟨rfl, congrArg some (storage.size_set i s)⟩, ?_⟩
    exact holds.trans (by rw [Storage.type_set])
  | _ => exact ⟨⟨rfl, rfl⟩, holds⟩

theorem preserves_scalars (w : World) (r : Reference) (i : Nat) (source : Storage) :
    w.Preserves (endState (modifyEntity r (.overwriteScalars i source) w)) := by
  refine preserves_modify fun e h here => ?_
  have holds := h.typed.entities r e here
  cases e with
  | primitives c storage =>
    refine ⟨⟨rfl, congrArg some (storage.size_overwrite i source)⟩, ?_⟩
    exact holds.trans (by rw [Storage.type_overwrite])
  | _ => exact ⟨⟨rfl, rfl⟩, holds⟩

theorem fits_of_storable (component : w.classes.component? c = some k)
    (storable : w.storable c x = true) : w.Fits k x := by
  unfold World.storable at storable
  rw [component] at storable
  cases found : w.classOf? x with
  | none =>
    rw [found] at storable
    exact .inl (of_decide_eq_true storable)
  | some d =>
    rw [found] at storable
    exact .inr ⟨d, found, storable⟩

theorem preserves_references {elements : Array Reference} (i : Nat) {source : List Reference}
    (here : w.heap.get? r = some (.references c elements))
    (fits : ∀ x ∈ source, w.storable c x = true) :
    w.Preserves (endState (modifyEntity r (.overwriteReferences i source) w)) := by
  refine preserves_modify fun e h here' => ?_
  cases here.symm.trans here'
  obtain ⟨array, k, component, before⟩ := h.typed.entities r _ here
  refine ⟨⟨rfl, congrArg some (Storage.size_splice elements i source)⟩, array, k, component, ?_⟩
  intro x member
  rcases Storage.mem_splice member with old | new
  · exact before x old
  · exact fits_of_storable component (fits x new)

theorem Later.sameShape_object {fields fields' : Fields} (later : w.Later w')
    (here : w.object? r = some (c, fields)) (found : w'.heap.get? r = some e) :
    e.SameShape (.object c fields') := by
  unfold object? at here
  split at here
  · rename_i found₀
    cases here
    obtain ⟨e', found', same⟩ := later.kept r _ found₀
    cases found.symm.trans found'
    exact ⟨same.owner.symm, same.length.symm⟩
  · cases here

theorem preserves_object {fields : Fields}
    (same : ∀ e, w.heap.get? r = some e → e.SameShape (.object c fields)) :
    w.Preserves (endState (modifyEntity r (fun _ => .object c fields) w)) :=
  preserves_modify fun e _ found => ⟨same e found, trivial⟩

theorem toleratesAllocation_preserves : ToleratesAllocation Preserves where
  loading := toleratesLoading_preserves
  object w name c fields found _ :=
    preserves_allocate (fun h => h.named.linked.registry name c found) fun _ => trivial
  classObject w name c represented component found :=
    preserves_allocate (fun h => h.named.linked.registry name c found) fun _ => trivial
  primitives w c storage found := preserves_allocate (fun h => h.named.lt_size_of_finds found)
    fun h => h.named.name_of_finds found
  nulls w type c length found := by
    refine preserves_allocate (fun h => h.named.lt_size_of_finds found) fun h => ?_
    refine h.holds_references (h.named.name_of_finds found) fun x member => .inl ?_
    exact (Array.mem_replicate.1 member).2

/-! ### Arrays with their elements -/

/-- The operation preserves typed heaps, and what it gives has the property if the heap was
typed. -/
structure Yields {α : Type} (w : World) (x : Operation α) (Q : World → α → Prop) : Prop where
  preserves : w.Preserves (endState (x w))
  gives : ∀ a w', w.Sound → x w = .ok a w' → Q w' a

namespace Yields

variable {α β : Type} {Q : World → α → Prop} {Q' : World → β → Prop}

theorem pure {a : α} (h : Q w a) : w.Yields (Pure.pure a) Q where
  preserves := refl_of Preserves w
  gives := by
    rintro _ _ - ⟨⟩
    exact h

theorem reading {f : World → Operation α} (h : w.Yields (f w) Q) :
    w.Yields (MonadState.get >>= f) Q := ⟨h.preserves, h.gives⟩

theorem throw (e : Error) : w.Yields (MonadExcept.throw e) Q where
  preserves := refl_of Preserves w
  gives := by rintro _ _ - ⟨⟩

theorem bind {x : Operation α} {f : α → Operation β} (hx : w.Yields x Q)
    (hf : ∀ a w', w.Sound → w'.Sound → w.Later w' → Q w' a → w'.Yields (f a) Q') :
    w.Yields (x >>= f) Q' := by
  have next (a : α) (w' : World) (sound : w.Sound) (ran : x w = .ok a w') :
      w'.Sound ∧ w'.Yields (f a) Q' := by
    have kept := hx.preserves sound
    rw [ran] at kept
    exact ⟨kept.1, hf a w' sound kept.1 kept.2 (hx.gives a w' sound ran)⟩
  constructor
  · intro sound
    exact Keeps.bind_of_ok hx.preserves (fun a w' ran => (next a w' sound ran).2.preserves) sound
  · intro b w' sound ran
    obtain ⟨a, w₁, first, second⟩ := bind_eq_ok.1 ran
    obtain ⟨sound₁, yields⟩ := next a w₁ sound first
    exact yields.gives b w' sound₁ second

end Yields

theorem yields_typeClass (w : World) (type : FieldType) :
    w.Yields (typeClass type)
      fun w' c => c < w'.classes.size ∧ w'.classes.name c = type.className where
  preserves := keeps_typeClass toleratesLoading_preserves type w
  gives c w' sound loaded := by
    have sound' := (keeps_typeClass toleratesLoading_preserves type w sound).1
    rw [loaded] at sound'
    have found := finds_typeClass loaded
    exact ⟨sound'.named.lt_size_of_finds found, sound'.named.name_of_finds found⟩

theorem yields_allocate (known : w.Sound → e.owner < w.classes.size) (holds : w.Sound → w.Holds e) :
    w.Yields (allocate e) fun w' r => w'.HasClass (w.classes.name e.owner) r where
  preserves := preserves_allocate known holds
  gives r w' _ placed := by
    cases placed
    refine ⟨e.owner, ?_, rfl⟩
    exact Option.map_eq_some_iff.2 ⟨e, (Heap.get?_allocate _ _ _).trans (if_pos rfl), rfl⟩

theorem yields_collect {x : Operation Reference} {name : ClassName} (n : Nat) :
    ∀ {w : World} {done : Array Reference}, (∀ w', w.Later w' → w'.Yields x (HasClass · name)) →
      (∀ r ∈ done, w.HasClass name r) →
      w.Yields (collect x n done) fun w' elements => ∀ r ∈ elements, w'.HasClass name r := by
  induction n with
  | zero => exact fun _ held => .pure held
  | succ n ih =>
    intro w done hx held
    unfold collect
    refine (hx w (.refl w)).bind fun r w₁ sound sound₁ later new => ?_
    refine ih (fun w' later' => hx w' (later.trans later')) fun r' member => ?_
    rcases Array.mem_push.1 member with old | rfl
    · exact (held r' old).later sound later
    · exact new

/-- Arrays of arrays are made of instances of the component class, at every depth. -/
theorem yields_newNestedArray (further : List Nat) :
    ∀ {w : World} {c : ClassId} (length : Nat), c < w.classes.size →
      w.Yields (newNestedArray c length further) (HasClass · (w.classes.name c)) := by
  have primitives {w : World} {c : ClassId} {p : Primitive} (length : Nat)
      (below : c < w.classes.size) (name : w.classes.name c = .array (.primitive p)) :
      w.Yields (allocate (.primitives c (.zeros p length))) (HasClass · (w.classes.name c)) :=
    yields_allocate (fun _ => below) fun _ => name
  induction further with
  | nil =>
    intro w c length below
    unfold newNestedArray
    refine .reading ?_
    split
    · exact .throw _
    · rename_i p name
      exact primitives length below name
    · rename_i type _ name
      refine yields_allocate (fun _ => below) fun h => ?_
      exact h.holds_references name fun x member => .inl (Array.mem_replicate.1 member).2
  | cons next further ih =>
    intro w c length below
    unfold newNestedArray
    refine .reading ?_
    split
    · exact .throw _
    · rename_i p name
      exact primitives length below name
    · rename_i type _ name
      -- The class that is found for the elements has the name of the component class, but need not
      -- be that class.
      refine (w.yields_typeClass type).bind fun k w₁ _ _ later₁ component => ?_
      obtain ⟨inside, named⟩ := component
      have repeated (w' : World) (later : w₁.Later w') :
          w'.Yields (newNestedArray k next further) (HasClass · type.className) := by
        rw [← named, ← later.agree.name_eq inside]
        exact ih next (Nat.lt_of_lt_of_le inside later.size)
      refine (yields_collect length repeated (by simp)).bind fun elements w₂ _ _ later₂ held => ?_
      have later := later₁.trans later₂
      have same := later.agree.name_eq below
      rw [← same]
      refine yields_allocate (fun _ => Nat.lt_of_lt_of_le below later.size) fun h => ?_
      exact h.holds_references (same.trans name) fun x member => .inr (held x member)

theorem yields_newStringOfUnits (w : World) (units : List UInt16) :
    w.Yields (newStringOfUnits units) (HasClass · stringName) := by
  unfold newStringOfUnits
  refine (w.yields_typeClass (.object "java/lang/String")).bind fun c w₁ _ _ _ string => ?_
  refine (w₁.yields_typeClass (.array (.primitive .char))).bind fun k w₂ _ _ later₂ chars => ?_
  refine (yields_allocate (e := .primitives k (.ofUnits units)) (fun _ => chars.1) fun _ =>
    chars.2).bind fun r w₃ _ _ later₃ _ => .reading ?_
  dsimp only
  split
  · have later := later₂.trans later₃
    have name : w₃.classes.name c = stringName :=
      (later.agree.name_eq string.1).trans string.2
    rw [← name]
    exact yields_allocate (fun _ => Nat.lt_of_lt_of_le string.1 later.size) fun _ => trivial
  · exact .throw _

theorem yields_newStrings (texts : List String) : ∀ w : World,
    w.Yields (newStrings texts) fun w' strings => ∀ r ∈ strings, w'.HasClass stringName r := by
  induction texts with
  | nil => exact fun w => .pure (by simp)
  | cons text rest ih =>
    intro w
    unfold newStrings
    refine (w.yields_newStringOfUnits _).bind fun r w₁ _ sound₁ _ first => ?_
    refine (ih w₁).bind fun strings w₂ _ _ later₂ others => .pure ?_
    simpa using ⟨first.later sound₁ later₂, others⟩

theorem preserves_fillInStackTrace (frames : List Frame) (throwable : Reference) :
    Keeps Preserves (fillInStackTrace frames throwable) := by
  intro w
  unfold fillInStackTrace
  rw [get_bind]
  cases here : w.object? throwable with
  | none => exact refl_of Preserves w
  | some object =>
    obtain ⟨c, fields⟩ := object
    refine (show w.Yields _ fun _ _ => True from ?_).preserves
    dsimp only
    by_cases traced : fields.contains "stackTrace" = true
    · rw [if_pos traced]
      refine (yields_newStrings _ w).bind fun strings w₁ _ sound₁ later₁ held => ?_
      refine (w₁.yields_typeClass (.array (.object "java/lang/String"))).bind
        fun k w₂ _ _ later₂ array => ?_
      refine (yields_allocate (e := .references k strings.toArray) (fun _ => array.1) fun h =>
        h.holds_references array.2 ?_).bind fun trace w₃ _ _ later₃ _ => ?_
      · exact fun x member => .inr ((held x (by simpa using member)).later sound₁ later₂)
      · refine ⟨?_, fun _ _ _ _ => trivial⟩
        unfold writeField
        rw [if_pos traced]
        exact preserves_object fun e found =>
          ((later₁.trans later₂).trans later₃).sameShape_object here found
    · rw [if_neg traced]
      exact .pure trivial

theorem toleratesCreation_preserves : ToleratesCreation Preserves where
  allocation := toleratesAllocation_preserves
  classObjects _ _ := preserves_of_same rfl rfl rfl rfl
  strings _ _ := preserves_of_same rfl rfl rfl rfl
  nested _ name c length further found sound :=
    (yields_newNestedArray further length (sound.named.linked.registry name c found)).preserves
      sound

theorem tolerated_preserves : Tolerated Preserves where
  creation := toleratesCreation_preserves
  statics _ _ _ _ _ := preserves_of_same rfl rfl rfl rfl
  console _ _ := preserves_of_same rfl rfl rfl rfl
  trace := preserves_fillInStackTrace
  field w _ _ _ _ _ here _ :=
    preserves_object fun _ found => (Later.refl w).sameShape_object here found
  scalar := preserves_scalar
  scalars := preserves_scalars
  references _ _ _ _ i _ here fits := preserves_references i here fits

/-! ### Programs -/

theorem yields_defineClass (w : World) {d : ClassDefinition} (scalar : d.name.isArray = false) :
    w.Yields (defineClass d) fun w' c => c < w'.classes.size where
  preserves := preserves_of_push (fun named => named.define scalar) rfl rfl
  gives := by
    rintro c w' - ⟨⟩
    simp only [ClassTable.size_push]
    exact Nat.lt_succ_self _

theorem yields_newStream {owner : ClassId} (below : owner < w.classes.size) (descriptor : Int32) :
    w.Yields (newStream owner descriptor) fun _ _ => True where
  preserves := preserves_allocate (fun _ => below) fun _ => trivial
  gives _ _ _ _ := trivial

theorem yields_bootstrap (w : World) : w.Yields bootstrap fun _ _ => True := by
  unfold bootstrap
  refine (yields_defineClass _ rfl).bind fun object w₁ _ _ _ _ => ?_
  refine (yields_defineClass _ rfl).bind fun _ w₂ _ _ _ _ => ?_
  refine (yields_defineClass _ rfl).bind fun _ w₃ _ _ _ _ => ?_
  refine (yields_defineClass _ rfl).bind fun printStream w₄ _ _ _ below₄ => ?_
  refine (yields_defineClass _ rfl).bind fun system w₅ _ _ later₅ _ => ?_
  have below₅ := Nat.lt_of_lt_of_le below₄ later₅.size
  refine (yields_newStream below₅ 1).bind fun out w₆ _ _ later₆ _ => ?_
  refine (yields_newStream (Nat.lt_of_lt_of_le below₅ later₆.size) 2).bind fun err w₇ _ _ _ _ => ?_
  exact ⟨preserves_of_same rfl rfl rfl rfl, fun _ _ _ _ => trivial⟩

theorem sound_start (console : Console) (clock : Nat) : (start console clock).Sound := by
  have initial : (World.empty console clock).Sound := by
    refine ⟨named_empty console clock, fun r e here => ?_, fun r e here => ?_⟩
    all_goals cases r <;> cases here
  rw [start_eq]
  exact ((yields_bootstrap _).preserves initial).1

/-- The heap of a program that has not run yet is typed. -/
theorem heapTyped_ofProgram (console : Console) (clock : Nat) {program : List ClassDefinition}
    (scalar : ∀ d ∈ program, d.name.isArray = false) :
    (ofProgram console clock program).HeapTyped := by
  refine (program.foldlRecOn (motive := Sound) _ (sound_start console clock) ?_).typed
  intro w sound d member
  exact ((yields_defineClass w (scalar d member)).preserves sound).1

end World

end JavaMachine
