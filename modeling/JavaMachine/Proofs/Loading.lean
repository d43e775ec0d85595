import JavaMachine.Proofs.Effects
import JavaMachine.Proofs.TableExtension
import JavaMachine.World.Bootstrap

/-!
# What loading does

Loading makes array classes and the classes of primitive types, and nothing else. Which types can
be loaded, and which class a type leads to, is therefore settled before: any later loading gives the
same answer, except for the numbers of the classes that were made in between.
-/
namespace JavaMachine

def Class.IsMade (c : Class) : Prop :=
  (∃ p, c = .ofPrimitive p) ∨ ∃ type i flags object, c = .arrayOf type i flags object

namespace World

/-- The classes found by name, and those of the primitive types, are in the table. -/
structure Linked (w : World) : Prop where
  registry : ∀ name k, w.registry.get? name = some k → k < w.classes.size
  primitives : ∀ p k, w.primitives.get? p = some k → k < w.classes.size

theorem Linked.of_same {w w' : World} (h : w.Linked) (classes : w'.classes = w.classes)
    (registry : w'.registry = w.registry) (primitives : w'.primitives = w.primitives) :
    w'.Linked := by
  constructor
  · rw [classes, registry]
    exact h.registry
  · rw [classes, primitives]
    exact h.primitives

theorem Linked.addClass {w : World} (h : w.Linked) (c : Class) : (w.addClass c).2.Linked := by
  constructor
  · intro name k found
    simp only [World.addClass] at found ⊢
    rw [FiniteMap.get?_insert] at found
    rw [ClassTable.size_push]
    split at found
    · cases found
      exact Nat.lt_succ_self _
    · exact Nat.lt_succ_of_lt (h.registry name k found)
  · intro p k found
    simp only [World.addClass] at found ⊢
    rw [ClassTable.size_push]
    exact Nat.lt_succ_of_lt (h.primitives p k found)

theorem Linked.markInitialized {w : World} (h : w.Linked) (c : ClassId) :
    (w.markInitialized c).Linked := by
  unfold World.markInitialized
  split
  · exact h
  · exact ⟨h.registry, h.primitives⟩

theorem toleratesHeap_linked : ToleratesHeap fun w w' => w.Linked → w'.Linked where
  heap _ _ h := ⟨h.registry, h.primitives⟩
  statics _ _ _ _ h := ⟨h.registry, h.primitives⟩
  classObjects _ _ h := ⟨h.registry, h.primitives⟩
  strings _ _ h := ⟨h.registry, h.primitives⟩
  console _ _ h := ⟨h.registry, h.primitives⟩
  primitive w p h := by
    constructor
    · intro name k found
      rw [ClassTable.size_push]
      exact Nat.lt_succ_of_lt (h.registry name k found)
    · intro q k found
      rw [FiniteMap.get?_insert] at found
      rw [ClassTable.size_push]
      split at found
      · cases found
        exact Nat.lt_succ_self _
      · exact Nat.lt_succ_of_lt (h.primitives q k found)
  array w type component flags object _ _ _ h := (h.addClass _).markInitialized _
  marked _ c _ _ h := h.markInitialized c

theorem tolerated_linked : Tolerated fun w w' => w.Linked → w'.Linked :=
  toleratesHeap_linked.tolerated

theorem start_eq (console : Console) (clock : Nat) :
    start console clock = endState (bootstrap (World.empty console clock)) := by
  unfold start
  split <;> rename_i booted <;> rw [booted] <;> rfl

/-- What definitions of classes preserve holds from the start, if it is about the tables of classes
only. -/
theorem start_induction {P : World → Prop} {console : Console} {clock : Nat}
    (empty : P (World.empty console clock))
    (define : ∀ (w : World) (d : ClassDefinition), d.name.isArray = false → P w → P (w.define d).2)
    (same : ∀ w w' : World, w'.classes = w.classes → w'.registry = w.registry →
      w'.primitives = w.primitives → P w → P w') : P (start console clock) := by
  have define (d : ClassDefinition) (scalar : d.name.isArray = false) :
      Keeps (fun w w' => P w → P w') (defineClass d) := fun w => define w d scalar
  have stream (owner : ClassId) (descriptor : Int32) :
      Keeps (fun w w' => P w → P w') (newStream owner descriptor) :=
    .bind .get fun _ w => same w _ rfl rfl rfl
  have kept : Keeps (fun w w' => P w → P w') bootstrap := by
    unfold bootstrap
    refine .bind (define _ rfl) fun object => .bind (define _ rfl) fun _ => ?_
    refine .bind (define _ rfl) fun _ => .bind (define _ rfl) fun printStream => ?_
    refine .bind (define _ rfl) fun system => ?_
    refine .bind (stream _ _) fun out => .bind (stream _ _) fun err => ?_
    exact .modify fun w => same w _ rfl rfl rfl
  rw [start_eq]
  exact kept _ empty

theorem linked_start (console : Console) (clock : Nat) : (start console clock).Linked := by
  refine start_induction ⟨?_, ?_⟩ (fun w d _ h => h.addClass _) fun _ _ classes registry primitives
    h => h.of_same classes registry primitives
  · intro name k found
    cases found
  · intro p k found
    cases found

theorem Linked.define {w : World} (h : w.Linked) (d : ClassDefinition) : (w.define d).2.Linked :=
  h.addClass _

/-! ### Types and their classes -/

/-- The class of the type is there or can be made. -/
def Loadable (w : World) : FieldType → Prop
  | .primitive _ => True
  | .object name => ∃ k, w.registry.get? (.scalar name) = some k
  | .array type => (∃ k, w.registry.get? (.array type) = some k) ∨
      Loadable w type ∧ ∃ k, w.registry.get? (.scalar "java/lang/Object") = some k

/-- The class is what the type leads to from a world: the class found there, or one made since. The
table is a later one. -/
def Represents (w : World) (t : ClassTable) : FieldType → ClassId → Prop
  | .primitive p, k =>
    w.primitives.get? p = some k ∨
      w.primitives.get? p = none ∧ t.get? k = some (.ofPrimitive p)
  | .object name, k => w.registry.get? (.scalar name) = some k
  | .array type, k =>
    w.registry.get? (.array type) = some k ∨
      w.registry.get? (.array type) = none ∧ ∃ i flags object,
        t.get? k = some (.arrayOf type i flags object) ∧ i < k ∧ Represents w t type i ∧
          w.registry.get? (.scalar "java/lang/Object") = some object

theorem Represents.loadable {w : World} {t : ClassTable} {type : FieldType} {k : ClassId}
    (h : Represents w t type k) : w.Loadable type := by
  induction type generalizing k with
  | primitive p => trivial
  | object name => exact ⟨k, h⟩
  | array type ih =>
    rcases h with found | ⟨-, i, flags, object, -, -, component, root⟩
    · exact .inl ⟨k, found⟩
    · exact .inr ⟨ih component, object, root⟩

theorem Represents.push {w : World} {t : ClassTable} {type : FieldType} {k : ClassId}
    (h : Represents w t type k) (d : Class) : Represents w (t.push d) type k := by
  induction type generalizing k with
  | primitive p =>
    rcases h with found | ⟨fresh, made⟩
    · exact .inl found
    · exact .inr ⟨fresh, ClassTable.get?_push_of_some made⟩
  | object name => exact h
  | array type ih =>
    rcases h with found | ⟨fresh, i, flags, object, made, lower, component, root⟩
    · exact .inl found
    · have made' := ClassTable.get?_push_of_some (c := d) made
      exact .inr ⟨fresh, i, flags, object, made', lower, ih component, root⟩

theorem Represents.lt_size {w : World} (linked : w.Linked) {t : ClassTable} {type : FieldType}
    {k : ClassId} (h : Represents w t type k) (size : w.classes.size ≤ t.size) : k < t.size := by
  cases type with
  | primitive p =>
    rcases h with found | ⟨-, made⟩
    · exact Nat.lt_of_lt_of_le (linked.primitives p k found) size
    · exact ClassTable.lt_size_of_get? made
  | object name => exact Nat.lt_of_lt_of_le (linked.registry _ k h) size
  | array type =>
    rcases h with found | ⟨-, i, flags, object, made, -⟩
    · exact Nat.lt_of_lt_of_le (linked.registry _ k found) size
    · exact ClassTable.lt_size_of_get? made

theorem Represents.alike {w : World} (linked : w.Linked) {t t' : ClassTable} {type : FieldType}
    {k k' : ClassId} (h : Represents w t type k) (h' : Represents w t' type k') :
    ClassTable.Alike w.classes.size t t' k k' := by
  induction type generalizing k k' with
  | primitive p =>
    rcases h with found | ⟨none, made⟩ <;> rcases h' with found' | ⟨none', made'⟩
    · cases found.symm.trans found'
      exact .known (linked.primitives p k found)
    · cases found.symm.trans none'
    · cases none.symm.trans found'
    · exact .primitive made made'
  | object name =>
    cases h.symm.trans h'
    exact .known (linked.registry _ k h)
  | array type ih =>
    rcases h with found | ⟨none, i, flags, object, made, lower, component, -⟩ <;>
      rcases h' with found' | ⟨none', i', flags', object', made', lower', component', -⟩
    · cases found.symm.trans found'
      exact .known (linked.registry _ k found)
    · cases found.symm.trans none'
    · cases none.symm.trans found'
    · exact .array made lower made' lower' (ih component component')

/-! ### Worlds after loading -/

/-- The world has come from the first one by loading. -/
structure Loads (w w' : World) : Prop where
  known : w.Linked
  linked : w'.Linked
  size : w.classes.size ≤ w'.classes.size
  agree : ClassTable.Agree w.classes.size w.classes w'.classes
  made : ∀ k c, w.classes.size ≤ k → w'.classes.get? k = some c → c.IsMade
  scalars : ∀ name, w'.registry.get? (.scalar name) = w.registry.get? (.scalar name)
  arrays : ∀ type k, w.registry.get? (.array type) = some k →
    w'.registry.get? (.array type) = some k
  newArrays : ∀ type k, w'.registry.get? (.array type) = some k →
    Represents w w'.classes (.array type) k
  primitives : ∀ p k, w.primitives.get? p = some k → w'.primitives.get? p = some k
  newPrimitives : ∀ p k, w'.primitives.get? p = some k →
    Represents w w'.classes (.primitive p) k
  rest : w' = { w with
    classes := w'.classes
    registry := w'.registry
    primitives := w'.primitives
    initialized := w'.initialized }

theorem Loads.refl {w : World} (linked : w.Linked) : w.Loads w where
  known := linked
  linked := linked
  size := Nat.le_refl _
  agree _ _ := rfl
  made _ _ above found := absurd (ClassTable.lt_size_of_get? found) (Nat.not_lt.2 above)
  scalars _ := rfl
  arrays _ _ found := found
  newArrays _ _ found := .inl found
  primitives _ _ found := found
  newPrimitives _ _ found := .inl found
  rest := rfl

variable {w w₁ w' : World}

theorem Loads.agree_push (h : w.Loads w₁) (c : Class) :
    ClassTable.Agree w.classes.size w.classes (w₁.classes.push c) := by
  intro i below
  rw [ClassTable.get?_push, if_neg (Nat.ne_of_lt (Nat.lt_of_lt_of_le below h.size)),
    h.agree i below]

theorem Loads.size_push (h : w.Loads w₁) (c : Class) :
    w.classes.size ≤ (w₁.classes.push c).size := by
  rw [ClassTable.size_push]
  exact Nat.le_succ_of_le h.size

theorem Loads.made_push (h : w.Loads w₁) {d : Class} (made : d.IsMade) (k : ClassId) (c : Class)
    (above : w.classes.size ≤ k) (found : (w₁.classes.push d).get? k = some c) : c.IsMade := by
  rw [ClassTable.get?_push] at found
  split at found
  · cases found
    exact made
  · exact h.made k c above found

theorem Loads.array_eq_none (h : w.Loads w₁) {type : FieldType}
    (found : w₁.registry.get? (.array type) = none) : w.registry.get? (.array type) = none := by
  cases before : w.registry.get? (.array type) with
  | none => rfl
  | some k =>
    rw [h.arrays type k before] at found
    cases found

theorem primitiveClass_loads (h : w.Loads w₁) (p : Primitive) :
    ∃ k w', primitiveClass p w₁ = .ok k w' ∧ w.Loads w' ∧
      Represents w w'.classes (.primitive p) k := by
  unfold primitiveClass
  cases found : w₁.primitives.get? p with
  | some k => exact ⟨k, w₁, rfl, h, h.newPrimitives p k found⟩
  | none =>
    have fresh : w.primitives.get? p = none := by
      cases before : w.primitives.get? p with
      | none => rfl
      | some k => rw [h.primitives p k before] at found; cases found
    have represents : Represents w (w₁.classes.push (Class.ofPrimitive p)) (.primitive p)
        w₁.classes.size := .inr ⟨fresh, by rw [ClassTable.get?_push, if_pos rfl]⟩
    refine ⟨_, _, rfl, ?_, represents⟩
    constructor
    · exact h.known
    · exact tolerated_linked.primitive w₁ p h.linked
    · exact h.size_push _
    · exact h.agree_push _
    · exact h.made_push (.inl ⟨p, rfl⟩)
    · exact h.scalars
    · exact h.arrays
    · intro type k at'
      exact (h.newArrays type k at').push _
    · intro q k before
      rw [FiniteMap.get?_insert, if_neg]
      · exact h.primitives q k before
      · rintro rfl
        rw [fresh] at before
        cases before
    · intro q k at'
      rw [FiniteMap.get?_insert] at at'
      split at at'
      · rename_i same
        cases at'
        rw [same]
        exact represents
      · exact (h.newPrimitives q k at').push _
    · rw [h.rest]

theorem markInitialized_eq (w : World) (c : ClassId) :
    ∃ initialized, w.markInitialized c = { w with initialized := initialized } := by
  unfold markInitialized
  split
  · exact ⟨w.initialized, rfl⟩
  · exact ⟨c :: w.initialized, rfl⟩

/-- An array class that is made for a type is what the type leads to. -/
theorem Loads.represents_arrayOf (h : w.Loads w₁) {type : FieldType} {component object : ClassId}
    (flags : UInt16) (represents : Represents w w₁.classes type component)
    (fresh : w.registry.get? (.array type) = none)
    (root : w₁.registry.get? (.scalar "java/lang/Object") = some object) :
    Represents w (w₁.classes.push (Class.arrayOf type component flags object)) (.array type)
      w₁.classes.size := by
  refine .inr ⟨fresh, component, flags, object, ?_, ?_, represents.push _, ?_⟩
  · rw [ClassTable.get?_push, if_pos rfl]
  · exact represents.lt_size h.known h.size
  · rw [← h.scalars, root]

theorem Loads.addArray (h : w.Loads w₁) {type : FieldType} {component object : ClassId}
    (flags : UInt16) (represents : Represents w w₁.classes type component)
    (fresh : w.registry.get? (.array type) = none)
    (root : w₁.registry.get? (.scalar "java/lang/Object") = some object)
    (w' : World) (hw : w' =
      (w₁.addClass (Class.arrayOf type component flags object)).2.markInitialized
        w₁.classes.size) :
    w.Loads w' ∧ Represents w w'.classes (.array type) w₁.classes.size := by
  have linked : w'.Linked := by
    rw [hw]
    exact (h.linked.addClass _).markInitialized _
  obtain ⟨initialized, added⟩ := markInitialized_eq
    (w₁.addClass (Class.arrayOf type component flags object)).2 w₁.classes.size
  have eq : w' = { w₁ with
      classes := w₁.classes.push (Class.arrayOf type component flags object)
      registry := w₁.registry.insert (.array type) w₁.classes.size
      initialized := initialized } := hw.trans added
  clear hw added
  subst eq
  have made := h.represents_arrayOf flags represents fresh root
  refine ⟨?_, made⟩
  constructor
  · exact h.known
  · exact linked
  · exact h.size_push _
  · exact h.agree_push _
  · exact h.made_push (.inr ⟨type, component, flags, object, rfl⟩)
  · intro name
    rw [FiniteMap.get?_insert, if_neg (fun same => nomatch same)]
    exact h.scalars name
  · intro other k before
    rw [FiniteMap.get?_insert, if_neg]
    · exact h.arrays other k before
    · rintro ⟨⟩
      rw [fresh] at before
      cases before
  · intro other k at'
    rw [FiniteMap.get?_insert] at at'
    split at at'
    · rename_i same
      cases same
      cases at'
      exact made
    · exact (h.newArrays other k at').push _
  · exact h.primitives
  · intro p k at'
    exact (h.newPrimitives p k at').push _
  · rw [h.rest]

theorem loadClass_eq (name : ClassName) : loadClass name = typeClass name.type := by
  cases name <;> rfl

/-- What loading a type comes to: the class that it leads to, or the failure to find a class. -/
def Settles (w : World) (type : FieldType) : EStateM.Result Error World ClassId → Prop
  | .ok k w' => w.Loads w' ∧ Represents w w'.classes type k
  | .error e w' => w.Loads w' ∧ ¬ w.Loadable type ∧ ∃ name, e = .classNotFound name

theorem loadScalar_settles (h : w.Loads w₁) (name : String) :
    Settles w (.object name) (loadScalar name w₁) := by
  unfold loadScalar
  rw [h.scalars]
  cases found : w.registry.get? (.scalar name) with
  | some k => exact ⟨h, found⟩
  | none =>
    refine ⟨h, ?_, name, rfl⟩
    rintro ⟨k, before⟩
    rw [found] at before
    cases before

theorem makeArrayClass_settles (h : w.Loads w₁) {type : FieldType} {component : ClassId}
    (represents : Represents w w₁.classes type component)
    (fresh : w.registry.get? (.array type) = none) :
    Settles w (.array type) (makeArrayClass type component w₁) := by
  have root := loadScalar_settles h "java/lang/Object"
  unfold makeArrayClass
  change Settles w _ (EStateM.bind (loadScalar _) _ w₁)
  unfold EStateM.bind
  cases hl : loadScalar "java/lang/Object" w₁ with
  | ok object w₂ =>
    unfold loadScalar at hl
    split at hl
    · rename_i k object'
      cases hl
      exact h.addArray _ represents fresh object' _ rfl
    · cases hl
  | error e w₂ =>
    rw [hl] at root
    obtain ⟨loads, unknown, name, rfl⟩ := root
    refine ⟨loads, ?_, name, rfl⟩
    rintro (⟨k, before⟩ | ⟨-, object⟩)
    · rw [fresh] at before
      cases before
    · exact unknown object

/-- Loading gives the class that the type leads to from the first world, and fails only if there
is none. -/
theorem typeClass_settles (h : w.Loads w₁) (type : FieldType) :
    Settles w type (typeClass type w₁) := by
  induction type generalizing w₁ with
  | primitive p =>
    obtain ⟨k, w', loaded, loads, represents⟩ := primitiveClass_loads h p
    change Settles w _ (primitiveClass p w₁)
    rw [loaded]
    exact ⟨loads, represents⟩
  | object name => exact loadScalar_settles h name
  | array type ih =>
    change Settles w _ (loadArray type w₁)
    rw [loadArray_eq]
    cases found : w₁.registry.get? (.array type) with
    | some k => exact ⟨h, h.newArrays type k found⟩
    | none =>
      have fresh := h.array_eq_none found
      have component := ih h
      change Settles w _ (EStateM.bind (typeClass type) _ w₁)
      unfold EStateM.bind
      cases hc : typeClass type w₁ with
      | ok k w₂ =>
        rw [hc] at component
        obtain ⟨loads, represents⟩ := component
        exact makeArrayClass_settles loads represents fresh
      | error e w₂ =>
        rw [hc] at component
        obtain ⟨loads, unknown, missing⟩ := component
        refine ⟨loads, ?_, missing⟩
        rintro (⟨k, before⟩ | ⟨loadable, -⟩)
        · rw [fresh] at before
          cases before
        · exact unknown loadable

end World

end JavaMachine
