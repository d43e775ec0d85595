import JavaMachine.Proofs.Superinterfaces
import JavaMachine.Proofs.TableExtension
import JavaMachine.World.Loading

/-!
# Subtyping

The subtype relation of classes is generated by superclasses, implemented interfaces, the classes
that every array is an instance of, and arrays of subtypes. In a hierarchy where classes extend
ordinary classes and interfaces only the root, the test for assignability decides it. The test
follows one superclass chain or the interfaces, never one after the other, so it is transitive only
because nothing but the root is above an interface.
-/
namespace JavaMachine

namespace ClassTable

open World (objectName)

variable {t : ClassTable} {a b c i j k l o s : ClassId}

def IsPrimitive (t : ClassTable) (c : ClassId) : Prop := ∃ p, t.get? c = some (.ofPrimitive p)

/-- The class stands for the type. -/
def StandsFor (t : ClassTable) : FieldType → ClassId → Prop
  | .primitive p, c => t.get? c = some (.ofPrimitive p)
  | .object name, c => t.name c = .scalar name ∧ ¬ t.IsPrimitive c
  | .array type, c => t.name c = .array type

/-- The class is an array class as loading makes it. -/
def IsArrayClass (t : ClassTable) (c : ClassId) : Prop :=
  ∃ type component flags object, t.get? c = some (.arrayOf type component flags object) ∧
    component < c ∧ t.StandsFor type component ∧ object < c ∧ t.name object = objectName

/-- Names are unique, array classes are those that loading makes, only the root and the classes of
primitive types have no superclass, no superclass is an interface, and the root and the interfaces
of arrays are at the top. -/
structure Hierarchy (t : ClassTable) : Prop where
  unique : ∀ a b, a < t.size → b < t.size → t.name a = t.name b → a = b
  arrays : ∀ c, (t.name c).isArray = true ∨ (t.component? c).isSome = true → t.IsArrayClass c
  rooted : ∀ c, c < t.size → t.superclass? c = none → t.name c = objectName ∨ t.IsPrimitive c
  extended : ∀ c s, t.superclass? c = some s → t.isInterface s = false
  root : ∀ c, t.name c = objectName → t.interfaces c = []
  bare : ∀ c, t.name c ∈ arrayInterfaces →
    t.interfaces c = [] ∧ ∀ s, t.superclass? c = some s → t.name s = objectName

/-- What is extended is an ordinary class, and interfaces extend the root only. -/
structure PlainHierarchy (t : ClassTable) : Prop extends Hierarchy t where
  ordinary : ∀ c s, t.superclass? c = some s → (t.name s).isArray = false ∧ ¬ t.IsPrimitive s
  interfaces : ∀ c s, t.isInterface c = true → t.superclass? c = some s → t.name s = objectName

/-- The subtype relation. -/
inductive IsSubtype (t : ClassTable) : ClassId → ClassId → Prop
  | refl (c : ClassId) : IsSubtype t c c
  | trans {a b c : ClassId} (h : IsSubtype t a b) (h' : IsSubtype t b c) : IsSubtype t a c
  | superclass {c s : ClassId} (h : t.superclass? c = some s) : IsSubtype t c s
  | interface {c i : ClassId} (h : t.Superinterface c i) (h' : t.isInterface i = true) :
      IsSubtype t c i
  | root {a o : ClassId} (array : (t.name a).isArray = true) (h : t.name o = objectName) :
      IsSubtype t a o
  | arrayInterface {a i : ClassId} (array : (t.name a).isArray = true)
      (h : t.name i ∈ arrayInterfaces) : IsSubtype t a i
  | array {a b k l : ClassId} (ha : t.component? a = some k) (hb : t.component? b = some l)
      (hk : ¬ t.IsPrimitive k) (hl : ¬ t.IsPrimitive l) (h : IsSubtype t k l) : IsSubtype t a b

/-! ### Names and walks -/

theorem lt_size_of_name (h : t.name c ≠ .scalar "") : c < t.size := by
  by_contra above
  exact h (by rw [name, get?_eq_none (Nat.not_lt.1 above)])

theorem lt_size_of_root (h : t.name o = objectName) : o < t.size :=
  lt_size_of_name (by rw [h]; decide)

theorem lt_size_of_arrayInterface (h : t.name i ∈ arrayInterfaces) : i < t.size := by
  refine lt_size_of_name fun empty => ?_
  rw [empty] at h
  exact absurd h (by decide)

theorem isArray_of_mem_arrayInterfaces {n : ClassName} (h : n ∈ arrayInterfaces) :
    n.isArray = false := by
  rcases List.mem_pair.1 h with rfl | rfl <;> rfl

theorem lt_size_of_superclass? (h : t.superclass? c = some s) : c < t.size := by
  by_contra above
  rw [superclass?, get?_eq_none (Nat.not_lt.1 above)] at h
  cases h

theorem lt_size_of_component (h : t.component? a = some k) : a < t.size := by
  by_contra above
  rw [component?, get?_eq_none (Nat.not_lt.1 above)] at h
  cases h

theorem lt_of_superinterface (h : t.Superinterface c i) : i < c :=
  lt_of_transGen t.inheritedInterfaces_descending h

theorem mem_inheritedInterfaces (listed : i ∈ t.interfaces c) : i ∈ t.inheritedInterfaces c :=
  List.mem_flatMap.2 ⟨c, mem_superclasses_self t c, listed⟩

theorem not_superinterface (h : t.inheritedInterfaces c = []) : ¬ t.Superinterface c i := by
  intro implemented
  obtain ⟨j, listed, -⟩ := Relation.TransGen.head'_iff.1 implemented
  rw [h] at listed
  cases listed

theorem IsPrimitive.superclass? (h : t.IsPrimitive c) : t.superclass? c = none := by
  obtain ⟨p, made⟩ := h
  simp [ClassTable.superclass?, made, Class.ofPrimitive]

theorem not_isPrimitive_of_superclass? (up : t.superclass? c = some s) : ¬ t.IsPrimitive c := by
  intro primitive
  rw [primitive.superclass?] at up
  cases up

theorem IsPrimitive.isInterface (h : t.IsPrimitive c) : t.isInterface c = false := by
  obtain ⟨p, made⟩ := h
  rw [ClassTable.isInterface, made]
  cases p <;> rfl

theorem IsPrimitive.not_superinterface (h : t.IsPrimitive c) : ¬ t.Superinterface c i := by
  apply ClassTable.not_superinterface
  rw [inheritedInterfaces, superclasses_of_none h.superclass?]
  obtain ⟨p, made⟩ := h
  simp [ClassTable.interfaces, made, Class.ofPrimitive]

theorem IsPrimitive.name_ne_objectName (h : t.IsPrimitive c) : t.name c ≠ objectName := by
  obtain ⟨p, made⟩ := h
  rw [name, made]
  cases p <;> decide

theorem name_of_standsFor_primitive {p : Primitive} (h : t.StandsFor (.primitive p) k) :
    t.name k = .scalar p.keyword := by
  rw [name, show t.get? k = _ from h]
  rfl

theorem StandsFor.unique {type type' : FieldType} (h : t.StandsFor type k)
    (h' : t.StandsFor type' k) : type = type' := by
  cases type with
  | primitive p =>
    have named := name_of_standsFor_primitive h
    cases type' with
    | primitive p' =>
      have keywords := ClassName.scalar.inj (named.symm.trans (name_of_standsFor_primitive h'))
      have read := Primitive.ofKeyword?_keyword p
      rw [keywords, Primitive.ofKeyword?_keyword] at read
      rw [Option.some.inj read]
    | object name' => exact absurd ⟨p, h⟩ h'.2
    | array inner' => cases named.symm.trans h'
  | object name =>
    cases type' with
    | primitive p' => exact absurd ⟨p', h'⟩ h.2
    | object name' => rw [ClassName.scalar.inj (h.1.symm.trans h'.1)]
    | array inner' => cases h.1.symm.trans h'
  | array inner =>
    cases type' with
    | primitive p' => cases (name_of_standsFor_primitive h').symm.trans h
    | object name' => cases h'.1.symm.trans h
    | array inner' => rw [ClassName.array.inj (h.symm.trans h')]

theorem isSubtype_of_mem_superclasses (member : b ∈ t.superclasses a) : t.IsSubtype a b := by
  have path := mem_superclasses.1 member
  clear member
  induction path with
  | refl => exact .refl a
  | tail _ up ih => exact .trans ih (.superclass up)

namespace IsArrayClass

variable (h : t.IsArrayClass a)
include h

theorem isArray : (t.name a).isArray = true := by
  obtain ⟨type, component, flags, object, made, -⟩ := h
  rw [name, made]
  rfl

theorem isInterface : t.isInterface a = false := by
  obtain ⟨type, component, flags, object, made, -⟩ := h
  rw [ClassTable.isInterface, made]
  exact isInterface_arrayOf type component flags object

theorem interfaces : t.interfaces a = [] := by
  obtain ⟨type, component, flags, object, made, -⟩ := h
  simp [ClassTable.interfaces, made, Class.arrayOf]

theorem exists_superclass : ∃ o, t.superclass? a = some o ∧ t.name o = objectName := by
  obtain ⟨type, component, flags, object, made, -, -, lower, root⟩ := h
  exact ⟨object, by simp [superclass?, made, Class.arrayOf, earlier, lower], root⟩

theorem capped (up : t.superclass? a = some s) : t.name s = objectName := by
  obtain ⟨o, extended, root⟩ := h.exists_superclass
  cases up.symm.trans extended
  exact root

theorem exists_component :
    ∃ type k, t.name a = .array type ∧ t.component? a = some k ∧ t.StandsFor type k := by
  obtain ⟨type, component, flags, object, made, lower, stands, -⟩ := h
  exact ⟨type, component, by simp [name, made, Class.arrayOf],
    by simp [component?, made, Class.arrayOf, earlier, lower], stands⟩

theorem not_isPrimitive : ¬ t.IsPrimitive a := by
  obtain ⟨o, up, -⟩ := h.exists_superclass
  exact not_isPrimitive_of_superclass? up

end IsArrayClass

namespace Hierarchy

variable (h : t.Hierarchy)
include h

theorem sameName_iff (ha : a < t.size) (hb : b < t.size) : t.sameName a b = true ↔ a = b := by
  rw [sameName, beq_iff_eq]
  exact ⟨h.unique a b ha hb, fun same => congrArg t.name same⟩

theorem isDescendant_iff (ha : a < t.size) (hb : b < t.size) :
    t.isDescendant a b = true ↔ b ∈ t.superclasses a := by
  rw [isDescendant, List.any_eq_true]
  constructor
  · rintro ⟨k, member, same⟩
    have hk := Nat.lt_of_le_of_lt (le_of_mem_superclasses member) ha
    exact (h.sameName_iff hk hb).1 same ▸ member
  · intro member
    exact ⟨b, member, (h.sameName_iff hb hb).2 rfl⟩

theorem implements_iff (ha : a < t.size) (hb : b < t.size) :
    t.implements a b = true ↔ t.Superinterface a b := by
  rw [implements, List.any_eq_true, ← mem_superinterfaces]
  constructor
  · rintro ⟨k, member, same⟩
    have hk := Nat.lt_of_le_of_lt (le_of_mem_superinterfaces member) ha
    exact (h.sameName_iff hk hb).1 same ▸ member
  · intro member
    exact ⟨b, member, (h.sameName_iff hb hb).2 rfl⟩

theorem isArrayClass_of_component (component : t.component? a = some k) : t.IsArrayClass a :=
  h.arrays a (.inr (Option.isSome_of_eq_some component))

theorem eq_of_component (ha : a < t.size) (hb : b < t.size) (ka : t.component? a = some k)
    (kb : t.component? b = some k) : a = b := by
  obtain ⟨type, i, na, ia, stands⟩ := (h.isArrayClass_of_component ka).exists_component
  obtain ⟨type', i', nb, ib, stands'⟩ := (h.isArrayClass_of_component kb).exists_component
  cases ka.symm.trans ia
  cases kb.symm.trans ib
  exact h.unique a b ha hb (by rw [na, nb, stands.unique stands'])

/-- The three ways to be assignable: by identity, by the components of arrays, and otherwise. -/
theorem isAssignable_iff (ha : a < t.size) (hb : b < t.size) : t.isAssignable a b = true ↔
    a = b ∨ (∃ k l, t.component? a = some k ∧ t.component? b = some l ∧
        (t.superclass? k).isSome = true ∧ t.isAssignable k l = true) ∨
      (t.component? a = none ∨ t.component? b = none) ∧
        ((t.name a).isArray = true ∧ t.name b ∈ arrayInterfaces ∨
          t.isInterface b = true ∧ t.Superinterface a b ∨
          t.isInterface b = false ∧ b ∈ t.superclasses a) := by
  rw [isAssignable_eq, Bool.or_eq_true, h.sameName_iff ha hb]
  apply or_congr_right
  have others : (((t.name a).isArray && arrayInterfaces.contains (t.name b)) ||
      if t.isInterface b then t.implements a b else t.isDescendant a b) = true ↔
        ((t.name a).isArray = true ∧ t.name b ∈ arrayInterfaces ∨
          t.isInterface b = true ∧ t.Superinterface a b ∨
          t.isInterface b = false ∧ b ∈ t.superclasses a) := by
    rw [Bool.or_eq_true, Bool.and_eq_true, List.contains_iff_mem]
    apply or_congr_right
    cases t.isInterface b with
    | true => simpa using h.implements_iff ha hb
    | false => simpa using h.isDescendant_iff ha hb
  cases ka : t.component? a with
  | none => simpa [ka] using others
  | some k =>
    cases kb : t.component? b with
    | none => simpa [ka, kb] using others
    | some l => simp

theorem component?_eq_none (plain : (t.name a).isArray = false) : t.component? a = none := by
  cases component : t.component? a with
  | none => rfl
  | some k =>
    rw [(h.isArrayClass_of_component component).isArray] at plain
    cases plain

end Hierarchy

/-! ### The top of the hierarchy -/

namespace PlainHierarchy

variable (h : t.PlainHierarchy)
include h

theorem superclass?_root (root : t.name o = objectName) : t.superclass? o = none := by
  have lower : ∀ c < o, ¬ t.IsPrimitive c → False := by
    intro c
    induction c using Nat.strongRecOn with
    | ind c ih =>
      intro below plain
      have inside := Nat.lt_trans below (lt_size_of_root root)
      cases up : t.superclass? c with
      | none =>
        have named := (h.rooted c inside up).resolve_right plain
        exact absurd (h.unique c o inside (lt_size_of_root root) (named.trans root.symm))
          (Nat.ne_of_lt below)
      | some s =>
        have higher := superclass?_lt up
        exact ih s higher (Nat.lt_trans higher below) (h.ordinary c s up).2
  cases up : t.superclass? o with
  | none => rfl
  | some s => exact (lower s (superclass?_lt up) (h.ordinary o s up).2).elim

theorem superclasses_root (root : t.name o = objectName) : t.superclasses o = [o] :=
  superclasses_of_none (h.superclass?_root root)

theorem root_mem_superclasses (inside : c < t.size) (plain : ¬ t.IsPrimitive c)
    (root : t.name o = objectName) : o ∈ t.superclasses c := by
  induction c using Nat.strongRecOn with
  | ind c ih =>
    cases up : t.superclass? c with
    | none =>
      have named := (h.rooted c inside up).resolve_right plain
      rw [h.unique c o inside (lt_size_of_root root) (named.trans root.symm)]
      exact mem_superclasses_self t o
    | some s =>
      have higher := superclass?_lt up
      rw [superclasses_of_some up]
      exact List.mem_cons_of_mem c
        (ih s higher (Nat.lt_trans higher inside) (h.ordinary c s up).2)

theorem not_isInterface_root (array : t.IsArrayClass a) (root : t.name o = objectName) :
    t.isInterface o = false := by
  obtain ⟨o', up, root'⟩ := array.exists_superclass
  rw [h.unique o o' (lt_size_of_root root) (lt_size_of_root root') (root.trans root'.symm)]
  exact h.extended a o' up

theorem mem_superclasses_of_capped (capped : ∀ s, t.superclass? i = some s → t.name s = objectName)
    (member : c ∈ t.superclasses i) : c = i ∨ t.name c = objectName := by
  cases up : t.superclass? i with
  | none =>
    rw [superclasses_of_none up, List.mem_singleton] at member
    exact .inl member
  | some o =>
    have root := capped o up
    rw [superclasses_of_some up, h.superclasses_root root] at member
    rcases List.mem_cons.1 member with same | same
    · exact .inl same
    · exact .inr (by rw [List.mem_singleton.1 same, root])

theorem not_superinterface_of_capped
    (capped : ∀ s, t.superclass? i = some s → t.name s = objectName)
    (unlisted : t.interfaces i = []) : ¬ t.Superinterface i j := by
  refine not_superinterface (List.flatMap_eq_nil_iff.2 fun k member => ?_)
  rcases h.mem_superclasses_of_capped capped member with rfl | root
  · exact unlisted
  · exact h.root k root

theorem not_superinterface_array (array : t.IsArrayClass a) : ¬ t.Superinterface a i := by
  exact h.not_superinterface_of_capped (fun _ => array.capped) array.interfaces

theorem not_superinterface_root (root : t.name o = objectName) : ¬ t.Superinterface o i := by
  refine h.not_superinterface_of_capped (fun s up => ?_) (h.root o root)
  rw [h.superclass?_root root] at up
  cases up

theorem not_isArray_of_mem_superclasses (plain : (t.name a).isArray = false)
    (member : b ∈ t.superclasses a) : (t.name b).isArray = false := by
  rcases (mem_superclasses.1 member).cases_tail with same | ⟨c, -, up⟩
  · exact same ▸ plain
  · exact (h.ordinary c b up).1

theorem not_isInterface_above (member : b ∈ t.superclasses a) (other : a ≠ b) :
    t.isInterface b = false := by
  rcases (mem_superclasses.1 member).cases_tail with same | ⟨c, -, up⟩
  · exact absurd same.symm other
  · exact h.extended c b up

/-! ### The test and the relation -/

/-- Apart from arrays, the test follows the interfaces or the superclasses. -/
theorem isAssignable_plain_iff (ha : a < t.size) (hb : b < t.size)
    (plain : (t.name a).isArray = false) : t.isAssignable a b = true ↔
      t.isInterface b = true ∧ t.Superinterface a b ∨ b ∈ t.superclasses a := by
  rw [h.isAssignable_iff ha hb, h.component?_eq_none plain, plain]
  constructor
  · rintro (rfl | ⟨k, l, ⟨⟩, -⟩ | ⟨-, ⟨⟨⟩, -⟩ | interface | ⟨-, member⟩⟩)
    · exact .inr (mem_superclasses_self t a)
    · exact .inl interface
    · exact .inr member
  · rintro (interface | member)
    · exact .inr (.inr ⟨.inl rfl, .inr (.inl interface)⟩)
    · by_cases same : a = b
      · exact .inl same
      · exact .inr (.inr ⟨.inl rfl, .inr (.inr ⟨h.not_isInterface_above member same, member⟩)⟩)

/-- Arrays are compared by their components, and otherwise instances of the topmost classes. -/
theorem isAssignable_array_iff (ha : a < t.size) (hb : b < t.size) (array : t.IsArrayClass a) :
    t.isAssignable a b = true ↔ a = b ∨
      (∃ k l, t.component? a = some k ∧ t.component? b = some l ∧
        (t.superclass? k).isSome = true ∧ t.isAssignable k l = true) ∨
      t.name b ∈ arrayInterfaces ∨ t.name b = objectName := by
  rw [h.isAssignable_iff ha hb]
  apply or_congr_right
  apply or_congr_right
  constructor
  · rintro ⟨unlike, ⟨-, top⟩ | ⟨-, implemented⟩ | ⟨-, member⟩⟩
    · exact .inl top
    · exact absurd implemented (h.not_superinterface_array array)
    · refine (h.mem_superclasses_of_capped (fun _ => array.capped) member).elim
        (fun same => ?_) .inr
      obtain ⟨-, k, -, component, -⟩ := array.exists_component
      simp [same, component] at unlike
  · intro top
    have plain : (t.name b).isArray = false := by
      rcases top with top | root
      · exact isArray_of_mem_arrayInterfaces top
      · rw [root]
        rfl
    refine ⟨.inr (h.component?_eq_none plain), ?_⟩
    rcases top with top | root
    · exact .inl ⟨array.isArray, top⟩
    · exact .inr (.inr ⟨h.not_isInterface_root array root,
        h.root_mem_superclasses ha array.not_isPrimitive root⟩)

theorem isAssignable_of_mem_superclasses (ha : a < t.size) (member : b ∈ t.superclasses a) :
    t.isAssignable a b = true := by
  have hb := Nat.lt_of_le_of_lt (le_of_mem_superclasses member) ha
  cases array : (t.name a).isArray with
  | false => exact (h.isAssignable_plain_iff ha hb array).2 (.inr member)
  | true =>
    have made := h.arrays a (.inl array)
    refine (h.isAssignable_array_iff ha hb made).2 ?_
    rcases h.mem_superclasses_of_capped (fun _ => made.capped) member with same | root
    · exact .inl same.symm
    · exact .inr (.inr (.inr root))

theorem isAssignable_of_superinterface (ha : a < t.size) (implemented : t.Superinterface a b)
    (interface : t.isInterface b = true) : t.isAssignable a b = true := by
  have hb := Nat.lt_trans (lt_of_superinterface implemented) ha
  cases array : (t.name a).isArray with
  | false => exact (h.isAssignable_plain_iff ha hb array).2 (.inl ⟨interface, implemented⟩)
  | true => exact absurd implemented (h.not_superinterface_array (h.arrays a (.inl array)))

/-- The classes at the top are assignable to each other only through the root. -/
theorem isAssignable_from_top (hb : b < t.size) (hc : c < t.size)
    (top : t.name b ∈ arrayInterfaces ∨ t.name b = objectName) (on : t.isAssignable b c = true) :
    t.name c ∈ arrayInterfaces ∨ t.name c = objectName := by
  have capped : t.interfaces b = [] ∧ ∀ s, t.superclass? b = some s → t.name s = objectName := by
    rcases top with top | root
    · exact h.bare b top
    · exact ⟨h.root b root, by simp [h.superclass?_root root]⟩
  have plain : (t.name b).isArray = false := by
    rcases top with top | root
    · exact isArray_of_mem_arrayInterfaces top
    · rw [root]
      rfl
  rcases (h.isAssignable_plain_iff hb hc plain).1 on with ⟨-, implemented⟩ | member
  · exact absurd implemented (h.not_superinterface_of_capped capped.2 capped.1)
  · rcases h.mem_superclasses_of_capped capped.2 member with same | root
    · exact same ▸ top
    · exact .inr root

theorem isAssignable_trans (ha : a < t.size) (hb : b < t.size) (hc : c < t.size)
    (first : t.isAssignable a b = true) (second : t.isAssignable b c = true) :
    t.isAssignable a c = true := by
  -- Arrays go down to their components; everything else is one walk after another.
  induction a using Nat.strongRecOn generalizing b c with
  | ind a ih =>
    cases array : (t.name a).isArray with
    | false =>
      rcases (h.isAssignable_plain_iff ha hb array).1 first with ⟨interface, implemented⟩ | up
      · have plain : (t.name b).isArray = false := by
          cases array' : (t.name b).isArray with
          | false => rfl
          | true =>
            rw [(h.arrays b (.inl array')).isInterface] at interface
            cases interface
        rcases (h.isAssignable_plain_iff hb hc plain).1 second with ⟨interface', higher⟩ | member
        · exact h.isAssignable_of_superinterface ha (implemented.trans higher) interface'
        · rcases h.mem_superclasses_of_capped (h.interfaces b · interface) member with same | root
          · exact same ▸ first
          · have reference (primitive : t.IsPrimitive a) := primitive.not_superinterface implemented
            exact h.isAssignable_of_mem_superclasses ha
              (h.root_mem_superclasses ha reference root)
      · have plain := h.not_isArray_of_mem_superclasses array up
        rcases (h.isAssignable_plain_iff hb hc plain).1 second with ⟨interface, higher⟩ | member
        · exact h.isAssignable_of_superinterface ha (higher.of_superclass up) interface
        · exact h.isAssignable_of_mem_superclasses ha (mem_superclasses_trans up member)
    | true =>
      have made := h.arrays a (.inl array)
      rcases (h.isAssignable_array_iff ha hb made).1 first with
        rfl | ⟨k, l, ka, lb, extended, inner⟩ | top
      · exact second
      · have made' := h.isArrayClass_of_component lb
        rcases (h.isAssignable_array_iff hb hc made').1 second with
          rfl | ⟨l', m, lb', mc, -, inner'⟩ | top
        · exact first
        · cases lb.symm.trans lb'
          have below := component?_lt ka
          have composed := ih k below (Nat.lt_trans below ha)
            (Nat.lt_trans (component?_lt lb) hb) (Nat.lt_trans (component?_lt mc) hc) inner inner'
          exact (h.isAssignable_array_iff ha hc made).2
            (.inr (.inl ⟨k, m, ka, mc, extended, composed⟩))
        · exact (h.isAssignable_array_iff ha hc made).2 (.inr (.inr top))
      · exact (h.isAssignable_array_iff ha hc made).2
          (.inr (.inr (h.isAssignable_from_top hb hc top second)))

/-- A primitive type has no proper subtypes. -/
theorem eq_of_isSubtype_primitive (subtype : t.IsSubtype a b) (primitive : t.IsPrimitive b) :
    a = b := by
  induction subtype with
  | refl c => rfl
  | trans _ _ ih ih' =>
    cases ih' primitive
    exact ih primitive
  | superclass up => exact absurd primitive (h.ordinary _ _ up).2
  | interface _ interface =>
    rw [primitive.isInterface] at interface
    cases interface
  | root _ root => exact absurd root primitive.name_ne_objectName
  | arrayInterface _ top =>
    obtain ⟨p, made⟩ := primitive
    rw [name, made] at top
    cases p <;> exact absurd top (by decide)
  | array _ component =>
    exact absurd primitive (h.isArrayClass_of_component component).not_isPrimitive

/-- What the test accepts is a subtype. -/
theorem isSubtype_of_isAssignable (ha : a < t.size) (hb : b < t.size)
    (assignable : t.isAssignable a b = true) : t.IsSubtype a b := by
  induction a using Nat.strongRecOn generalizing b with
  | ind a ih =>
    cases array : (t.name a).isArray with
    | false =>
      rcases (h.isAssignable_plain_iff ha hb array).1 assignable with ⟨interface, implemented⟩ | up
      · exact .interface implemented interface
      · exact isSubtype_of_mem_superclasses up
    | true =>
      rcases (h.isAssignable_array_iff ha hb (h.arrays a (.inl array))).1 assignable with
        rfl | ⟨k, l, ka, lb, extended, inner⟩ | top | root
      · exact .refl a
      · have below := component?_lt ka
        have subtype :=
          ih k below (Nat.lt_trans below ha) (Nat.lt_trans (component?_lt lb) hb) inner
        obtain ⟨s, up⟩ := Option.isSome_iff_exists.1 extended
        have reference := not_isPrimitive_of_superclass? up
        refine .array ka lb reference (fun primitive => reference ?_) subtype
        exact h.eq_of_isSubtype_primitive subtype primitive ▸ primitive
      · exact .arrayInterface array top
      · exact .root array root

/-- A subtype of a class in the table passes the test. -/
theorem isAssignable_of_isSubtype (subtype : t.IsSubtype a b) (ha : a < t.size) :
    b < t.size ∧ t.isAssignable a b = true := by
  induction subtype with
  | refl c => exact ⟨ha, t.isAssignable_refl c⟩
  | trans _ _ ih ih' =>
    obtain ⟨hb, first⟩ := ih ha
    obtain ⟨hc, second⟩ := ih' hb
    exact ⟨hc, h.isAssignable_trans ha hb hc first second⟩
  | superclass up =>
    exact ⟨Nat.lt_trans (superclass?_lt up) ha,
      h.isAssignable_of_mem_superclasses ha (mem_superclasses.2 (.single up))⟩
  | interface implemented interface =>
    exact ⟨Nat.lt_trans (lt_of_superinterface implemented) ha,
      h.isAssignable_of_superinterface ha implemented interface⟩
  | root array root =>
    have ho := lt_size_of_root root
    exact ⟨ho, (h.isAssignable_array_iff ha ho (h.arrays _ (.inl array))).2
      (.inr (.inr (.inr root)))⟩
  | arrayInterface array top =>
    have hi := lt_size_of_arrayInterface top
    exact ⟨hi, (h.isAssignable_array_iff ha hi (h.arrays _ (.inl array))).2
      (.inr (.inr (.inl top)))⟩
  | @array a b k l ka lb hk hl _ ih =>
    have hb := lt_size_of_component lb
    have below := Nat.lt_trans (component?_lt ka) ha
    obtain ⟨inside, inner⟩ := ih below
    refine ⟨hb, (h.isAssignable_array_iff ha hb (h.isArrayClass_of_component ka)).2 ?_⟩
    cases extended : t.superclass? k with
    | some s => exact .inr (.inl ⟨k, l, ka, lb, by simp [extended], inner⟩)
    | none =>
      have root := (h.rooted k below extended).resolve_right hk
      have plain : (t.name k).isArray = false := by
        rw [root]
        rfl
      rcases (h.isAssignable_plain_iff below inside plain).1 inner with ⟨-, implemented⟩ | up
      · exact absurd implemented (h.not_superinterface_root root)
      · rw [superclasses_of_none extended, List.mem_singleton] at up
        exact .inl (h.eq_of_component ha hb ka (up ▸ lb))

/-- The test for assignability is reflexive, transitive and decides the subtype relation; an array
of primitives passes it for no other array class. -/
theorem isAssignable_decides_subtyping :
    (∀ a, t.isAssignable a a = true) ∧
      (∀ a b c, a < t.size → b < t.size → c < t.size →
        t.isAssignable a b = true → t.isAssignable b c = true → t.isAssignable a c = true) ∧
      (∀ a b, a < t.size → b < t.size → (t.isAssignable a b = true ↔ t.IsSubtype a b)) ∧
      ∀ a b k, a < t.size → b < t.size → t.component? a = some k → t.IsPrimitive k →
        (t.name b).isArray = true → t.isAssignable a b = true → a = b := by
  refine ⟨t.isAssignable_refl, fun a b c => h.isAssignable_trans, fun a b ha hb => ⟨?_, ?_⟩, ?_⟩
  · exact h.isSubtype_of_isAssignable ha hb
  · exact fun subtype => (h.isAssignable_of_isSubtype subtype ha).2
  · intro a b k ha hb component primitive array assignable
    rcases (h.isAssignable_array_iff ha hb (h.isArrayClass_of_component component)).1 assignable
      with same | ⟨k', l, component', -, extended, -⟩ | top | root
    · exact same
    · cases component.symm.trans component'
      obtain ⟨s, up⟩ := Option.isSome_iff_exists.1 extended
      exact absurd primitive (not_isPrimitive_of_superclass? up)
    · rw [isArray_of_mem_arrayInterfaces top] at array
      cases array
    · rw [root] at array
      cases array

end PlainHierarchy

/-! ### Small hierarchies -/

/-- A table that begins with the root, an interface of arrays, a primitive type and its arrays. -/
def smallTable (rest : List Class) : ClassTable :=
  ⟨([(ClassDefinition.ofName objectName).toClass,
      { ClassDefinition.ofName (.scalar "java/lang/Cloneable") with
        flags := 0x0601, superclass := some 0 }.toClass,
      .ofPrimitive .int, .arrayOf (.primitive .int) 2 0x0411 0] ++ rest).toArray⟩

theorem Hierarchy.of_smallTable {rest : List Class} (made : t = smallTable rest)
    (unique : ∀ a < t.size, ∀ b < t.size, t.name a = t.name b → a = b)
    (arrays : ∀ c < t.size, (t.name c).isArray = true ∨ (t.component? c).isSome = true →
      c = 3 ∨ t.IsArrayClass c)
    (rooted : ∀ c < t.size, t.superclass? c = none → c = 0 ∨ c = 2)
    (extended : ∀ c < t.size, ∀ s ∈ t.superclass? c, t.isInterface s = false)
    (root : ∀ c < t.size, t.name c = objectName → t.interfaces c = [])
    (bare : ∀ c < t.size, t.name c ∈ arrayInterfaces →
      t.interfaces c = [] ∧ ∀ s ∈ t.superclass? c, t.name s = objectName) : t.Hierarchy where
  unique a b ha hb := unique a ha b hb
  arrays c array := by
    have inside : c < t.size := by
      rcases array with named | component
      · exact lt_size_of_name fun empty => by simp [empty, ClassName.isArray] at named
      · exact lt_size_of_component (Option.some_get component).symm
    rcases arrays c inside array with rfl | loaded
    · exact made ▸ ⟨.primitive .int, 2, 0x0411, 0, rfl, by decide, rfl, by decide, rfl⟩
    · exact loaded
  rooted c inside top := by
    rcases rooted c inside top with rfl | rfl
    · exact made ▸ .inl rfl
    · exact made ▸ .inr ⟨.int, rfl⟩
  extended c s up := extended c (lt_size_of_superclass? up) s up
  root c named := root c (lt_size_of_root named) named
  bare c named := bare c (lt_size_of_arrayInterface named) named

/-- Arrays of arrays, and of a class that implements one of their interfaces. -/
def nestedTable : ClassTable :=
  smallTable [.arrayOf (.array (.primitive .int)) 3 0x0411 0,
    .arrayOf (.object "java/lang/Cloneable") 1 0x0601 0,
    { ClassDefinition.ofName (.scalar "Shape") with
      superclass := some 0, interfaces := [1] }.toClass,
    .arrayOf (.object "Shape") 6 0x0021 0]

theorem plainHierarchy_nestedTable : nestedTable.PlainHierarchy := by
  have up (c s : ClassId) (up : nestedTable.superclass? c = some s) :
      nestedTable.name s = objectName := by
    have low : ∀ c < 8, ∀ s ∈ nestedTable.superclass? c, s = 0 := by decide
    rw [low c (lt_size_of_superclass? up) s up]
    rfl
  refine ⟨.of_smallTable rfl (by decide) ?_ (by decide) (by decide) (by decide) (by decide), ?_,
    fun c s _ => up c s⟩
  · intro c inside array
    have cases : ∀ c < 8, (nestedTable.name c).isArray = true ∨
        (nestedTable.component? c).isSome = true → c = 3 ∨ c = 4 ∨ c = 5 ∨ c = 7 := by decide
    refine (cases c inside array).imp_right ?_
    rintro (rfl | rfl | rfl)
    · exact ⟨.array (.primitive .int), 3, 0x0411, 0, rfl, by decide, rfl, by decide, rfl⟩
    · exact ⟨.object "java/lang/Cloneable", 1, 0x0601, 0, rfl, by decide,
        ⟨rfl, not_isPrimitive_of_superclass? rfl⟩, by decide, rfl⟩
    · exact ⟨.object "Shape", 6, 0x0021, 0, rfl, by decide,
        ⟨rfl, not_isPrimitive_of_superclass? rfl⟩, by decide, rfl⟩
  · intro c s extended
    have root := up c s extended
    exact ⟨by rw [root]; rfl, fun primitive => primitive.name_ne_objectName root⟩

theorem isAssignable_nestedTable :
    nestedTable.PlainHierarchy ∧ nestedTable.isAssignable 4 5 = true ∧
      nestedTable.isAssignable 5 1 = true ∧ nestedTable.isAssignable 4 1 = true ∧
      nestedTable.isAssignable 7 5 = true := by
  obtain ⟨-, transitive, decided, -⟩ :=
    plainHierarchy_nestedTable.isAssignable_decides_subtyping
  have array : nestedTable.isAssignable 4 5 = true := by
    refine (decided 4 5 (by decide) (by decide)).2 (.array rfl rfl ?_ ?_ ?_)
    · exact not_isPrimitive_of_superclass? rfl
    · exact not_isPrimitive_of_superclass? rfl
    · exact .arrayInterface rfl (by decide)
  have bare : nestedTable.isAssignable 5 1 = true :=
    (decided 5 1 (by decide) (by decide)).2 (.arrayInterface rfl (by decide))
  refine ⟨plainHierarchy_nestedTable, array, bare, ?_, ?_⟩
  · exact transitive 4 5 1 (by decide) (by decide) (by decide) array bare
  · refine (decided 7 5 (by decide) (by decide)).2 (.array rfl rfl ?_ ?_ ?_)
    · exact not_isPrimitive_of_superclass? rfl
    · exact not_isPrimitive_of_superclass? rfl
    · exact .interface (.single (mem_inheritedInterfaces (by decide))) rfl

def extendedByInterface : ClassTable :=
  smallTable [{ ClassDefinition.ofName (.scalar "Base") with superclass := some 0 }.toClass,
    { ClassDefinition.ofName (.scalar "Drawn") with flags := 0x0601, superclass := some 4 }.toClass,
    { ClassDefinition.ofName (.scalar "Shape") with
      superclass := some 0, interfaces := [5] }.toClass]

def extendedArray : ClassTable :=
  smallTable [{ ClassDefinition.ofName (.scalar "Row") with superclass := some 3 }.toClass]

def extendedPrimitive : ClassTable :=
  smallTable [{ ClassDefinition.ofName (.scalar "Index") with superclass := some 2 }.toClass,
    .arrayOf (.object "Index") 4 0x0021 0]

theorem hierarchy_extendedByInterface : extendedByInterface.Hierarchy := by
  refine .of_smallTable rfl (by decide) ?_ (by decide) (by decide) (by decide) (by decide)
  intro c inside array
  have cases : ∀ c < 7, (extendedByInterface.name c).isArray = true ∨
      (extendedByInterface.component? c).isSome = true → c = 3 := by decide
  exact .inl (cases c inside array)

theorem hierarchy_extendedArray : extendedArray.Hierarchy := by
  refine .of_smallTable rfl (by decide) ?_ (by decide) (by decide) (by decide) (by decide)
  intro c inside array
  have cases : ∀ c < 5, (extendedArray.name c).isArray = true ∨
      (extendedArray.component? c).isSome = true → c = 3 := by decide
  exact .inl (cases c inside array)

theorem hierarchy_extendedPrimitive : extendedPrimitive.Hierarchy := by
  refine .of_smallTable rfl (by decide) ?_ (by decide) (by decide) (by decide) (by decide)
  intro c inside array
  have cases : ∀ c < 6, (extendedPrimitive.name c).isArray = true ∨
      (extendedPrimitive.component? c).isSome = true → c = 3 ∨ c = 5 := by decide
  refine (cases c inside array).imp_right ?_
  rintro rfl
  exact ⟨.object "Index", 4, 0x0021, 0, rfl, by decide,
    ⟨rfl, not_isPrimitive_of_superclass? rfl⟩, by decide, rfl⟩

theorem eq_of_isSubtype_extendedPrimitive {a b : ClassId}
    (subtype : extendedPrimitive.IsSubtype a b) (array : b = 3) : a = 3 := by
  induction subtype with
  | refl c => exact array
  | trans _ _ ih ih' => exact ih (ih' array)
  | @superclass c s up =>
    have low : ∀ c < 6, ∀ s ∈ extendedPrimitive.superclass? c, s ≠ 3 := by decide
    exact absurd array (low c (lt_size_of_superclass? up) s up)
  | interface _ interface =>
    subst array
    cases interface
  | root _ named =>
    subst array
    cases named
  | arrayInterface _ named =>
    subst array
    exact absurd named (by decide)
  | array _ component _ reference _ =>
    subst array
    have primitive : extendedPrimitive.component? 3 = some 2 := by decide
    cases primitive.symm.trans component
    exact absurd ⟨.int, rfl⟩ reference

/-- Above an interface that extends an ordinary class there are classes that the test misses, and
so there are above a class that extends an array class; and if a class extends a primitive type, an
array of it passes for an array of primitives. -/
theorem isAssignable_misses_subtypes :
    (extendedByInterface.Hierarchy ∧ extendedByInterface.isAssignable 6 5 = true ∧
      extendedByInterface.isAssignable 5 4 = true ∧ extendedByInterface.IsSubtype 6 4 ∧
      extendedByInterface.isAssignable 6 4 = false) ∧
    (extendedArray.Hierarchy ∧ extendedArray.isAssignable 4 3 = true ∧
      extendedArray.isAssignable 3 1 = true ∧ extendedArray.IsSubtype 4 1 ∧
      extendedArray.isAssignable 4 1 = false) ∧
    (extendedPrimitive.Hierarchy ∧ extendedPrimitive.isAssignable 5 3 = true ∧
      ¬ extendedPrimitive.IsSubtype 5 3) := by
  have drawn : extendedByInterface.Superinterface 6 5 :=
    .single (mem_inheritedInterfaces (by decide))
  have other : ¬ extendedPrimitive.IsSubtype 5 3 := fun subtype =>
    absurd (eq_of_isSubtype_extendedPrimitive subtype rfl) (by decide)
  refine ⟨⟨hierarchy_extendedByInterface, ?_, ?_, ?_, ?_⟩,
    ⟨hierarchy_extendedArray, ?_, ?_, ?_, ?_⟩, ⟨hierarchy_extendedPrimitive, ?_, other⟩⟩
  · decide +kernel
  · decide +kernel
  · exact .trans (.interface drawn rfl) (.superclass rfl)
  · decide +kernel
  · decide +kernel
  · decide +kernel
  · exact .trans (.superclass rfl) (.arrayInterface rfl (by decide))
  · decide +kernel
  · decide +kernel

end ClassTable

end JavaMachine
