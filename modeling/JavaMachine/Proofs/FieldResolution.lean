import JavaMachine.Proofs.MethodOwners
import JavaMachine.Proofs.MethodSelection
import JavaMachine.Proofs.Superinterfaces
import Mathlib.Data.List.Find

/-!
# Which field is meant

A class declares fields by name and type, and a reference means the first field of its name and type
in the order of search. A search for a static field by its name alone may end earlier, at a field of
another type. Of the fields of one name that an object inherits, the nearest one says what a new
object holds.
-/
namespace JavaMachine

structure DeclaredField where
  owner : ClassId
  field : Field
  deriving DecidableEq

theorem FiniteMap.get?_insertAll {κ υ : Type} [DecidableEq κ] (m : FiniteMap κ υ)
    (entries : List (κ × υ)) (k : κ) : (m.insertAll entries).get? k =
      ((entries.reverse.find? fun e => e.1 = k).map Prod.snd).or (m.get? k) := by
  induction entries generalizing m with
  | nil => rfl
  | cons e rest ih =>
    change ((m.insert e.1 e.2).insertAll rest).get? k = _
    rw [ih, get?_insert, List.reverse_cons, List.find?_append]
    by_cases same : e.1 = k
    · cases rest.reverse.find? fun e => decide (e.1 = k) <;> simp [same]
    · simp [same, Ne.symm same]

/-- No two of the elements kept have the same key. -/
theorem ClassDefinition.eq_of_mem_keepLast {α κ : Type} [DecidableEq κ] {key : α → κ} {l : List α}
    {a b : α} (ha : a ∈ keepLast key l) (hb : b ∈ keepLast key l) (same : key a = key b) :
    a = b := by
  induction l with
  | nil => cases ha
  | cons x rest ih =>
    rw [keepLast] at ha hb
    by_cases again : (rest.any fun b => key b = key x) = true
    · rw [if_pos again] at ha hb
      exact ih ha hb
    · rw [if_neg again] at ha hb
      have other (c : α) (member : c ∈ keepLast key rest) : key c ≠ key x := by
        intro same
        apply again
        rw [List.any_eq_true]
        exact ⟨c, mem_of_mem_keepLast member, decide_eq_true same⟩
      rcases List.mem_cons.1 ha with rfl | earlier <;> rcases List.mem_cons.1 hb with rfl | later
      · rfl
      · exact absurd same.symm (other b later)
      · exact absurd same (other a earlier)
      · exact ih earlier later

namespace ClassTable

variable {n : Nat} {t t' : ClassTable} {c k : ClassId} {name : String} {type : FieldType}
  {F : DeclaredField}

/-! ### Declared fields -/

def fieldsOf (t : ClassTable) (c : ClassId) : List Field :=
  match t.get? c with
  | some k => k.fields
  | none => []

def declaredField? (t : ClassTable) (name : String) (type : FieldType) (c : ClassId) :
    Option DeclaredField :=
  ((t.fieldsOf c).find? fun f => f.name = name ∧ f.type = type).map (DeclaredField.mk c)

def declaresStatic (t : ClassTable) (name : String) (c : ClassId) : Bool :=
  (t.fieldsOf c).any fun f => f.isStatic && f.name = name

/-- The field that a name and a type mean in a class: the first one in the order of search. -/
def resolveField (t : ClassTable) (c : ClassId) (name : String) (type : FieldType) :
    Option DeclaredField :=
  (t.fieldOrder c).findSome? (t.declaredField? name type)

/-- The first class in the order of search that has any static field of the name. -/
def staticHolder? (t : ClassTable) (c : ClassId) (name : String) : Option ClassId :=
  (t.fieldOrder c).find? fun k => t.declaresStatic name k

/-- The field of the name that instances have from the nearest class, the last one of that class. -/
def nearestField? (t : ClassTable) (c : ClassId) (name : String) : Option DeclaredField :=
  (t.superclasses c).findSome? fun k =>
    ((t.fieldsOf k).reverse.find? fun f => !f.isStatic && f.name = name).map (DeclaredField.mk k)

theorem fieldsOf_of_size_le (above : t.size ≤ c) : t.fieldsOf c = [] := by
  unfold fieldsOf
  rw [get?_eq_none above]

theorem lt_size_of_mem_fieldsOf {f : Field} (member : f ∈ t.fieldsOf c) : c < t.size := by
  rcases Nat.lt_or_ge c t.size with below | above
  · exact below
  · rw [fieldsOf_of_size_le above] at member
    cases member

theorem declaresStatic_iff :
    t.declaresStatic name c = true ↔ ∃ f ∈ t.fieldsOf c, f.isStatic = true ∧ f.name = name := by
  simp [declaresStatic]

theorem declaredField?_eq_some (found : t.declaredField? name type c = some F) :
    F.owner = c ∧ F.field ∈ t.fieldsOf c ∧ F.field.name = name ∧ F.field.type = type := by
  obtain ⟨f, first, rfl⟩ := Option.map_eq_some_iff.1 found
  have which := List.find?_some first
  exact ⟨rfl, List.mem_of_find?_eq_some first, of_decide_eq_true which⟩

theorem mem_of_resolveField (found : t.resolveField c name type = some F) :
    F.owner ∈ t.fieldOrder c ∧ t.declaredField? name type F.owner = some F := by
  obtain ⟨k, member, here⟩ := List.exists_of_findSome?_eq_some found
  obtain ⟨rfl, -⟩ := declaredField?_eq_some here
  exact ⟨member, here⟩

theorem le_of_mem_fieldOrder (member : k ∈ t.fieldOrder c) : k ≤ c := by
  have descending := t.fieldParents_descending
  exact descending.le_of_reaches (descending.mem_preorder.1 member)

theorem fieldOrder_of_size_le (above : t.size ≤ c) (member : k ∈ t.fieldOrder c) : k = c := by
  have none : t.fieldParents c = [] := by
    simp [fieldParents, interfaces, superclass?, get?_eq_none above]
  cases t.fieldParents_descending.mem_preorder.1 member with
  | refl => rfl
  | step edge rest =>
    rw [none] at edge
    cases edge

theorem lt_size_of_resolveField (found : t.resolveField c name type = some F) : c < t.size := by
  obtain ⟨member, here⟩ := mem_of_resolveField found
  obtain ⟨-, declared, -⟩ := declaredField?_eq_some here
  have below := lt_size_of_mem_fieldsOf declared
  rcases Nat.lt_or_ge c t.size with inside | above
  · exact inside
  · rwa [fieldOrder_of_size_le above member] at below

/-- A static field is kept with its own class, or with one that has another static field of the name
and none of its type, which comes earlier in the order of search. -/
theorem staticHolder?_of_resolveField (found : t.resolveField c name type = some F)
    (static : F.field.isStatic = true) : ∃ k, t.staticHolder? c name = some k ∧
      (k = F.owner ∨ t.declaresStatic name k = true ∧ t.declaredField? name type k = none) := by
  unfold resolveField at found
  unfold staticHolder?
  revert found
  induction t.fieldOrder c with
  | nil =>
    intro found
    cases found
  | cons a rest ih =>
    intro found
    rw [List.findSome?_cons] at found
    rw [List.find?_cons]
    cases here : t.declaredField? name type a with
    | some F' =>
      rw [here] at found
      cases found
      obtain ⟨rfl, member, named, -⟩ := declaredField?_eq_some here
      have declares : t.declaresStatic name F.owner = true :=
        declaresStatic_iff.2 ⟨F.field, member, static, named⟩
      rw [declares]
      exact ⟨F.owner, rfl, .inl rfl⟩
    | none =>
      rw [here] at found
      cases declares : t.declaresStatic name a with
      | true => exact ⟨a, rfl, .inr ⟨declares, here⟩⟩
      | false => exact ih found

/-! ### In a larger table -/

namespace Agree

variable (h : Agree n t t')
include h

theorem fieldsOf_eq (below : c < n) : t'.fieldsOf c = t.fieldsOf c := by
  unfold fieldsOf
  rw [h c below]

theorem fieldParents_eq (below : c < n) : t'.fieldParents c = t.fieldParents c := by
  unfold fieldParents
  rw [h.interfaces_eq below, h.superclass?_eq below]

theorem fieldOrder_eq (below : c < n) : t'.fieldOrder c = t.fieldOrder c :=
  preorder_congr t.fieldParents_descending fun _ le =>
    h.fieldParents_eq (Nat.lt_of_le_of_lt le below)

theorem resolveField_eq (below : c < n) (name : String) (type : FieldType) :
    t'.resolveField c name type = t.resolveField c name type := by
  unfold resolveField
  rw [h.fieldOrder_eq below]
  apply Descending.findSome?_congr
  intro k member
  unfold declaredField?
  rw [h.fieldsOf_eq (Nat.lt_of_le_of_lt (le_of_mem_fieldOrder member) below)]

theorem staticHolder?_eq (below : c < n) (name : String) :
    t'.staticHolder? c name = t.staticHolder? c name := by
  unfold staticHolder?
  rw [h.fieldOrder_eq below]
  apply List.find?_congr
  intro k member
  unfold declaresStatic
  rw [h.fieldsOf_eq (Nat.lt_of_le_of_lt (le_of_mem_fieldOrder member) below)]

theorem nearestField?_eq (below : c < n) (name : String) :
    t'.nearestField? c name = t.nearestField? c name := by
  unfold nearestField?
  rw [h.superclasses_eq below]
  apply Descending.findSome?_congr
  intro k member
  rw [h.fieldsOf_eq (Nat.lt_of_le_of_lt (le_of_mem_superclasses member) below)]

end Agree

/-! ### Defaults -/

theorem instanceFields_eq (t : ClassTable) (c : ClassId) : t.instanceFields c =
    (t.superclasses c).reverse.flatMap fun k => (t.fieldsOf k).filter fun f => !f.isStatic := by
  unfold instanceFields
  congr 1
  funext k
  unfold fieldsOf
  cases t.get? k <;> rfl

/-- Under each name a new object holds the default of the nearest field of the name. -/
theorem get?_initial (t : ClassTable) (c : ClassId) (name : String) :
    FiniteMap.get? (Fields.initial (t.instanceFields c)) name =
      (t.nearestField? c name).map fun F => F.field.type.zero := by
  unfold Fields.initial nearestField?
  rw [FiniteMap.get?_insertAll, FiniteMap.get?_empty, Option.or_none, ← List.map_reverse,
    List.find?_map, instanceFields_eq, List.reverse_flatMap, List.reverse_reverse,
    List.find?_flatMap]
  simp [Function.comp_def, ← List.filter_reverse, List.find?_filter]

/-- Every other field of the name comes from a class above. -/
theorem mem_superclasses_of_nearestField? {G : DeclaredField}
    (nearest : t.nearestField? c name = some G) (inherited : F.owner ∈ t.superclasses c)
    (declared : F.field ∈ t.fieldsOf F.owner) (own : F.field.isStatic = false)
    (named : F.field.name = name) : F.owner ∈ t.superclasses G.owner := by
  obtain ⟨below, k, above, split, here, none⟩ := List.findSome?_eq_some_iff.1 nearest
  obtain ⟨g, -, rfl⟩ := Option.map_eq_some_iff.1 here
  apply (mem_superclasses_of_split inherited split ?_).1
  intro member
  have missed := Option.map_eq_none_iff.1 (none F.owner member)
  have here := List.find?_eq_none.1 missed F.field (List.mem_reverse.2 declared)
  simp [own, named] at here

theorem nearestField?_eq_some {G : DeclaredField} (nearest : t.nearestField? c name = some G) :
    G.owner ∈ t.superclasses c ∧ G.field ∈ t.fieldsOf G.owner ∧ G.field.isStatic = false ∧
      G.field.name = name := by
  obtain ⟨k, member, here⟩ := List.exists_of_findSome?_eq_some nearest
  obtain ⟨g, found, rfl⟩ := Option.map_eq_some_iff.1 here
  have which := List.find?_some found
  simp only [Bool.and_eq_true, Bool.not_eq_true', decide_eq_true_eq] at which
  exact ⟨member, List.mem_reverse.1 (List.mem_of_find?_eq_some found), which⟩

theorem exists_nearestField? (inherited : F.owner ∈ t.superclasses c)
    (declared : F.field ∈ t.fieldsOf F.owner) (own : F.field.isStatic = false)
    (named : F.field.name = name) : ∃ G, t.nearestField? c name = some G := by
  cases nearest : t.nearestField? c name with
  | some G => exact ⟨G, rfl⟩
  | none =>
    have missed := Option.map_eq_none_iff.1 (List.findSome?_eq_none_iff.1 nearest _ inherited)
    have here := List.find?_eq_none.1 missed F.field (List.mem_reverse.2 declared)
    simp [own, named] at here

end ClassTable

end JavaMachine
