import JavaMachine.Class.Table
import Mathlib.Data.List.Basic

/-!
# Class tables that share their first classes

Everything a table says about a class depends on the classes with smaller numbers only, so tables
that agree up to a number agree on all walks from there. They also agree on which of these classes
may be stored as another class that both have made later, as long as it was made from the same
type.
-/
namespace JavaMachine

section Preorder

variable {next next' : Nat → List Nat}

theorem visit_congr (descending : Descending next) :
    ∀ (depth : Nat) (seen : List Nat) (c : Nat), (∀ i ≤ c, next' i = next i) →
      visit next' depth seen c = visit next depth seen c := by
  intro depth
  induction depth with
  | zero => exact fun _ _ _ => rfl
  | succ depth ih =>
    intro seen c same
    rw [visit, visit, same c (Nat.le_refl c)]
    split
    · rfl
    · refine List.foldl_ext _ _ _ fun acc i edge => ih acc i fun j hj => same j ?_
      exact Nat.le_trans hj (Nat.le_of_lt (descending c i edge))

theorem preorder_congr (descending : Descending next) {c : Nat}
    (same : ∀ i ≤ c, next' i = next i) : preorder next' c = preorder next c := by
  unfold preorder
  rw [visit_congr descending (c + 1) [] c same]

end Preorder

namespace ClassTable

theorem get?_push (t : ClassTable) (c : Class) (i : ClassId) :
    (t.push c).get? i = if i = t.size then some c else t.get? i := by
  unfold push get? size
  rw [Array.getElem?_push]

@[simp] theorem size_push (t : ClassTable) (c : Class) : (t.push c).size = t.size + 1 := by
  simp [push, size]

theorem lt_size_of_get? {t : ClassTable} {i : ClassId} {c : Class} (h : t.get? i = some c) :
    i < t.size := by
  unfold get? at h
  exact (Array.getElem?_eq_some_iff.1 h).1

theorem get?_eq_none {t : ClassTable} {i : ClassId} (h : t.size ≤ i) : t.get? i = none :=
  Array.getElem?_eq_none h

theorem get?_push_of_some {t : ClassTable} {i : ClassId} {c d : Class} (h : t.get? i = some d) :
    (t.push c).get? i = some d := by
  rw [get?_push, if_neg (Nat.ne_of_lt (lt_size_of_get? h)), h]

variable {n : Nat} {t t' : ClassTable} {c k k' : ClassId}

/-- The tables have the same classes below a number. -/
def Agree (n : Nat) (t t' : ClassTable) : Prop := ∀ i < n, t'.get? i = t.get? i

namespace Agree

theorem superclass?_eq (h : Agree n t t') (hc : c < n) : t'.superclass? c = t.superclass? c := by
  unfold superclass?
  rw [h c hc]

theorem component?_eq (h : Agree n t t') (hc : c < n) : t'.component? c = t.component? c := by
  unfold component?
  rw [h c hc]

theorem interfaces_eq (h : Agree n t t') (hc : c < n) : t'.interfaces c = t.interfaces c := by
  unfold interfaces
  rw [h c hc]

theorem name_eq (h : Agree n t t') (hc : c < n) : t'.name c = t.name c := by
  unfold name
  rw [h c hc]

theorem superclasses_eq (h : Agree n t t') (hc : c < n) :
    t'.superclasses c = t.superclasses c := by
  induction c using Nat.strongRecOn with
  | ind c ih =>
    have same := h.superclass?_eq hc
    cases up : t.superclass? c with
    | none =>
      rw [up] at same
      rw [superclasses_of_none up, superclasses_of_none same]
    | some s =>
      rw [up] at same
      have lower := superclass?_lt up
      rw [superclasses_of_some up, superclasses_of_some same, ih s lower (Nat.lt_trans lower hc)]

theorem inheritedInterfaces_eq (h : Agree n t t') (hc : c < n) :
    t'.inheritedInterfaces c = t.inheritedInterfaces c := by
  unfold inheritedInterfaces
  rw [h.superclasses_eq hc]
  apply List.flatMap_congr
  intro k member
  exact h.interfaces_eq (Nat.lt_of_le_of_lt (le_of_mem_superclasses member) hc)

theorem superinterfaces_eq (h : Agree n t t') (hc : c < n) :
    t'.superinterfaces c = t.superinterfaces c := by
  unfold superinterfaces
  rw [preorder_congr t.inheritedInterfaces_descending fun i hi =>
    h.inheritedInterfaces_eq (Nat.lt_of_le_of_lt hi hc)]

end Agree

theorem le_of_mem_superinterfaces (h : k ∈ t.superinterfaces c) : k ≤ c := by
  have descending := t.inheritedInterfaces_descending
  exact descending.le_of_reaches (descending.mem_preorder.1 (List.mem_of_mem_tail h))

theorem isInterface_arrayOf (type : FieldType) (component : ClassId) (flags : UInt16)
    (object : ClassId) : (Class.arrayOf type component flags object).isInterface = false := by
  have low : flags &&& 0x0001 = 0 ∨ flags &&& 0x0001 = 1 := by
    have bit : (flags &&& 0x0001).toNat = flags.toNat % 2 := by
      rw [UInt16.toNat_and]
      exact Nat.and_one_is_mod _
    rcases Nat.mod_two_eq_zero_or_one flags.toNat with even | odd
    · exact .inl (UInt16.toNat_inj.1 (bit.trans even))
    · exact .inr (UInt16.toNat_inj.1 (bit.trans odd))
  unfold Class.isInterface Class.arrayOf
  refine decide_eq_false fun set => set ?_
  dsimp only
  rcases low with low | low <;> rw [low] <;> rfl

/-- The classes of two tables stand for the same type: they are one class that both tables have, or
each table has made its own. -/
inductive Alike (n : Nat) (t t' : ClassTable) : ClassId → ClassId → Prop
  | known {k : ClassId} (below : k < n) : Alike n t t' k k
  | primitive {p : Primitive} {k k' : ClassId} (made : t.get? k = some (.ofPrimitive p))
      (made' : t'.get? k' = some (.ofPrimitive p)) : Alike n t t' k k'
  | array {type : FieldType} {flags flags' : UInt16} {object object' i i' k k' : ClassId}
      (made : t.get? k = some (.arrayOf type i flags object)) (hi : i < k)
      (made' : t'.get? k' = some (.arrayOf type i' flags' object')) (hi' : i' < k')
      (component : Alike n t t' i i') : Alike n t t' k k'

namespace Alike

theorem name_eq (agree : Agree n t t') (h : Alike n t t' k k') : t'.name k' = t.name k := by
  cases h with
  | known below => exact agree.name_eq below
  | primitive made made' => simp [name, made, made']
  | array made hi made' hi' component => simp [name, made, made', Class.arrayOf]

theorem isInterface_eq (agree : Agree n t t') (h : Alike n t t' k k') :
    t'.isInterface k' = t.isInterface k := by
  cases h with
  | known below =>
    unfold isInterface
    rw [agree _ below]
  | primitive made made' => simp [isInterface, made, made']
  | array made hi made' hi' component => simp [isInterface, made, made', isInterface_arrayOf]

theorem component (agree : Agree n t t') (h : Alike n t t' k k') :
    (t.component? k = none ∧ t'.component? k' = none) ∨
      ∃ i i', t.component? k = some i ∧ t'.component? k' = some i' ∧ Alike n t t' i i' := by
  cases h with
  | known below =>
    rw [agree.component?_eq below]
    cases hi : t.component? k with
    | none => exact .inl ⟨rfl, rfl⟩
    | some i => exact .inr ⟨i, i, rfl, rfl, .known (Nat.lt_trans (component?_lt hi) below)⟩
  | primitive made made' =>
    exact .inl ⟨by simp [component?, made, Class.ofPrimitive],
      by simp [component?, made', Class.ofPrimitive]⟩
  | @array type flags flags' object object' i i' k k' made hi made' hi' component =>
    exact .inr ⟨i, i', by simp [component?, made, Class.arrayOf, earlier, hi],
      by simp [component?, made', Class.arrayOf, earlier, hi'], component⟩

end Alike

theorem isAssignable_eq (t : ClassTable) (c other : ClassId) :
    t.isAssignable c other = (t.sameName c other ||
      match t.component? c, t.component? other with
      | some ours, some theirs => (t.superclass? ours).isSome && t.isAssignable ours theirs
      | _, _ =>
        ((t.name c).isArray && arrayInterfaces.contains (t.name other)) ||
        if t.isInterface other then t.implements c other else t.isDescendant c other) := by
  rw [isAssignable]
  congr 1
  split <;> simp_all

/-- Tables that share a class agree on the types that it may be stored as. -/
theorem Agree.isAssignable_eq (agree : Agree n t t') (hc : c < n) (h : Alike n t t' k k') :
    t'.isAssignable c k' = t.isAssignable c k := by
  induction c using Nat.strongRecOn generalizing k k' with
  | ind c ih =>
    have names {j : ClassId} (hj : j ≤ c) : t'.sameName j k' = t.sameName j k := by
      unfold sameName
      rw [agree.name_eq (Nat.lt_of_le_of_lt hj hc), h.name_eq agree]
    have among (classes : List ClassId) (below : ∀ j ∈ classes, j ≤ c) :
        (classes.any fun j => t'.sameName j k') = classes.any fun j => t.sameName j k := by
      rw [Bool.eq_iff_iff, List.any_eq_true, List.any_eq_true]
      apply exists_congr
      intro j
      apply and_congr_right
      intro member
      rw [names (below j member)]
    have descends : t'.isDescendant c k' = t.isDescendant c k := by
      unfold isDescendant
      rw [agree.superclasses_eq hc]
      exact among _ fun j => le_of_mem_superclasses
    have implements : t'.implements c k' = t.implements c k := by
      unfold ClassTable.implements
      rw [agree.superinterfaces_eq hc]
      exact among _ fun j => le_of_mem_superinterfaces
    have others : (((t'.name c).isArray && arrayInterfaces.contains (t'.name k')) ||
        if t'.isInterface k' then t'.implements c k' else t'.isDescendant c k') =
        (((t.name c).isArray && arrayInterfaces.contains (t.name k)) ||
          if t.isInterface k then t.implements c k else t.isDescendant c k) := by
      rw [agree.name_eq hc, h.name_eq agree, h.isInterface_eq agree, implements, descends]
    rw [ClassTable.isAssignable_eq, ClassTable.isAssignable_eq t, names (Nat.le_refl c),
      agree.component?_eq hc, others]
    congr 1
    cases hi : t.component? c with
    | none => rfl
    | some ours =>
      have lower := component?_lt hi
      have hours : ours < n := Nat.lt_trans lower hc
      rcases h.component agree with ⟨none, none'⟩ | ⟨i, i', some, some', alike⟩
      · rw [none, none']
      · rw [some, some']
        dsimp only
        rw [agree.superclass?_eq hours, ih ours lower hours alike]

end ClassTable

end JavaMachine
