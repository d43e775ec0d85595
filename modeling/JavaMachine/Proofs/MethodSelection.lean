import JavaMachine.Proofs.Actions
import Mathlib.Logic.Relation

/-!
# Method selection

A virtual call is meant to run the first declaration, from the class of the receiver up, that is
the resolved method or overrides it. Overriding by way of a method in between counts, since a
method that is visible in its package only can be overridden from another package after it was made
public. The search here tests each class against the resolved method alone, and when what it finds
is abstract it falls back to the nearest declaration of the signature, whatever that is.
-/
namespace JavaMachine

namespace ClassTable

variable {t : ClassTable} {s : MethodSignature} {m d d' : Method} {a b c k : ClassId}

/-! ### Overriding -/

/-- The declaration of the signature in class `k` overrides the one in class `a` by itself. -/
structure OverridesDirectly (t : ClassTable) (s : MethodSignature) (k a : ClassId) : Prop where
  above : a ∈ t.superclasses k
  other : a ≠ k
  declared : ∃ d m, t.declared? s k = some d ∧ t.declared? s a = some m ∧
    d.isPrivate = false ∧ d.isStatic = false ∧
    (m.isPublic = true ∨ m.isProtected = true ∨
      m.isPackagePrivate = true ∧ (t.name k).package = (t.name a).package)

/-- It does so by itself, or it overrides a declaration that does. -/
def Overrides (t : ClassTable) (s : MethodSignature) : ClassId → ClassId → Prop :=
  Relation.TransGen (t.OverridesDirectly s)

/-- The class declares the method itself or one that overrides it. -/
def Answers (t : ClassTable) (s : MethodSignature) (a k : ClassId) : Prop :=
  k = a ∨ t.Overrides s k a

theorem Overrides.declared (h : t.Overrides s k a) :
    ∃ d, t.declared? s k = some d ∧ d.isPrivate = false ∧ d.isStatic = false := by
  induction h using Relation.TransGen.head_induction_on with
  | single direct =>
    obtain ⟨d, m, hd, -, hp, hs, -⟩ := direct.declared
    exact ⟨d, hd, hp, hs⟩
  | head direct _ _ =>
    obtain ⟨d, m, hd, -, hp, hs, -⟩ := direct.declared
    exact ⟨d, hd, hp, hs⟩

/-! ### The first class of a walk -/

/-- The first element of the walk with the property. -/
def FirstIn (walk : List ClassId) (P : ClassId → Prop) (k : ClassId) : Prop :=
  ∃ below above, walk = below ++ k :: above ∧ P k ∧ ∀ b ∈ below, ¬P b

theorem exists_firstIn {walk : List ClassId} {P : ClassId → Prop} (member : k ∈ walk) (h : P k) :
    ∃ first, FirstIn walk P first := by
  induction walk with
  | nil => cases member
  | cons b walk ih =>
    by_cases hb : P b
    · exact ⟨b, [], walk, rfl, hb, by simp⟩
    · have later : k ∈ walk := (List.mem_cons.1 member).resolve_left fun same => hb (same ▸ h)
      obtain ⟨first, below, above, rfl, hf, none⟩ := ih later
      exact ⟨first, b :: below, above, rfl, hf, List.forall_mem_cons.2 ⟨hb, none⟩⟩

theorem FirstIn.mem {walk : List ClassId} {P : ClassId → Prop} (h : FirstIn walk P k) :
    k ∈ walk := by
  obtain ⟨below, above, rfl, -⟩ := h
  exact List.mem_append_right below List.mem_cons_self

theorem FirstIn.holds {walk : List ClassId} {P : ClassId → Prop} (h : FirstIn walk P k) : P k := by
  obtain ⟨below, above, -, holds, -⟩ := h
  exact holds

theorem FirstIn.unique {walk : List ClassId} {P : ClassId → Prop} (h : FirstIn walk P k)
    (h' : FirstIn walk P b) : k = b := by
  obtain ⟨below, above, rfl, hk, none⟩ := h
  obtain ⟨below', above', split, hb, none'⟩ := h'
  obtain ⟨mid, rfl, rest⟩ | ⟨mid, rfl, rest⟩ := List.append_eq_append_iff.1 split
  · cases mid with
    | nil => exact (List.cons.inj rest).1
    | cons x mid =>
      cases rest
      exact absurd hk (none' _ (by simp))
  · cases mid with
    | nil => exact (List.cons.inj rest).1.symm
    | cons x mid =>
      cases rest
      exact absurd hb (none _ (by simp))

/-- What is found by a search through the walk is found in the first class that has something. -/
theorem findSome?_eq_some_iff_firstIn {walk : List ClassId} {f : ClassId → Option Method} :
    walk.findSome? (fun k => (f k).map fun m => (k, m)) = some (k, d) ↔
      f k = some d ∧ FirstIn walk (fun k => (f k).isSome = true) k := by
  rw [List.findSome?_eq_some_iff]
  constructor
  · rintro ⟨below, k', above, rfl, found, none⟩
    obtain ⟨m, hm, ⟨⟩⟩ := Option.map_eq_some_iff.1 found
    exact ⟨hm, below, above, rfl, Option.isSome_of_eq_some hm, fun b hb => by simpa using none b hb⟩
  · rintro ⟨hd, below, above, rfl, -, none⟩
    exact ⟨below, k, above, rfl, by rw [hd]; rfl, fun b hb => by simpa using none b hb⟩

theorem superclasses_of_split {below above : List ClassId}
    (split : t.superclasses c = below ++ k :: above) : t.superclasses k = k :: above := by
  induction below generalizing c with
  | nil =>
    have head : (t.superclasses c).head? = some c := by rw [superclasses]; rfl
    rw [split] at head
    cases head
    exact split
  | cons b below ih =>
    cases up : t.superclass? c with
    | none =>
      rw [superclasses_of_none up] at split
      simp at split
    | some p =>
      rw [superclasses_of_some up] at split
      exact ih (List.cons.inj split).2

theorem mem_superclasses_of_split {below above : List ClassId} (inherits : a ∈ t.superclasses c)
    (split : t.superclasses c = below ++ k :: above) (later : a ∉ below) :
    a ∈ t.superclasses k ∧ ∀ b ∈ below, a ∈ t.superclasses b := by
  constructor
  · rw [superclasses_of_split split]
    rw [split] at inherits
    exact (List.mem_append.1 inherits).resolve_left later
  · intro b member
    obtain ⟨front, back, rfl⟩ := List.append_of_mem member
    rw [List.append_assoc, List.cons_append] at split
    rw [superclasses_of_split split]
    rw [split] at inherits
    exact (List.mem_append.1 inherits).resolve_left fun early =>
      later (List.mem_append_left _ early)

/-! ### What can run -/

def unlessAbstract (found : ClassId × Method) : Option (ClassId × Method) :=
  if found.2.isAbstract then none else some found

theorem unlessAbstract_of_concrete {x : ClassId × Method} (concrete : x.2.isAbstract = false) :
    unlessAbstract x = some x := by
  simp [unlessAbstract, concrete]

theorem unlessAbstract_of_abstract {x : ClassId × Method} (abstract : x.2.isAbstract = true) :
    unlessAbstract x = none := by
  simp [unlessAbstract, abstract]

theorem some_eq_unlessAbstract_iff {x y : ClassId × Method} (concrete : x.2.isAbstract = false) :
    some x = unlessAbstract y ↔ x = y := by
  constructor
  · intro eq
    unfold unlessAbstract at eq
    split at eq
    · cases eq
    · exact Option.some.inj eq
  · rintro rfl
    exact (unlessAbstract_of_concrete concrete).symm

/-- What runs is what dispatch finds, or if that is abstract the nearest declaration. -/
theorem select_eq {k₁ k₂ : ClassId} {d₁ d₂ : Method} (dispatched : t.dispatch c m = some (k₁, d₁))
    (nearest : t.firstDeclared s (t.superclasses c) = some (k₂, d₂)) :
    t.select c m s =
      if d₁.isAbstract then unlessAbstract (k₂, d₂) else some (k₁, d₁) := by
  unfold select findMethod unlessAbstract
  rw [dispatched, nearest]
  cases concrete₁ : d₁.isAbstract <;> cases concrete₂ : d₂.isAbstract <;>
    simp [Option.filter, concrete₁, concrete₂]

/-! ### Resolved methods and the test against them -/

/-- A method that a virtual call may resolve to: class `a` declares it, it is neither private nor
static, and it belongs to its class. -/
structure IsVirtual (t : ClassTable) (s : MethodSignature) (a : ClassId) (m : Method) : Prop where
  declared : t.declared? s a = some m
  owner : m.owner = t.name a
  isPrivate : m.isPrivate = false
  isStatic : m.isStatic = false

theorem overriding?_eq_some_iff :
    t.overriding? m k = some d ↔ t.declared? m.signature k = some d ∧ d.isPrivate = false ∧
      d.isStatic = false ∧
      (m.isPackagePrivate = false ∨ (t.name k).package = m.owner.package) := by
  simp [overriding?, Option.filter_eq_some_iff, and_assoc]

theorem visible_of_not_isPackagePrivate (own : m.isPrivate = false)
    (wide : m.isPackagePrivate = false) : m.isPublic = true ∨ m.isProtected = true := by
  cases everywhere : m.isPublic with
  | true => exact .inl rfl
  | false => simpa [Method.isPackagePrivate, everywhere, own] using wide

namespace IsVirtual

variable (h : t.IsVirtual s a m)
include h

theorem signature : m.signature = s := signature_of_declared? h.declared

theorem overriding?_self : t.overriding? m a = some m :=
  overriding?_eq_some_iff.2
    ⟨h.signature ▸ h.declared, h.isPrivate, h.isStatic, .inr (by rw [h.owner])⟩

/-- What passes the test is the method or overrides it directly. -/
theorem overriding?_iff (inherits : a ∈ t.superclasses k) :
    (t.overriding? m k).isSome = true ↔ k = a ∨ t.OverridesDirectly s k a := by
  rw [Option.isSome_iff_exists]
  constructor
  · rintro ⟨d, passes⟩
    obtain ⟨hd, hp, hs, visible⟩ := overriding?_eq_some_iff.1 passes
    by_cases same : k = a
    · exact .inl same
    · refine .inr ⟨inherits, fun eq => same eq.symm, d, m, h.signature ▸ hd, h.declared, hp, hs, ?_⟩
      cases narrow : m.isPackagePrivate with
      | false => exact (visible_of_not_isPackagePrivate h.isPrivate narrow).imp_right .inl
      | true =>
        rw [narrow, h.owner] at visible
        exact .inr (.inr ⟨rfl, visible.resolve_left (by simp)⟩)
  · rintro (rfl | direct)
    · exact ⟨m, h.overriding?_self⟩
    · obtain ⟨d, m', hd, hm, hp, hs, visible⟩ := direct.declared
      cases h.declared.symm.trans hm
      refine ⟨d, overriding?_eq_some_iff.2 ⟨h.signature ▸ hd, hp, hs, ?_⟩⟩
      rw [h.owner]
      rcases visible with wide | wide | ⟨-, package⟩
      · exact .inl (by simp [Method.isPackagePrivate, wide])
      · exact .inl (by simp [Method.isPackagePrivate, wide])
      · exact .inr package

theorem answers_declared (answers : t.Answers s a k) :
    ∃ d, t.declared? s k = some d ∧ d.isPrivate = false ∧ d.isStatic = false := by
  rcases answers with rfl | overrides
  · exact ⟨m, h.declared, h.isPrivate, h.isStatic⟩
  · exact overrides.declared

/-! ### The method that runs -/

/-- Dispatch finds the first class with the method itself or a direct override. -/
theorem exists_dispatch (inherits : a ∈ t.superclasses c) :
    ∃ k d, t.dispatch c m = some (k, d) := by
  have found : (t.dispatch c m).isSome = true :=
    List.findSome?_isSome_iff.2 ⟨a, inherits, by simp [h.overriding?_self]⟩
  obtain ⟨⟨k, d⟩, hk⟩ := Option.isSome_iff_exists.1 found
  exact ⟨k, d, hk⟩

theorem exists_firstDeclared (inherits : a ∈ t.superclasses c) :
    ∃ k d, t.firstDeclared s (t.superclasses c) = some (k, d) := by
  have found : (t.firstDeclared s (t.superclasses c)).isSome = true :=
    List.findSome?_isSome_iff.2 ⟨a, inherits, by simp [h.declared]⟩
  obtain ⟨⟨k, d⟩, hk⟩ := Option.isSome_iff_exists.1 found
  exact ⟨k, d, hk⟩

theorem answers_of_passes (inherits : a ∈ t.superclasses k)
    (passes : (t.overriding? m k).isSome = true) : t.Answers s a k :=
  ((h.overriding?_iff inherits).1 passes).imp_right Relation.TransGen.single

theorem answers_of_dispatch (inherits : a ∈ t.superclasses c)
    (found : t.dispatch c m = some (k, d)) :
    t.Answers s a k ∧ d.isPrivate = false ∧ d.isStatic = false := by
  obtain ⟨hk, below, above, split, passes, none⟩ := findSome?_eq_some_iff_firstIn.1 found
  have later : a ∉ below := fun early =>
    none a early (Option.isSome_of_eq_some h.overriding?_self)
  have answers := h.answers_of_passes (mem_superclasses_of_split inherits split later).1 passes
  obtain ⟨-, hp, hs, -⟩ := overriding?_eq_some_iff.1 hk
  exact ⟨answers, hp, hs⟩

/-- Dispatch finds the class that should answer exactly if it does without a method in between. -/
theorem dispatch_eq_iff (inherits : a ∈ t.superclasses c)
    (first : FirstIn (t.superclasses c) (t.Answers s a) k) (declared : t.declared? s k = some d) :
    t.dispatch c m = some (k, d) ↔ k = a ∨ t.OverridesDirectly s k a := by
  obtain ⟨below, above, split, answers, none⟩ := first
  have later : a ∉ below := fun early => none a early (.inl rfl)
  obtain ⟨inherits_k, inherits_below⟩ := mem_superclasses_of_split inherits split later
  rw [← h.overriding?_iff inherits_k]
  constructor
  · intro found
    exact Option.isSome_of_eq_some (findSome?_eq_some_iff_firstIn.1 found).1
  · intro passes
    refine findSome?_eq_some_iff_firstIn.2 ⟨?_, below, above, split, passes, ?_⟩
    · obtain ⟨d', hd'⟩ := Option.isSome_iff_exists.1 passes
      have same := (overriding?_eq_some_iff.1 hd').1
      rw [h.signature, declared] at same
      cases same
      exact hd'
    · intro b early passes_b
      exact none b early (h.answers_of_passes (inherits_below b early) passes_b)

theorem firstDeclared_eq_iff (first : FirstIn (t.superclasses c) (t.Answers s a) k)
    (declared : t.declared? s k = some d)
    (nearest : t.firstDeclared s (t.superclasses c) = some (b, d')) :
    (b, d') = (k, d) ↔ t.Answers s a b := by
  obtain ⟨hb, below, above, split, -, none⟩ := findSome?_eq_some_iff_firstIn.1 nearest
  constructor
  · rintro ⟨⟩
    exact first.choose_spec.choose_spec.2.1
  · intro answers
    have here : FirstIn (t.superclasses c) (t.Answers s a) b := by
      refine ⟨below, above, split, answers, fun x early answers_x => none x early ?_⟩
      obtain ⟨e, he, -⟩ := h.answers_declared answers_x
      exact Option.isSome_of_eq_some he
    cases first.unique here
    rw [hb] at declared
    cases declared
    rfl

/-- How far the method that a call runs is the one that should answer it. -/
theorem select_eq_iff (inherits : a ∈ t.superclasses c) {k₁ k₂ : ClassId} {d₁ d₂ : Method}
    (first : FirstIn (t.superclasses c) (t.Answers s a) k) (declared : t.declared? s k = some d)
    (dispatched : t.dispatch c m = some (k₁, d₁))
    (nearest : t.firstDeclared s (t.superclasses c) = some (k₂, d₂)) :
    t.select c m s = unlessAbstract (k, d) ↔
      (d₁.isAbstract = false → k = a ∨ t.OverridesDirectly s k a) ∧
      (d₁.isAbstract = true → d₂.isAbstract = false → t.Answers s a k₂) ∧
      (d₁.isAbstract = true → d₂.isAbstract = true → d.isAbstract = true) := by
  have direct := h.dispatch_eq_iff inherits first declared
  have near := h.firstDeclared_eq_iff first declared nearest
  rw [dispatched, Option.some.injEq] at direct
  rw [select_eq dispatched nearest, ← direct, ← near]
  cases concrete₁ : d₁.isAbstract with
  | false => simpa using some_eq_unlessAbstract_iff (x := (k₁, d₁)) (y := (k, d)) concrete₁
  | true =>
    cases concrete₂ : d₂.isAbstract with
    | false =>
      rw [if_pos rfl, unlessAbstract_of_concrete concrete₂]
      simpa using some_eq_unlessAbstract_iff (x := (k₂, d₂)) (y := (k, d)) concrete₂
    | true =>
      rw [if_pos rfl, unlessAbstract_of_abstract concrete₂]
      cases abstract : d.isAbstract with
      | false => simp [unlessAbstract_of_concrete (x := (k, d)) abstract]
      | true => simp [unlessAbstract_of_abstract (x := (k, d)) abstract]

end IsVirtual

end ClassTable

end JavaMachine
