import JavaMachine.Class.Table
import Mathlib.Logic.Relation

/-!
# Superinterfaces

The interfaces of a class are those that it or a superclass lists, and theirs in turn. The search
order of the class table has each of them once. A search through the order stops where a search
along the paths from the class would stop, so it has met nothing on the path that leads there.
-/
namespace JavaMachine

section Preorder

variable {next : Nat → List Nat} {c k : Nat}

/-- New numbers were put before those seen, each once. -/
structure Prepends (seen result : List Nat) : Prop where
  suffix : seen <:+ result
  nodup : result.Nodup

theorem foldl_visit_prepends {depth : Nat} (roots : List Nat) {seen : List Nat}
    (once : seen.Nodup)
    (ih : ∀ seen c, seen.Nodup → Prepends seen (visit next depth seen c)) :
    Prepends seen (roots.foldl (visit next depth) seen) := by
  refine roots.foldlRecOn (motive := Prepends seen) _ ⟨List.suffix_refl seen, once⟩ ?_
  intro result sofar c _
  have visited := ih result c sofar.nodup
  exact ⟨sofar.suffix.trans visited.suffix, visited.nodup⟩

theorem visit_prepends (depth : Nat) (seen : List Nat) (c : Nat) (once : seen.Nodup) :
    Prepends seen (visit next depth seen c) := by
  induction depth generalizing seen c with
  | zero => exact ⟨List.suffix_refl seen, once⟩
  | succ depth ih =>
    rw [visit]
    by_cases member : c ∈ seen
    · rw [if_pos member]
      exact ⟨List.suffix_refl seen, once⟩
    · rw [if_neg member]
      have visited := foldl_visit_prepends (next c) (List.nodup_cons.2 ⟨member, once⟩) ih
      exact ⟨(List.suffix_cons c seen).trans visited.suffix, visited.nodup⟩

theorem preorder_eq_cons (next : Nat → List Nat) (c : Nat) :
    ∃ rest, preorder next c = c :: rest ∧ c ∉ rest := by
  have visited : Prepends [c] (visit next (c + 1) [] c) := by
    rw [visit, if_neg List.not_mem_nil]
    exact foldl_visit_prepends (next c) (by simp) (visit_prepends c)
  obtain ⟨⟨new, listed⟩, once⟩ := visited
  refine ⟨new.reverse, by simp [preorder, ← listed], ?_⟩
  rw [← listed, List.nodup_append] at once
  intro member
  exact once.2.2 c (List.mem_reverse.1 member) c (List.mem_singleton_self c) rfl

theorem reaches_of_transGen (path : Relation.TransGen (fun a b => b ∈ next a) c k) :
    Reaches next c k := by
  induction path using Relation.TransGen.head_induction_on with
  | single edge => exact .step edge (.refl _)
  | head edge _ ih => exact .step edge ih

theorem transGen_of_reaches (path : Reaches next c k) (other : k ≠ c) :
    Relation.TransGen (fun a b => b ∈ next a) c k := by
  induction path with
  | refl => exact absurd rfl other
  | @step a i k edge rest ih =>
    by_cases same : k = i
    · exact same ▸ .single edge
    · exact .head edge (ih same)

theorem lt_of_transGen (h : Descending next)
    (path : Relation.TransGen (fun a b => b ∈ next a) c k) : k < c := by
  induction path with
  | single edge => exact h _ _ edge
  | tail _ edge ih => exact Nat.lt_trans (h _ _ edge) ih

theorem mem_tail_preorder (h : Descending next) :
    k ∈ (preorder next c).tail ↔ Relation.TransGen (fun a b => b ∈ next a) c k := by
  obtain ⟨rest, listed, fresh⟩ := preorder_eq_cons next c
  have reached : k ∈ c :: rest ↔ Reaches next c k := listed ▸ h.mem_preorder
  rw [listed, List.tail_cons]
  constructor
  · intro member
    have other : k ≠ c := fun same => fresh (same ▸ member)
    exact transGen_of_reaches (reached.1 (List.mem_cons_of_mem c member)) other
  · intro path
    have walked := reached.2 (reaches_of_transGen path)
    exact (List.mem_cons.1 walked).resolve_left (Nat.ne_of_lt (lt_of_transGen h path))

/-- A search along the paths comes to what it finds by a path on which nothing else is found. -/
theorem exists_path_of_searchPaths {β : Type} {f : Nat → Option β} {depth : Nat} {b : β}
    (found : searchPaths next f depth c = some b) :
    ∃ k, f k = some b ∧ Relation.ReflTransGen (fun a i => i ∈ next a ∧ f a = none) c k := by
  induction depth generalizing c with
  | zero => simp [searchPaths] at found
  | succ depth ih =>
    rw [searchPaths, Option.or_eq_some_iff] at found
    rcases found with here | ⟨missed, below⟩
    · exact ⟨c, here, .refl⟩
    · obtain ⟨i, edge, deeper⟩ := List.exists_of_findSome?_eq_some below
      obtain ⟨k, hit, path⟩ := ih deeper
      exact ⟨k, hit, .head ⟨edge, missed⟩ path⟩

theorem exists_path_of_findSome?_preorder {β : Type} {f : Nat → Option β} {b : β}
    (h : Descending next) (found : (preorder next c).findSome? f = some b) :
    ∃ k, f k = some b ∧ Relation.ReflTransGen (fun a i => i ∈ next a ∧ f a = none) c k := by
  rw [h.findSome?_preorder_eq_searchPaths f (Nat.lt_succ_self c)] at found
  exact exists_path_of_searchPaths found

end Preorder

namespace ClassTable

variable {t : ClassTable} {a b c i j k : ClassId}

/-- Instances of the class implement the interface: the class or a superclass of it lists the
interface, or it lists one with that superinterface. -/
def Superinterface (t : ClassTable) : ClassId → ClassId → Prop :=
  Relation.TransGen fun c i => i ∈ t.inheritedInterfaces c

theorem mem_superinterfaces : i ∈ t.superinterfaces c ↔ t.Superinterface c i :=
  mem_tail_preorder t.inheritedInterfaces_descending

theorem mem_superclasses :
    b ∈ t.superclasses a ↔ Relation.ReflTransGen (fun c s => t.superclass? c = some s) a b := by
  constructor
  · intro member
    induction a using Nat.strongRecOn with
    | ind a ih =>
      cases up : t.superclass? a with
      | none =>
        rw [superclasses_of_none up, List.mem_singleton] at member
        exact member ▸ .refl
      | some s =>
        rw [superclasses_of_some up] at member
        rcases List.mem_cons.1 member with rfl | member
        · exact .refl
        · exact .head up (ih s (superclass?_lt up) member)
  · intro path
    induction path using Relation.ReflTransGen.head_induction_on with
    | refl => exact mem_superclasses_self t b
    | @head c s up _ ih =>
      rw [superclasses_of_some up]
      exact List.mem_cons_of_mem c ih

theorem mem_superclasses_trans (h : b ∈ t.superclasses a) (h' : c ∈ t.superclasses b) :
    c ∈ t.superclasses a :=
  mem_superclasses.2 ((mem_superclasses.1 h).trans (mem_superclasses.1 h'))

/-- What a superclass implements is implemented. -/
theorem Superinterface.of_superclass (up : b ∈ t.superclasses a) (h : t.Superinterface b i) :
    t.Superinterface a i := by
  have lift (j : ClassId) (listed : j ∈ t.inheritedInterfaces b) :
      j ∈ t.inheritedInterfaces a := by
    obtain ⟨k, above, lists⟩ := List.mem_flatMap.1 listed
    exact List.mem_flatMap.2 ⟨k, mem_superclasses_trans up above, lists⟩
  induction h using Relation.TransGen.head_induction_on with
  | single edge => exact .single (lift _ edge)
  | head edge rest _ => exact .head (lift _ edge) rest

end ClassTable

end JavaMachine
