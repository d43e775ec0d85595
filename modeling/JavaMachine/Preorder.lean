/-!
# Preorder of descending graphs

A graph on numbers whose edges lead to smaller numbers only. `preorder` lists what can be reached
from a number, depth first and each number once, so it stays short where there are many paths to
the same number. `mem_preorder` says that nothing is missed, and `findSome?_preorder_eq_searchPaths`
that a number listed once is enough: what a search meets first is what it would meet first along the
paths.
-/
namespace JavaMachine

/-- Every edge leads to a smaller number. -/
def Descending (next : Nat → List Nat) : Prop := ∀ c, ∀ i ∈ next c, i < c

/-- There is a path from the first number to the second. -/
inductive Reaches (next : Nat → List Nat) : Nat → Nat → Prop
  | refl (c : Nat) : Reaches next c c
  | step {c i k : Nat} (edge : i ∈ next c) (rest : Reaches next i k) : Reaches next c k

/-- Adds to the numbers seen, newest first, those on paths from `c` that are not longer than
`depth` and do not pass a number seen before. -/
def visit (next : Nat → List Nat) : Nat → List Nat → Nat → List Nat
  | 0, seen, _ => seen
  | depth + 1, seen, c =>
    if c ∈ seen then seen else (next c).foldl (visit next depth) (c :: seen)

/-- The numbers reached from `c`, depth first, each where it is met first. -/
def preorder (next : Nat → List Nat) (c : Nat) : List Nat := (visit next (c + 1) [] c).reverse

/-- The first result along the paths from `c`, depth first, without memory of what was seen. -/
def searchPaths {β : Type} (next : Nat → List Nat) (f : Nat → Option β) : Nat → Nat → Option β
  | 0, _ => none
  | depth + 1, c => (f c).or ((next c).findSome? (searchPaths next f depth))

namespace Descending

variable {next : Nat → List Nat} {β : Type}

/-- What the numbers seen below a bound lead to has been seen as well. -/
def ClosedBelow (next : Nat → List Nat) (bound : Nat) (seen : List Nat) : Prop :=
  ∀ c ∈ seen, c < bound → ∀ i ∈ next c, i ∈ seen

theorem le_of_reaches (h : Descending next) {c k : Nat} (r : Reaches next c k) : k ≤ c := by
  induction r with
  | refl => exact Nat.le_refl _
  | step edge _ ih => exact Nat.le_trans ih (Nat.le_of_lt (h _ _ edge))

theorem mem_of_reaches (h : Descending next) {bound : Nat} {seen : List Nat}
    (closed : ClosedBelow next bound seen) {c k : Nat} (r : Reaches next c k) (member : c ∈ seen)
    (below : c < bound) : k ∈ seen := by
  induction r with
  | refl => exact member
  | step edge _ ih =>
    exact ih (closed _ member below _ edge) (Nat.lt_trans (h _ _ edge) below)

/-- What a visit adds, and that it adds all: the old numbers stay, the new ones are reached, and
what the new ones lead to is there. -/
structure Extends (next : Nat → List Nat) (seen : List Nat) (roots : List Nat)
    (result : List Nat) : Prop where
  old : ∀ c ∈ seen, c ∈ result
  met : ∀ c ∈ roots, c ∈ result
  reached : ∀ c ∈ result, c ∈ seen ∨ ∃ r ∈ roots, Reaches next r c
  closed : ∀ c ∈ result, c ∉ seen → ∀ i ∈ next c, i ∈ result

theorem Extends.closedBelow {bound : Nat} {seen roots result : List Nat}
    (e : Extends next seen roots result) (closed : ClosedBelow next bound seen) :
    ClosedBelow next bound result := by
  intro c member below i edge
  by_cases old : c ∈ seen
  · exact e.old i (closed c old below i edge)
  · exact e.closed c member old i edge

theorem foldl_visit_extends {depth : Nat} (bound : Nat)
    (ih : ∀ seen c, c < depth → ClosedBelow next (c + 1) seen →
      Extends next seen [c] (visit next depth seen c))
    (roots : List Nat) (seen : List Nat) (small : ∀ r ∈ roots, r < depth ∧ r < bound)
    (closed : ClosedBelow next bound seen) :
    Extends next seen roots (roots.foldl (visit next depth) seen) := by
  induction roots generalizing seen with
  | nil =>
    exact ⟨fun _ m => m, fun _ m => by simp at m, fun _ m => .inl m, fun _ m n => absurd m n⟩
  | cons r rest ihRest =>
    have first := ih seen r (small r (by simp)).1 (fun c member below =>
      closed c member (Nat.lt_of_lt_of_le below (small r (by simp)).2))
    have others := ihRest (visit next depth seen r) (fun s m => small s (by simp [m]))
      (first.closedBelow closed)
    refine ⟨fun c m => others.old c (first.old c m), ?_, ?_, ?_⟩
    · intro c m
      rcases List.mem_cons.1 m with rfl | m
      · exact others.old c (first.met c (by simp))
      · exact others.met c m
    · intro c m
      rcases others.reached c m with m | ⟨s, ms, path⟩
      · rcases first.reached c m with m | ⟨s, ms, path⟩
        · exact .inl m
        · exact .inr ⟨s, by simp_all, path⟩
      · exact .inr ⟨s, by simp [ms], path⟩
    · intro c m new i edge
      by_cases old : c ∈ visit next depth seen r
      · exact others.old i (first.closed c old new i edge)
      · exact others.closed c m old i edge

theorem closedBelow_cons {c : Nat} {seen : List Nat} (closed : ClosedBelow next (c + 1) seen) :
    ClosedBelow next c (c :: seen) := by
  intro k member below i edge
  rcases List.mem_cons.1 member with rfl | member
  · exact absurd below (Nat.lt_irrefl _)
  · exact List.mem_cons_of_mem _ (closed k member (Nat.lt_succ_of_lt below) i edge)

theorem visit_extends (h : Descending next) (depth : Nat) (seen : List Nat) (c : Nat)
    (small : c < depth) (closed : ClosedBelow next (c + 1) seen) :
    Extends next seen [c] (visit next depth seen c) := by
  induction depth generalizing seen c with
  | zero => exact absurd small (Nat.not_lt_zero c)
  | succ depth ih =>
    rw [visit]
    split
    next member =>
      exact ⟨fun _ m => m, fun k m => by simp_all, fun _ m => .inl m, fun _ m n => absurd m n⟩
    next fresh =>
      have e := foldl_visit_extends c ih (next c) (c :: seen)
        (fun i edge => ⟨by have := h c i edge; omega, h c i edge⟩) (closedBelow_cons closed)
      refine ⟨fun k m => e.old k (by simp [m]), fun k m => e.old k (by simp_all), ?_, ?_⟩
      · intro k m
        rcases e.reached k m with m | ⟨i, edge, path⟩
        · rcases List.mem_cons.1 m with rfl | m
          · exact .inr ⟨k, by simp, .refl k⟩
          · exact .inl m
        · exact .inr ⟨c, by simp, .step edge path⟩
      · intro k m new i edge
        by_cases same : k = c
        · subst same
          exact e.met i edge
        · exact e.closed k m (by simp [same, new]) i edge

/-- The preorder lists exactly what is reached. -/
theorem mem_preorder (h : Descending next) {c k : Nat} :
    k ∈ preorder next c ↔ Reaches next c k := by
  have closed (bound : Nat) : ClosedBelow next bound [] := fun _ m => by simp at m
  have e := visit_extends h (c + 1) [] c (Nat.lt_succ_self c) (closed _)
  rw [preorder, List.mem_reverse]
  constructor
  · intro m
    rcases e.reached k m with m | ⟨r, mr, path⟩
    · simp at m
    · simp_all
  · intro path
    exact mem_of_reaches h (e.closedBelow (closed (c + 1))) path (e.met c (by simp))
      (Nat.lt_succ_self c)

/-! ### Searching -/

theorem exists_of_searchPaths {f : Nat → Option β} {depth c : Nat} {b : β}
    (found : searchPaths next f depth c = some b) : ∃ k, Reaches next c k ∧ f k = some b := by
  induction depth generalizing c with
  | zero => simp [searchPaths] at found
  | succ depth ih =>
    rw [searchPaths, Option.or_eq_some_iff] at found
    rcases found with here | ⟨-, below⟩
    · exact ⟨c, .refl c, here⟩
    · obtain ⟨i, edge, deeper⟩ := List.exists_of_findSome?_eq_some below
      obtain ⟨k, path, hit⟩ := ih deeper
      exact ⟨k, .step edge path, hit⟩

theorem findSome?_foldl_visit {f : Nat → Option β} {depth : Nat} (h : Descending next) (bound : Nat)
    (ih : ∀ seen c, c < depth → ClosedBelow next (c + 1) seen →
      (visit next depth seen c).reverse.findSome? f =
        (seen.reverse.findSome? f).or (searchPaths next f depth c))
    (roots : List Nat) (seen : List Nat) (small : ∀ r ∈ roots, r < depth ∧ r < bound)
    (closed : ClosedBelow next bound seen) :
    (roots.foldl (visit next depth) seen).reverse.findSome? f =
      (seen.reverse.findSome? f).or (roots.findSome? (searchPaths next f depth)) := by
  induction roots generalizing seen with
  | nil => simp
  | cons r rest ihRest =>
    have closedHere : ClosedBelow next (r + 1) seen := fun c member below =>
      closed c member (Nat.lt_of_lt_of_le below (small r (by simp)).2)
    have e := visit_extends h depth seen r (small r (by simp)).1 closedHere
    rw [List.foldl_cons, ihRest _ (fun s m => small s (by simp [m])) (e.closedBelow closed),
      ih seen r (small r (by simp)).1 closedHere, List.findSome?_cons, Option.or_assoc]
    cases searchPaths next f depth r <;> simp

theorem findSome?_visit {f : Nat → Option β} (h : Descending next) (depth : Nat)
    (seen : List Nat) (c : Nat) (small : c < depth) (closed : ClosedBelow next (c + 1) seen) :
    (visit next depth seen c).reverse.findSome? f =
      (seen.reverse.findSome? f).or (searchPaths next f depth c) := by
  induction depth generalizing seen c with
  | zero => exact absurd small (Nat.not_lt_zero c)
  | succ depth ih =>
    rw [visit]
    split
    next member =>
      cases before : seen.reverse.findSome? f with
      | some b => simp
      | none =>
        cases found : searchPaths next f (depth + 1) c with
        | none => simp
        | some b =>
          obtain ⟨k, path, hit⟩ := exists_of_searchPaths found
          have := mem_of_reaches h closed path member (Nat.lt_succ_self c)
          rw [List.findSome?_eq_none_iff] at before
          simp [before k (by simpa using this)] at hit
    next fresh =>
      rw [findSome?_foldl_visit h c ih (next c) (c :: seen)
        (fun i edge => ⟨by have := h c i edge; omega, h c i edge⟩) (closedBelow_cons closed),
        searchPaths, List.reverse_cons, List.findSome?_append, Option.or_assoc]
      simp

theorem findSome?_congr {α : Type} {f g : α → Option β} {l : List α}
    (same : ∀ a ∈ l, f a = g a) : l.findSome? f = l.findSome? g := by
  induction l with
  | nil => rfl
  | cons a rest ih =>
    rw [List.findSome?_cons, List.findSome?_cons, same a (by simp),
      ih fun b m => same b (by simp [m])]

/-- Once paths may be as long as the number they start from, they are not cut. -/
theorem searchPaths_eq {f : Nat → Option β} (h : Descending next) {depth depth' c : Nat}
    (deep : c < depth) (deep' : c < depth') :
    searchPaths next f depth c = searchPaths next f depth' c := by
  induction depth generalizing depth' c with
  | zero => exact absurd deep (Nat.not_lt_zero c)
  | succ depth ih =>
    cases depth' with
    | zero => exact absurd deep' (Nat.not_lt_zero c)
    | succ depth' =>
      rw [searchPaths, searchPaths]
      congr 1
      refine findSome?_congr fun i edge => ?_
      have := h c i edge
      exact ih (by omega) (by omega)

theorem findSome?_preorder_eq_searchPaths (h : Descending next) (f : Nat → Option β)
    {depth c : Nat} (deep : c < depth) :
    (preorder next c).findSome? f = searchPaths next f depth c := by
  have found := findSome?_visit (f := f) h (c + 1) [] c (Nat.lt_succ_self c)
    (fun _ m => by simp at m)
  rw [preorder, found, searchPaths_eq h (Nat.lt_succ_self c) deep]
  simp

end Descending

end JavaMachine
