import JavaMachine.Proofs.ArrayCopies
import JavaMachine.Proofs.ArrayLayers
import JavaMachine.Proofs.ClassObjects
import JavaMachine.Proofs.SlotRearrangement

/-!
# Arrays of arrays

An instruction that makes an array of several dimensions builds a tree. At every path of indexes
that are less than the counts of their levels there is an array of its own, of the length that its
level asks for and of the class that is left when a component is taken once for every index. None of
them was there before, and the last level is as empty as new arrays are. A count that is negative is
found before anything is made.
-/
namespace JavaMachine

/-- The indexes lead to an array of a tree with the counts. -/
inductive ArrayPath : List Nat → List Nat → Prop
  | here (n : Nat) (counts : List Nat) : ArrayPath (n :: counts) []
  | inner {n i : Nat} {counts path : List Nat} (inside : i < n) (h : ArrayPath counts path) :
      ArrayPath (n :: counts) (i :: path)

theorem ClassTable.components_zero (t : ClassTable) (c : ClassId) :
    (t.components c)[0]? = some c := by
  rw [components]
  rfl

namespace World

variable {w₀ w w₁ w' : World} {c k : ClassId} {r x : Reference} {counts path : List Nat} {n : Nat}

def follow? (w : World) : Reference → List Nat → Option Reference
  | r, [] => some r
  | r, i :: path =>
    match w.element? r i with
    | some (.reference x) => w.follow? x path
    | _ => none

def blankArray (w : World) (c : ClassId) (n : Nat) : Entity :=
  match w.classes.name c with
  | .array (.primitive p) => .primitives c (.zeros p n)
  | _ => .references c (Array.replicate n .null)

/-- The reference leads to an array as it has to be at the end of a path: of the length that its
level asks for and of the class that is left of the one of the tree, with references in it or, at
the last level, as new arrays are. -/
structure StandsAt (w : World) (c : ClassId) (counts path : List Nat) (x : Reference) : Prop where
  array : ∃ e k n, w.heap.get? x = some e ∧ (w.classes.components c)[path.length]? = some k ∧
    counts[path.length]? = some n ∧ e.owner = k ∧ e.length? = some n ∧
      (if path.length + 1 = counts.length then e = w.blankArray k n
        else ∃ elements, e = .references k elements)

/-- At every path there is an array as it has to be, one of its own that was not there in an earlier
world. -/
structure ArrayTree (w₀ w : World) (c : ClassId) (counts : List Nat) (r : Reference) : Prop where
  arrays : ∀ path, ArrayPath counts path →
    ∃ x, w.follow? r path = some x ∧ w.StandsAt c counts path x ∧ w₀.heap.get? x = none
  distinct : ∀ path path' x, ArrayPath counts path → ArrayPath counts path' →
    w.follow? r path = some x → w.follow? r path' = some x → path = path'

/-- The worlds differ in the heap, and there only by what the second one has besides. -/
structure Allocates (w w' : World) : Prop where
  rest : w' = { w with heap := w'.heap }
  kept : ∀ r e, w.heap.get? r = some e → w'.heap.get? r = some e

instance : IsPreorder World Allocates where
  refl _ := ⟨rfl, fun _ _ => id⟩
  trans _ _ _ h h' := by
    refine ⟨?_, fun r e here => h'.kept r e (h.kept r e here)⟩
    rw [h'.rest, h.rest]

namespace Allocates

variable (h : w.Allocates w')
include h

theorem classes : w'.classes = w.classes := by rw [h.rest]

theorem layered (layered : w.Layered) : w'.Layered :=
  layered.of_same h.classes (by rw [h.rest]) (by rw [h.rest])

theorem registry : w'.registry = w.registry := by rw [h.rest]

theorem element? {i : Nat} {a : Element} (here : w.element? r i = some a) :
    w'.element? r i = some a := by
  obtain ⟨e, found, at'⟩ := Option.bind_eq_some_iff.1 here
  exact (element?_of_get? (h.kept r e found) i).trans at'

theorem follow? (here : w.follow? r path = some x) : w'.follow? r path = some x := by
  induction path generalizing r with
  | nil => exact here
  | cons i path ih =>
    unfold World.follow? at here ⊢
    split at here
    case h_1 y found =>
      rw [h.element? found]
      exact ih here
    case h_2 => cases here

theorem standsAt (stands : w.StandsAt c counts path x) : w'.StandsAt c counts path x := by
  obtain ⟨e, k, n, found, facts⟩ := stands.array
  refine ⟨e, k, n, h.kept x e found, ?_⟩
  unfold blankArray
  rw [h.classes]
  exact facts

theorem missing (gone : w'.heap.get? x = none) : w.heap.get? x = none := by
  cases found : w.heap.get? x with
  | none => rfl
  | some e => cases gone.symm.trans (h.kept x e found)

end Allocates

theorem ArrayTree.found_before (tree : ArrayTree w₀ w c counts r) (h : w.Allocates w')
    (on : ArrayPath counts path) (found : w'.follow? r path = some x) :
    w.follow? r path = some x ∧ w.heap.get? x ≠ none := by
  obtain ⟨y, here, stands, -⟩ := tree.arrays path on
  cases (h.follow? here).symm.trans found
  obtain ⟨e, k, n, held, -⟩ := stands.array
  refine ⟨here, ?_⟩
  rw [held]
  exact Option.some_ne_none e

theorem ArrayTree.allocates (tree : ArrayTree w₀ w c counts r) (h : w.Allocates w') :
    ArrayTree w₀ w' c counts r := by
  refine ⟨fun path on => ?_, fun path path' x on on' here here' => ?_⟩
  · obtain ⟨x, here, stands, new⟩ := tree.arrays path on
    exact ⟨x, h.follow? here, h.standsAt stands, new⟩
  · exact tree.distinct path path' x on on' (tree.found_before h on here).1
      (tree.found_before h on' here').1

/-! ### Rows of trees -/

/-- The references lead to trees that have no array in common. -/
structure Row (w₀ w : World) (c : ClassId) (counts : List Nat) (elements : Array Reference) :
    Prop where
  trees : ∀ (i : Nat) r, elements[i]? = some r → ArrayTree w₀ w c counts r
  apart : ∀ (i j : Nat) r r' path path' x, elements[i]? = some r → elements[j]? = some r' →
    ArrayPath counts path → ArrayPath counts path' → w.follow? r path = some x →
      w.follow? r' path' = some x → i = j

theorem Row.empty (w₀ w : World) (c : ClassId) (counts : List Nat) : Row w₀ w c counts #[] where
  trees _ _ here := by cases here
  apart _ _ _ _ _ _ _ here := by cases here

/-- A tree that is all new to the world of a row is put at the end of it. -/
theorem Row.push {elements : Array Reference} (row : Row w₀ w c counts elements)
    (before : w₀.Allocates w) (h : w.Allocates w') (tree : ArrayTree w w' c counts r) :
    Row w₀ w' c counts (elements.push r) := by
  have new {path : List Nat} {x : Reference} (on : ArrayPath counts path)
      (found : w'.follow? r path = some x) : w.heap.get? x = none := by
    obtain ⟨y, at', -, new⟩ := tree.arrays path on
    cases at'.symm.trans found
    exact new
  constructor
  · intro i r' here
    rw [Array.getElem?_push] at here
    split at here
    · cases here
      refine ⟨fun path on => ?_, tree.distinct⟩
      obtain ⟨x, at', stands, new⟩ := tree.arrays path on
      exact ⟨x, at', stands, before.missing new⟩
    · exact (row.trees i r' here).allocates h
  · intro i j r₁ r₂ path path' x here here' on on' found found'
    rw [Array.getElem?_push] at here here'
    split at here <;> split at here'
    · omega
    · cases here
      exact absurd (new on found) ((row.trees j r₂ here').found_before h on' found').2
    · cases here'
      exact absurd (new on' found') ((row.trees i r₁ here).found_before h on found).2
    · exact row.apart i j r₁ r₂ path path' x here here' on on'
        ((row.trees i r₁ here).found_before h on found).1
        ((row.trees j r₂ here').found_before h on' found').1

/-- An operation that grows a new tree in every world to come is repeated. -/
theorem collect_row {x : Operation Reference} (n : Nat) :
    ∀ {w : World} {done : Array Reference}, w₀.Allocates w → Row w₀ w c counts done →
      (∀ w₁, w.Allocates w₁ →
        ∃ r w₂, x w₁ = .ok r w₂ ∧ w₁.Allocates w₂ ∧ ArrayTree w₁ w₂ c counts r) →
      ∃ elements w', collect x n done w = .ok elements w' ∧ w₀.Allocates w' ∧
        Row w₀ w' c counts elements ∧ elements.size = done.size + n := by
  -- the trees so far stay apart from the next one, since all of it is new to the world they are in
  induction n with
  | zero => exact fun before row _ => ⟨_, _, rfl, before, row, rfl⟩
  | succ n ih =>
    intro w done before row grows
    obtain ⟨r, w₁, ran, allocates, tree⟩ := grows w (refl_of Allocates w)
    obtain ⟨elements, w', rest, after, row', size⟩ :=
      ih (trans_of Allocates before allocates) (row.push before allocates tree)
        fun w₂ later => grows w₂ (trans_of Allocates allocates later)
    refine ⟨elements, w', ?_, after, row', ?_⟩
    · unfold collect
      rw [bind_of_ok ran]
      exact rest
    · rw [size, Array.size_push]
      omega

/-! ### The trees that are built -/

theorem owner_blankArray (w : World) (c : ClassId) (n : Nat) : (w.blankArray c n).owner = c := by
  unfold blankArray
  split <;> rfl

theorem length_blankArray (w : World) (c : ClassId) (n : Nat) :
    (w.blankArray c n).length? = some n := by
  unfold blankArray
  split
  · exact congrArg some (Storage.size_zeros _ n)
  · exact congrArg some Array.size_replicate

theorem allocate_new (w : World) (e : Entity) :
    ∃ r w', allocate e w = .ok r w' ∧ w.Allocates w' ∧ w'.heap.get? r = some e ∧
      w.heap.get? r = none := by
  refine ⟨_, _, rfl, ⟨rfl, fun _ _ => Heap.get?_allocate_of_some e⟩, ?_, ?_⟩
  · exact (Heap.get?_allocate w.heap e _).trans (if_pos rfl)
  · exact Array.getElem?_eq_none (Nat.le_refl _)

theorem allocate_blankArray (w : World) (c : ClassId) (n : Nat) :
    ∃ r w', allocate (w.blankArray c n) w = .ok r w' ∧ w.Allocates w' ∧
      ArrayTree w w' c [n] r := by
  obtain ⟨r, w', made, allocates, here, new⟩ := w.allocate_new (w.blankArray c n)
  refine ⟨r, w', made, allocates, ?_, ?_⟩
  · rintro path (_ | ⟨_, ⟨⟩⟩)
    refine ⟨r, rfl, ⟨_, c, n, here, ?_, rfl, w.owner_blankArray c n, w.length_blankArray c n, ?_⟩,
      new⟩
    · exact ClassTable.components_zero _ c
    · rw [if_pos (by rfl)]
      unfold blankArray
      rw [allocates.classes]
  · rintro path path' x (_ | ⟨_, ⟨⟩⟩) (_ | ⟨_, ⟨⟩⟩) - -
    rfl

theorem follow?_cons {elements : Array Reference}
    (here : w.heap.get? r = some (.references c elements)) (i : Nat) (path : List Nat) :
    w.follow? r (i :: path) = elements[i]?.bind (w.follow? · path) := by
  change (match w.element? r i with
    | some (.reference x) => w.follow? x path
    | _ => none) = _
  rw [element?_of_get? here]
  change (match elements[i]?.map Element.reference with
    | some (.reference x) => w.follow? x path
    | _ => none) = _
  cases elements[i]? <;> rfl

/-- What stands in a tree stands one level lower in a tree over it. -/
theorem StandsAt.over (stands : w.StandsAt k counts path x)
    (layer : w.classes.component? c = some k) (n i : Nat) :
    w.StandsAt c (n :: counts) (i :: path) x := by
  obtain ⟨e, d, m, held, class', count, owner, length, holds⟩ := stands.array
  refine ⟨e, d, m, held, ?_, count, owner, length, ?_⟩
  · rw [ClassTable.components_of_some layer]
    exact class'
  · simpa using holds

/-- An array that was not there before, over a row of trees that were, is a tree with one level
more. -/
theorem Row.tree {elements : Array Reference} (row : Row w₀ w k (n :: counts) elements)
    (before : w₀.Allocates w) (h : w.Allocates w') (layer : w.classes.component? c = some k)
    (here : w'.heap.get? r = some (.references c elements)) (new : w.heap.get? r = none) :
    ArrayTree w₀ w' c (elements.size :: n :: counts) r := by
  have layer' : w'.classes.component? c = some k := by rw [h.classes, layer]
  have leads {i : Nat} {path : List Nat} {x : Reference} (on : ArrayPath (n :: counts) path)
      (found : w'.follow? r (i :: path) = some x) :
      ∃ y, elements[i]? = some y ∧ w.follow? y path = some x ∧ x ≠ r := by
    rw [follow?_cons here] at found
    obtain ⟨y, at', found⟩ := Option.bind_eq_some_iff.1 found
    obtain ⟨below, held⟩ := (row.trees i y at').found_before h on found
    refine ⟨y, at', below, ?_⟩
    rintro rfl
    exact held new
  constructor
  case arrays =>
    intro path on
    cases on with
    | here =>
      refine ⟨r, rfl, ⟨_, c, _, here, ClassTable.components_zero _ c, rfl, rfl, rfl, ?_⟩,
        before.missing new⟩
      rw [if_neg (by simp)]
      exact ⟨elements, rfl⟩
    | @inner _ i _ path inside on =>
      have at' : elements[i]? = some elements[i] := Array.getElem?_eq_getElem inside
      obtain ⟨x, found, stands, missing⟩ := ((row.trees i _ at').allocates h).arrays path on
      refine ⟨x, ?_, stands.over layer' _ i, missing⟩
      rw [follow?_cons here, at']
      exact found
  case distinct =>
    intro path path' x on on' found found'
    cases on with
    | here =>
      cases found
      cases on' with
      | here => rfl
      | inner _ on' =>
        obtain ⟨_, -, -, other⟩ := leads on' found'
        exact absurd rfl other
    | inner _ on =>
      obtain ⟨y, at', below, other⟩ := leads on found
      cases on' with
      | here =>
        cases found'
        exact absurd rfl other
      | inner _ on' =>
        obtain ⟨y', at'', below', -⟩ := leads on' found'
        cases row.apart _ _ y y' _ _ x at' at'' on on' below below'
        cases at'.symm.trans at''
        rw [(row.trees _ y at').distinct _ _ x on on' below below']

theorem newNestedArray_tree (further : List Nat) :
    ∀ {w : World} {type : FieldType} {c : ClassId} (length : Nat), w.Layered →
      w.registry.get? (.array type) = some c → further.length ≤ type.depth →
      ∃ r w', newNestedArray c length further w = .ok r w' ∧ w.Allocates w' ∧
        ArrayTree w w' c (length :: further) r := by
  induction further with
  | nil =>
    intro w type c length layered found _
    have name := layered.names _ c found
    have built : newNestedArray c length [] w = allocate (w.blankArray c length) w := by
      unfold newNestedArray blankArray
      rw [get_bind, name]
      cases type <;> rfl
    rw [built]
    exact w.allocate_blankArray c length
  | cons next further ih =>
    intro w type c length layered found deep
    cases type with
    | primitive | object => exact absurd deep (Nat.not_succ_le_zero _)
    | array type =>
      have name := layered.names _ c found
      obtain ⟨k, layer, below, loaded⟩ := layered.typeClass_eq found
      obtain ⟨elements, w₁, collected, allocates, row, size⟩ :=
        collect_row length (refl_of Allocates w) (.empty w w k (next :: further)) fun w₁ later =>
          ih next (later.layered layered) (by rw [later.registry, below])
            (Nat.le_of_succ_le_succ deep)
      rw [Array.size_empty, Nat.zero_add] at size
      have layer' : w₁.classes.component? c = some k := by rw [allocates.classes, layer]
      obtain ⟨r, w', made, after, here, new⟩ := w₁.allocate_new (.references c elements)
      have tree := row.tree allocates after layer' here new
      rw [size] at tree
      refine ⟨r, w', ?_, trans_of Allocates allocates after, tree⟩
      unfold newNestedArray
      rw [get_bind, name]
      change (typeClass (.array type) >>= fun component => collect (newNestedArray component next
        further) length #[] >>= fun elements => allocate (.references c elements)) w = _
      rw [bind_of_ok loaded, bind_of_ok collected, made]

end World

/-! ### The instruction -/

open Execution

theorem checkLengths_of_nonneg {lengths : List Int32} (h : ∀ n ∈ lengths, 0 ≤ n.toInt) :
    lengths.mapM checkLength = .ok (lengths.map fun n => n.toInt.toNat) := by
  induction lengths with
  | nil => rfl
  | cons n rest ih =>
    obtain ⟨nonneg, others⟩ := List.forall_mem_cons.1 h
    have passes : checkLength n = .ok n.toInt.toNat := if_neg (Int.not_lt.2 nonneg)
    rw [List.mapM_cons, passes, ih others]
    rfl

theorem checkLengths_of_negative {lengths rest : List Int32} {n : Int32}
    (h : ∀ n ∈ lengths, 0 ≤ n.toInt) (negative : n.toInt < 0) :
    (lengths ++ n :: rest).mapM checkLength = .error (.negativeArraySize n) := by
  induction lengths with
  | nil =>
    have fails : checkLength n = .error (.negativeArraySize n) := if_pos negative
    rw [List.nil_append, List.mapM_cons, fails]
    rfl
  | cons m lengths ih =>
    obtain ⟨nonneg, others⟩ := List.forall_mem_cons.1 h
    have passes : checkLength m = .ok m.toInt.toNat := if_neg (Int.not_lt.2 nonneg)
    rw [List.cons_append, List.mapM_cons, passes, ih others]
    rfl

/-- The lengths come off the stack with the last one first. -/
theorem popLengths_eq (lengths : List Int32) :
    ∀ (popped : List Int32) {beneath : List Value} {s : OperandStack}, s.WellFormed →
      s.values = lengths.map .int ++ beneath →
      popLengths lengths.length popped s =
        .ok (lengths.reverse ++ popped) (s.withValues beneath) := by
  induction lengths with
  | nil =>
    intro popped beneath s wellFormed values
    have kept := wellFormed.withValues_self
    rw [values] at kept
    exact congrArg _ kept.symm
  | cons n rest ih =>
    intro popped beneath s wellFormed values
    have top : OperandStack.popInt s = .ok n (s.withValues (rest.map .int ++ beneath)) := by
      unfold OperandStack.popInt OperandStack.popAs
      rw [bind_of_ok (wellFormed.pop_of_cons values)]
      rfl
    have below : (s.withValues (rest.map .int ++ beneath)).WellFormed :=
      wellFormed.beneath (show s.values = [.int n] ++ (rest.map .int ++ beneath) from values)
    rw [List.length_cons, popLengths, bind_of_ok top, ih (n :: popped) below rfl]
    simp [OperandStack.withValues]

theorem slots_ints (ns : List Int32) : OperandStack.slots (ns.map .int) = ns.length := by
  induction ns with
  | nil => rfl
  | cons n ns ih =>
    rw [List.map_cons, OperandStack.slots_cons, ih]
    exact Nat.add_comm 1 ns.length

/-- The instruction names a class that can be loaded and has at least as many dimensions as there
are counts on the stack, the last of them on top. -/
structure AsksForArray (a : Activation) (index : UInt16) (dimensions : UInt8) (c : ClassId)
    (loaded : World) (counts : List Int32) (beneath : List Value) : Prop where
  finds : ∃ name, (a.world.classes.pool a.frame.owner).classAt index = .ok name ∧
    World.loadClass name a.world = .ok c loaded ∧ dimensions.toNat ≤ name.type.depth
  positive : 1 ≤ dimensions.toNat
  size : counts.length = dimensions.toNat
  wellFormed : a.frame.stack.WellFormed
  values : a.frame.stack.values = counts.reverse.map .int ++ beneath

namespace AsksForArray

variable {a : Activation} {index : UInt16} {dimensions : UInt8} {c : ClassId} {w₁ : World}
  {counts : List Int32} {beneath : List Value}
  (h : AsksForArray a index dimensions c w₁ counts beneath)
include h

/-- The class is found and the counts are taken off before anything is made. -/
theorem newMultiArray_eq :
    Execution.newMultiArray index dimensions a = (do
      let lengths ← ofExcept (counts.mapM checkLength)
      let r ← onWorld (World.newNestedArray c (lengths.headD 0) lengths.tail)
      onStack (OperandStack.push (.reference r)) : Execution Unit)
        ⟨{ a.frame with stack := a.frame.stack.withValues beneath }, w₁⟩ := by
  obtain ⟨name, named, loaded, -⟩ := h.finds
  have popped := popLengths_eq counts.reverse [] h.wellFormed h.values
  rw [List.length_reverse, h.size, List.reverse_reverse, List.append_nil] at popped
  have read : (ofExcept ((a.world.classes.pool a.frame.owner).classAt index) : Execution _) a =
      .ok name a := ofExcept_eq_ok.2 ⟨named, rfl⟩
  have taken : onStack (popLengths dimensions.toNat []) ⟨a.frame, w₁⟩ =
      .ok counts ⟨{ a.frame with stack := a.frame.stack.withValues beneath }, w₁⟩ :=
    onStack_eq_ok.2 ⟨_, popped, rfl⟩
  unfold Execution.newMultiArray Execution.pool
  rw [bind_assoc, get_bind, pure_bind, bind_of_ok read,
    bind_of_ok (onWorld_eq_ok.2 ⟨w₁, loaded, rfl⟩)]
  exact bind_of_ok taken

theorem heap_eq : w₁.heap = a.world.heap := by
  obtain ⟨name, -, loaded, -⟩ := h.finds
  have same := World.keeps_loadClass World.toleratesLoading_sameContents name a.world
  rw [loaded] at same
  exact same.heap

theorem push_eq (r : Reference) :
    OperandStack.push (.reference r) (a.frame.stack.withValues beneath) =
      .ok () (a.frame.stack.withValues (.reference r :: beneath)) := by
  have below := h.wellFormed.beneath h.values
  refine (OperandStack.push_eq_ok_iff below).2 ⟨?_, rfl⟩
  have fits := h.wellFormed.size_le
  rw [h.wellFormed.size_eq, h.values, OperandStack.slots_append, slots_ints, List.length_reverse,
    h.size] at fits
  exact Nat.le_trans (Nat.add_le_add_right h.positive _) fits

theorem execute_of_nonneg (natives : NativeRegistry) (callers : List Frame)
    (layered : a.world.Layered) (nonneg : ∀ n ∈ counts, 0 ≤ n.toInt) :
    ∃ r w', (Instruction.newMultiArray index dimensions).execute natives callers a =
        .ok .proceed
          ⟨{ a.frame with stack := a.frame.stack.withValues (.reference r :: beneath) }, w'⟩ ∧
      w₁.Allocates w' ∧ World.ArrayTree w₁ w' c (counts.map fun n => n.toInt.toNat) r := by
  obtain ⟨name, -, loaded, deep⟩ := h.finds
  have layered₁ : w₁.Layered := by
    have kept := World.keeps_loadClass World.toleratesHeap_staysLayered.loading name a.world layered
    rwa [loaded] at kept
  have found := World.registered_loadClass loaded
  cases name with
  | scalar name => exact absurd (Nat.le_trans h.positive deep) (Nat.not_succ_le_zero _)
  | array type =>
    cases counts with
    | nil => exact absurd h.positive (by rw [← h.size]; exact Nat.not_succ_le_zero _)
    | cons n rest =>
      have fits : (rest.map fun n : Int32 => n.toInt.toNat).length ≤ type.depth := by
        rw [List.length_map]
        exact Nat.le_of_succ_le_succ (Nat.le_trans (Nat.le_of_eq h.size) deep)
      obtain ⟨r, w', built, allocates, tree⟩ :=
        World.newNestedArray_tree _ n.toInt.toNat layered₁ found fits
      refine ⟨r, w', ?_, allocates, tree⟩
      change proceeding (Execution.newMultiArray index dimensions) a = _
      unfold proceeding
      have checked := checkLengths_of_nonneg nonneg
      have ran : Execution.newMultiArray index dimensions a = .ok ()
          ⟨{ a.frame with stack := a.frame.stack.withValues (.reference r :: beneath) }, w'⟩ := by
        rw [h.newMultiArray_eq, checked]
        refine (bind_of_ok (onWorld_eq_ok.2 ⟨w', built, rfl⟩)).trans ?_
        exact onStack_eq_ok.2 ⟨_, h.push_eq r, rfl⟩
      rw [bind_of_ok ran]
      rfl

theorem execute_of_negative (natives : NativeRegistry) (callers : List Frame)
    {before after : List Int32} {n : Int32} (split : counts = before ++ n :: after)
    (nonneg : ∀ k ∈ before, 0 ≤ k.toInt) (negative : n.toInt < 0) :
    (Instruction.newMultiArray index dimensions).execute natives callers a =
      .error (.negativeArraySize n)
        ⟨{ a.frame with stack := a.frame.stack.withValues beneath }, w₁⟩ := by
  have ran : Execution.newMultiArray index dimensions a = .error (.negativeArraySize n)
      ⟨{ a.frame with stack := a.frame.stack.withValues beneath }, w₁⟩ := by
    rw [h.newMultiArray_eq, split, checkLengths_of_negative nonneg negative]
    rfl
  change proceeding (Execution.newMultiArray index dimensions) a = _
  unfold proceeding
  rw [bind_of_error ran]

end AsksForArray

def gridProgram : List ClassDefinition :=
  [{ ClassDefinition.ofName (.scalar "Grid") with
      superclass := some 0
      pool := .ofList [.className (.array (.array (.primitive .int)))] }]

def gridActivation (counts : List Int32) : Activation where
  frame := ⟨5, default, 0, 1, .empty 0, ⟨counts.reverse.map .int, counts.length, 2⟩⟩
  world := .ofProgram .working 0 gridProgram

end JavaMachine
