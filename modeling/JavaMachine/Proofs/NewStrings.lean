import JavaMachine.Proofs.FailedInstructions
import JavaMachine.Proofs.Invocations
import JavaMachine.Proofs.StableResolution
import JavaMachine.Proofs.StringContents

/-!
# Making strings

A string can be made as long as its class has a field for the characters, and making it leaves all
that is there as it is. So strings can be made one after the other, and then an array for them.
-/
namespace JavaMachine

namespace World

variable {w w₁ w' : World} {r : Reference} {c : ClassId} {fields : Fields}

/-! ### Worlds that only grow -/

/-- Strings can be made: their class has a field for the characters. -/
structure MakesStrings (w : World) : Prop extends titled : Titled w where
  root : ∃ c, w.registry.get? objectName = some c
  texts : w.HoldsTexts

/-- All that is there stays what it is. -/
structure Extends (w w' : World) : Prop where
  classes : w.KeepsClasses w'
  strings : w.SparesStrings w'
  entities : w.Retains w'

instance : IsPreorder World Extends where
  refl w := ⟨refl_of _ w, refl_of _ w, refl_of _ w⟩
  trans _ _ _ h h' := ⟨trans_of _ h.classes h'.classes, trans_of _ h.strings h'.strings,
    trans_of _ h.entities h'.entities⟩

theorem Extends.fresh (h : w.Extends w') (new : w'.heap.get? r = none) :
    w.heap.get? r = none := by
  cases here : w.heap.get? r with
  | none => rfl
  | some e => exact nomatch new.symm.trans (h.entities.entities r e here)

theorem Extends.object? (h : w.Extends w') (here : w.object? r = some (c, fields)) :
    w'.object? r = some (c, fields) :=
  object?_of_get? (h.entities.entities r _ (get?_of_object? here))

theorem MakesStrings.extends (h : w.MakesStrings) (later : w.Extends w') : w'.MakesStrings := by
  obtain ⟨object, root⟩ := h.root
  obtain ⟨c, F, found, field⟩ := h.texts
  have below := h.titled.registry _ _ found
  exact { later.strings.titled h.titled with
    root := ⟨object, later.classes.registry _ _ root⟩
    texts := ⟨c, F, later.classes.registry _ _ found,
      (later.classes.agree.nearestField?_eq below _).trans field⟩ }

theorem MakesStrings.of_same (h : w.MakesStrings) (same : w.SameTables w') : w'.MakesStrings :=
  { h.titled.of_same same with
    root := by
      rw [same.registry]
      exact h.root
    texts := by
      unfold HoldsTexts
      rw [same.classes, same.registry]
      exact h.texts }

theorem makesStrings_start (console : Console) (clock : Nat) :
    (start console clock).MakesStrings := by
  have up : (start console clock).classes.superclass? 1 = some 0 := rfl
  refine { (canonical_start console clock).titled with root := ⟨0, rfl⟩, texts := ⟨1, ?_⟩ }
  unfold ClassTable.nearestField?
  rw [ClassTable.superclasses_of_some up]
  exact ⟨_, rfl, rfl⟩

theorem MakesStrings.define (h : w.MakesStrings) {d : ClassDefinition}
    (other : d.name ≠ stringName) : (w.define d).2.MakesStrings := by
  obtain ⟨c, F, found, field⟩ := h.texts
  have agree : ClassTable.Agree w.classes.size w.classes (w.define d).2.classes :=
    w.classes.agree_push d.toClass
  refine { h.titled.define d with
    root := (w.sparesStrings_define d).known "java/lang/Object" h.root
    texts := ⟨c, F, ?_, (agree.nearestField?_eq (h.titled.registry _ _ found) _).trans field⟩ }
  exact (registry_addClass w d.toClass stringName).trans ((if_neg other.symm).trans found)

theorem makesStrings_ofProgram (console : Console) (clock : Nat) {program : List ClassDefinition}
    (others : ∀ d ∈ program, d.name ≠ stringName) :
    (ofProgram console clock program).MakesStrings := by
  have defined : ∀ w : World, w.MakesStrings →
      (program.foldl (fun w d => (w.define d).2) w).MakesStrings := by
    induction program with
    | nil => exact fun w h => h
    | cons d rest ih =>
      obtain ⟨other, later⟩ := List.forall_mem_cons.1 others
      exact fun w h => ih later _ (h.define other)
  exact defined _ (makesStrings_start console clock)

theorem extends_loadClass {name : ClassName} (loaded : loadClass name w = .ok c w') :
    w.Extends w' := by
  have classes := keeps_loadClass tolerated_keepsClasses.loading name w
  have strings := keeps_loadClass toleratesLoading_sparesStrings name w
  rw [loaded] at classes strings
  exact ⟨classes, strings, (sameContents_of_loadClass loaded).retains⟩

theorem exists_allocate (w : World) (e : Entity) : ∃ r w', allocate e w = .ok r w' ∧
    w.Extends w' ∧ w.heap.get? r = none ∧ w'.heap.get? r = some e ∧ w'.classes = w.classes := by
  refine ⟨_, _, rfl, ⟨?_, ?_, ?_⟩, ?_, ?_, rfl⟩
  · exact toleratesHeap_keepsClasses.heap w _
  · exact w.sparesStrings_allocate e
  · exact keeps_allocate_retains e w
  · exact Heap.get?_allocate_fst w.heap e
  · exact (Heap.get?_allocate w.heap e _).trans (if_pos rfl)

/-! ### The strings and their array -/

theorem exists_newString (makes : w.MakesStrings) (text : String) :
    ∃ r w', newString text w = .ok r w' ∧ w.Extends w' ∧ w.heap.get? r = none ∧
      w'.Spells r (Utf16.encode text.toList) := by
  obtain ⟨r, w', made⟩ := (newStringOfUnits_succeeds_iff makes.titled makes.root).2 makes.texts
  have classes := keeps_newString tolerated_keepsClasses.allocation text w
  have entities := keeps_newString toleratesAllocation_retains text w
  obtain ⟨strings, new, spelt⟩ := newStringOfUnits_eq_ok makes.titled made
  rw [show newString text w = .ok r w' from made] at classes entities
  exact ⟨r, w', made, ⟨classes, strings, entities⟩, new, spelt⟩

/-- A new string is made for every text, in the order of the texts. -/
theorem exists_newStrings (makes : w.MakesStrings) (texts : List String) :
    ∃ strings w', newStrings texts w = .ok strings w' ∧ w.Extends w' ∧
      (∀ r ∈ strings, w.heap.get? r = none) ∧
      List.Forall₂ (fun r text => w'.Spells r (Utf16.encode text.toList)) strings texts := by
  induction texts generalizing w with
  | nil => exact ⟨[], w, rfl, refl_of _ w, List.forall_mem_nil _, .nil⟩
  | cons text rest ih =>
    obtain ⟨r, w₁, made, extends₁, new, spelt⟩ := exists_newString makes text
    obtain ⟨strings, w₂, later, extends₂, fresh, spell⟩ := ih (makes.extends extends₁)
    refine ⟨r :: strings, w₂, ?_, trans_of _ extends₁ extends₂, ?_, ?_⟩
    · unfold newStrings
      rw [bind_of_ok made, bind_of_ok later]
      rfl
    · exact List.forall_mem_cons.2 ⟨new, fun s member => extends₁.fresh (fresh s member)⟩
    · exact .cons (extends₂.strings.spells r _ spelt) spell

theorem exists_stringArrayClass (makes : w.MakesStrings) :
    ∃ c w', loadArray (.object "java/lang/String") w = .ok c w' ∧ w.Extends w' ∧
      w'.classes.name c = .array (.object "java/lang/String") := by
  have loads : ∃ c w', loadArray (.object "java/lang/String") w = .ok c w' := by
    rw [loadArray_eq]
    split
    · exact ⟨_, _, rfl⟩
    · obtain ⟨object, root⟩ := makes.root
      obtain ⟨c, -, found, -⟩ := makes.texts
      have component : typeClass (.object "java/lang/String") w = .ok c w :=
        loadScalar_eq_ok.2 ⟨found, rfl⟩
      have superclass : loadScalar "java/lang/Object" w = .ok object w :=
        loadScalar_eq_ok.2 ⟨root, rfl⟩
      unfold makeArrayClass
      rw [bind_of_ok component, bind_of_ok superclass]
      exact ⟨_, _, rfl⟩
  obtain ⟨c, w', loaded⟩ := loads
  have named : loadClass (.array (.object "java/lang/String")) w = .ok c w' := loaded
  have extended := extends_loadClass named
  have finds : w'.Finds (.array (.object "java/lang/String")) c :=
    finds_typeClass (show typeClass (.array (.object "java/lang/String")) w = _ from loaded)
  exact ⟨c, w', loaded, extended, (makes.extends extended).titled.name_of_finds finds⟩

end World

end JavaMachine
