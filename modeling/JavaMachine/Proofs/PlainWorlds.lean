import JavaMachine.Proofs.Invocations
import JavaMachine.Proofs.Loading

/-!
# Worlds without return addresses

The elements of arrays are numbers and references by their type, so a return address could be kept
in the fields of objects and the static fields only. No operation of the machine puts one there: new
objects hold the defaults of their fields, and what instructions write has been taken from the stack
by the type of the field.
-/
namespace JavaMachine

def Entity.IsPlain : Entity → Prop
  | .object _ fields => fields.IsPlain
  | _ => True

namespace Entity.IsPlain

variable {e : Entity}

theorem setScalar (i : Nat) (s : Scalar) (h : e.IsPlain) : (e.setScalar i s).IsPlain := by
  cases e with
  | object => exact h
  | _ => trivial

theorem overwriteScalars (i : Nat) (source : Storage) (h : e.IsPlain) :
    (e.overwriteScalars i source).IsPlain := by
  cases e with
  | object => exact h
  | _ => trivial

theorem overwriteReferences (i : Nat) (source : List Reference) (h : e.IsPlain) :
    (e.overwriteReferences i source).IsPlain := by
  cases e with
  | object => exact h
  | _ => trivial

end Entity.IsPlain

namespace World

variable {w w' : World}

/-- No field of an object and no static field is a return address. -/
structure IsPlain (w : World) : Prop where
  entities : ∀ r e, w.heap.get? r = some e → e.IsPlain
  statics : w.statics.IsPlain

def StaysPlain (w w' : World) : Prop := w.IsPlain → w'.IsPlain

instance : IsPreorder World StaysPlain := isPreorder_preserves IsPlain

theorem IsPlain.fields (h : w.IsPlain) {r : Reference} {c : ClassId} {fields : Fields}
    (here : w.object? r = some (c, fields)) : fields.IsPlain := by
  unfold object? at here
  split at here <;> cases here
  rename_i here
  exact h.entities r _ here

theorem IsPlain.stores (h : w.IsPlain) {v : Value} (stored : w.Stores v) : v.IsPlain := by
  rcases stored with ⟨r, c, fields, name, here, found⟩ | ⟨key, found⟩
  · exact h.fields here name v found
  · exact h.statics key v found

theorem SameContents.staysPlain (h : w.SameContents w') : w.StaysPlain w' := by
  intro plain
  refine ⟨fun r e here => ?_, ?_⟩
  · rw [h.heap] at here
    exact plain.entities r e here
  · rw [h.statics]
    exact plain.statics

theorem keeps_allocate_staysPlain {e : Entity} (he : e.IsPlain) :
    Keeps StaysPlain (allocate e) := by
  intro w plain
  refine ⟨fun r e' here => ?_, plain.statics⟩
  change (w.heap.allocate e).2.get? r = some e' at here
  rw [Heap.get?_allocate] at here
  split at here
  · cases here
    exact he
  · exact plain.entities r e' here

theorem keeps_modifyEntity_staysPlain (r : Reference) {f : Entity → Entity}
    (hf : ∀ e, e.IsPlain → (f e).IsPlain) : Keeps StaysPlain (modifyEntity r f) := by
  intro w plain
  refine ⟨fun r' e' here => ?_, plain.statics⟩
  change (w.heap.modify r f).get? r' = some e' at here
  rw [Heap.get?_modify] at here
  split at here
  · obtain ⟨e, found, rfl⟩ := Option.map_eq_some_iff.1 here
    exact hf e (plain.entities r' e found)
  · exact plain.entities r' e' here

theorem keeps_references_staysPlain (c : ClassId) (elements : Array Reference) :
    Keeps StaysPlain (allocate (.references c elements)) :=
  keeps_allocate_staysPlain (e := .references c elements) trivial

theorem keeps_primitives_staysPlain (c : ClassId) (storage : Storage) :
    Keeps StaysPlain (allocate (.primitives c storage)) :=
  keeps_allocate_staysPlain (e := .primitives c storage) trivial

theorem toleratesAllocation_staysPlain : ToleratesAllocation StaysPlain where
  loading := toleratesLoading_sameContents.mono fun _ _ => SameContents.staysPlain
  object w _ c fields _ plain := keeps_allocate_staysPlain (e := .object c fields) plain w
  classObject w _ c represented component _ :=
    keeps_allocate_staysPlain (e := .classObject c represented component) trivial w
  primitives w c storage _ := keeps_primitives_staysPlain c storage w
  nulls w _ c _ _ := keeps_references_staysPlain c _ w

/-- Every operation of the library leaves the world without return addresses. -/
theorem tolerated_staysPlain : Tolerated StaysPlain where
  allocation := toleratesAllocation_staysPlain
  classObjects _ _ := fun plain => ⟨plain.entities, plain.statics⟩
  strings _ _ := fun plain => ⟨plain.entities, plain.statics⟩
  nested w _ c length further _ :=
    keeps_newNestedArray toleratesAllocation_staysPlain.loading keeps_primitives_staysPlain
      keeps_references_staysPlain further c length w
  statics _ key _ _ plain := fun h => ⟨h.entities, h.statics.insert plain key⟩
  console _ _ := fun plain => ⟨plain.entities, plain.statics⟩
  trace := by
    refine keeps_fillInStackTrace toleratesAllocation_staysPlain keeps_references_staysPlain ?_
    intro r c fields name v plain w w' here related h
    have old := h.fields here
    unfold writeField
    split
    · exact keeps_modifyEntity_staysPlain (f := fun _ => .object c (fields.insert name v)) r
        (fun _ _ => old.insert plain name) w' (related h)
    · exact related h
  field w r c fields name v here plain := fun h =>
    keeps_modifyEntity_staysPlain (f := fun _ => .object c (fields.insert name v)) r
      (fun _ _ => (h.fields here).insert plain name) w h
  scalar w r i s := keeps_modifyEntity_staysPlain r (fun _ => .setScalar i s) w
  scalars w r i source := keeps_modifyEntity_staysPlain r (fun _ => .overwriteScalars i source) w
  references w r _ _ i source _ _ :=
    keeps_modifyEntity_staysPlain r (fun _ => .overwriteReferences i source) w

/-! ### Programs -/

theorem IsPlain.define (h : w.IsPlain) (d : ClassDefinition) : (w.define d).2.IsPlain := by
  refine ⟨h.entities, h.statics.insertAll fun e member => ?_⟩
  obtain ⟨f, -, rfl⟩ := List.mem_map.1 member
  exact Value.isPlain_zero f.type

theorem keeps_bootstrap_staysPlain : Keeps StaysPlain bootstrap := by
  have define (d : ClassDefinition) : Keeps StaysPlain (defineClass d) := fun w h => h.define d
  have stream (owner : ClassId) (descriptor : Int32) :
      Keeps StaysPlain (newStream owner descriptor) := by
    refine .bind .get fun w => ?_
    exact keeps_allocate_staysPlain (e := .object _ _)
      ((Fields.isPlain_initial _).insert (Value.isPlain_int descriptor) "fd")
  unfold bootstrap
  refine .bind (define _) fun object => .bind (define _) fun _ => .bind (define _) fun _ => ?_
  refine .bind (define _) fun printStream => .bind (define _) fun system => ?_
  refine .bind (stream _ _) fun out => .bind (stream _ _) fun err => .modify fun w h => ?_
  have first := h.statics.insert (Value.isPlain_reference out) (system, "out")
  exact ⟨h.entities, first.insert (Value.isPlain_reference err) (system, "err")⟩

theorem isPlain_ofProgram (console : Console) (clock : Nat) (program : List ClassDefinition) :
    (ofProgram console clock program).IsPlain := by
  refine program.foldlRecOn (motive := IsPlain) _ ?_ fun w plain d _ => plain.define d
  rw [start_eq]
  refine keeps_bootstrap_staysPlain _ ⟨fun r e here => ?_, FiniteMap.isPlain_empty⟩
  cases r <;> cases here

end World

end JavaMachine
