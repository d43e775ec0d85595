import JavaMachine.Proofs.ClassObjects
import JavaMachine.Proofs.FieldStorage
import JavaMachine.Proofs.Surrogates

/-!
# The contents of strings

A string object refers to an array of `char`s. A new one is found nowhere before, and spells what it
was made for, as long as nothing is written into it. Loading, allocation and the definition of
classes write into no string. A class of the name of strings may be defined again; strings are made
as long as it has a field for their characters.
-/
namespace JavaMachine

namespace Utf16

/-- The text that units are read as. -/
def textOf (units : List UInt16) : String := String.ofList (decode units)

theorem textOf_encode (s : String) : textOf (encode s.toList) = s := by
  rw [textOf, decode_encode, String.ofList_toList]

theorem encode_textOf (units : List UInt16) : encode (textOf units).toList = repair units := by
  rw [textOf, String.toList_ofList, encode_decode]

/-- Units are read as the same text exactly if they are repaired alike. -/
theorem textOf_eq_iff {units units' : List UInt16} :
    textOf units = textOf units' ↔ repair units = repair units' := by
  rw [← encode_textOf, ← encode_textOf, encode_injective.eq_iff, String.toList_inj]

end Utf16

theorem Heap.get?_allocate_fst (h : Heap) (e : Entity) : h.get? (h.allocate e).1 = none := by
  cases here : h.get? (h.allocate e).1 with
  | none => rfl
  | some e' => simp [allocate, get?] at here

namespace Storage

@[simp] theorem units?_ofUnits (units : List UInt16) : (ofUnits units).units? = some units := by
  simp [units?, ofUnits, List.filterMap_map]

end Storage

namespace World

variable {w w₁ w' : World} {r : Reference} {units units' : List UInt16} {c k : ClassId}
  {s : String}

/-- The reference leads to a string of the units. -/
def Spells (w : World) (r : Reference) (units : List UInt16) : Prop :=
  ∃ c fields chars k storage, w.heap.get? r = some (.object c fields) ∧
    w.classes.name c = stringName ∧ FiniteMap.get? fields "value" = some (.reference chars) ∧
    w.heap.get? chars = some (.primitives k storage) ∧ storage.units? = some units

theorem Spells.unique (h : w.Spells r units) (h' : w.Spells r units') : units = units' := by
  obtain ⟨c, fields, chars, k, storage, here, -, value, array, read⟩ := h
  obtain ⟨c', fields', chars', k', storage', here', -, value', array', read'⟩ := h'
  cases here.symm.trans here'
  cases value.symm.trans value'
  cases array.symm.trans array'
  exact Option.some.inj (read.symm.trans read')

/-- A string has the text that its units are read as. -/
theorem stringText?_eq_some_iff : w.stringText? r = some s ↔
    ∃ units, w.Spells r units ∧ Utf16.textOf units = s := by
  constructor
  · intro read
    unfold stringText? at read
    split at read
    next c fields here =>
      split at read
      next named =>
        split at read
        next chars value =>
          unfold charsText? at read
          split at read
          next k storage array =>
            obtain ⟨units, held, rfl⟩ := Option.map_eq_some_iff.1 read
            exact ⟨units, ⟨c, fields, chars, k, storage, get?_of_object? here, named, value, array,
              held⟩, rfl⟩
          next => cases read
        next => cases read
      next => cases read
    next => cases read
  · rintro ⟨units, ⟨c, fields, chars, k, storage, here, named, value, array, held⟩, rfl⟩
    unfold stringText?
    rw [object?_of_get? here]
    simp only [charsText?, if_pos (show w.classes.name c = .scalar "java/lang/String" from named),
      value, array, held]
    rfl

theorem Spells.text (h : w.Spells r (Utf16.encode s.toList)) : w.stringText? r = some s := by
  apply stringText?_eq_some_iff.2
  exact ⟨_, h, Utf16.textOf_encode s⟩

theorem Spells.isSome (h : w.Spells r units) : (w.heap.get? r).isSome = true := by
  obtain ⟨c, fields, chars, k, storage, here, -⟩ := h
  rw [here]
  rfl

theorem Spells.retains (h : w.Spells r units) (later : w.RetainsObjects w') :
    w'.Spells r units := by
  obtain ⟨c, fields, chars, k, storage, here, named, value, array, held⟩ := h
  have below : c < w.classes.size := by
    apply Nat.lt_of_not_le
    intro above
    rw [ClassTable.name, ClassTable.get?_eq_none above] at named
    exact absurd named (by decide)
  refine ⟨c, fields, chars, k, storage, later.entities r _ here, ?_, value,
    later.entities chars _ array, held⟩
  rw [later.agree.name_eq below, named]

/-! ### What writes into no string -/

/-- Nothing is written into a string, and no other string is kept for a text. Classes stay to be
found under plain names. -/
structure SparesStrings (w w' : World) : Prop where
  spells : ∀ r units, w.Spells r units → w'.Spells r units
  strings : w'.strings = w.strings
  titled : w.Titled → w'.Titled
  known : ∀ name, (∃ c, w.registry.get? (.scalar name) = some c) →
    ∃ c, w'.registry.get? (.scalar name) = some c

instance : IsPreorder World SparesStrings where
  refl _ := ⟨fun _ _ => id, rfl, id, fun _ => id⟩
  trans _ _ _ h h' := ⟨fun r units spelt => h'.spells r units (h.spells r units spelt),
    h'.strings.trans h.strings, h'.titled ∘ h.titled, fun name known =>
    h'.known name (h.known name known)⟩

theorem SameScalars.known (same : w.SameScalars w') (name : String)
    (known : ∃ c, w.registry.get? (.scalar name) = some c) :
    ∃ c, w'.registry.get? (.scalar name) = some c := by
  rwa [same name]

theorem toleratesLoading_sparesStrings : ToleratesLoading SparesStrings where
  marked w c undeclared due :=
    { spells := fun _ _ h => h.retains (w.retainsObjects_markInitialized c)
      strings := (w.sameContents_markInitialized c).strings
      titled := toleratesLoading_titled.marked w c undeclared due
      known := (toleratesLoading_sameScalars.marked w c undeclared due).known }
  primitive w p :=
    { spells := fun _ _ h => h.retains (toleratesLoading_retainsObjects.primitive w p)
      strings := rfl
      titled := toleratesLoading_titled.primitive w p
      known := fun _ => id }
  array w type component flags object found components new :=
    { spells := fun _ _ h => h.retains
        (toleratesLoading_retainsObjects.array w type component flags object found components new)
      strings := (toleratesLoading_sameContents.array w type component flags object found components
        new).strings
      titled := toleratesLoading_titled.array w type component flags object found components new
      known := (toleratesLoading_sameScalars.array w type component flags object found components
        new).known }

theorem retainsObjects_allocate (w : World) (e : Entity) :
    w.RetainsObjects (endState (allocate e w)) :=
  ⟨Nat.le_refl _, fun _ _ => rfl, fun _ _ => Heap.get?_allocate_of_some e, fun _ _ => id⟩

theorem sparesStrings_allocate (w : World) (e : Entity) :
    w.SparesStrings (endState (allocate e w)) where
  spells _ _ h := h.retains (w.retainsObjects_allocate e)
  strings := rfl
  titled h := h.of_same ⟨rfl, rfl, rfl⟩
  known _ := id

theorem toleratesAllocation_sparesStrings : ToleratesAllocation SparesStrings :=
  { toleratesLoading_sparesStrings with
    object := fun w _ _ _ _ _ => w.sparesStrings_allocate _
    classObject := fun w _ _ _ _ _ => w.sparesStrings_allocate _
    primitives := fun w _ _ _ => w.sparesStrings_allocate _
    nulls := fun w _ _ _ _ => w.sparesStrings_allocate _ }

theorem sparesStrings_define (w : World) (d : ClassDefinition) :
    w.SparesStrings (w.define d).2 where
  spells _ _ h := h.retains (retainsObjects_of_push rfl rfl rfl)
  strings := rfl
  titled h := h.define d
  known name := by
    rintro ⟨c, found⟩
    change ∃ c, (w.addClass d.toClass).2.registry.get? (.scalar name) = some c
    rw [registry_addClass, found]
    split <;> exact ⟨_, rfl⟩

/-! ### New strings -/

/-- The class found under the name of strings has a field for their characters. -/
def HoldsTexts (w : World) : Prop :=
  ∃ c F, w.registry.get? stringName = some c ∧ w.classes.nearestField? c "value" = some F

theorem loadArray_primitive (known : ∃ object, w.registry.get? objectName = some object)
    (p : Primitive) : ∃ k w', loadArray (.primitive p) w = .ok k w' := by
  obtain ⟨object, found⟩ := known
  rw [loadArray_eq]
  split
  · exact ⟨_, _, rfl⟩
  · have same := keeps_typeClass toleratesLoading_sameScalars (.primitive p) w "java/lang/Object"
    cases made : World.typeClass (.primitive p) w with
    | error e w₁ =>
      change primitiveClass p w = _ at made
      unfold primitiveClass at made
      split at made <;> cases made
    | ok c w₁ =>
      rw [made] at same
      have root : loadScalar "java/lang/Object" w₁ = .ok object w₁ :=
        loadScalar_eq_ok.2 ⟨same.trans found, rfl⟩
      rw [bind_of_ok made]
      unfold makeArrayClass
      rw [bind_of_ok root]
      exact ⟨_, _, rfl⟩

/-- What is new is found nowhere before, and spells the units it was made for. -/
theorem newStringOfUnits_eq_ok (titled : w.Titled) (done : newStringOfUnits units w = .ok r w') :
    w.SparesStrings w' ∧ w.heap.get? r = none ∧ w'.Spells r units := by
  have spares := keeps_newStringOfUnits toleratesAllocation_sparesStrings units w
  rw [done] at spares
  refine ⟨spares, ?_⟩
  unfold newStringOfUnits at done
  obtain ⟨owner, w₀, known, done⟩ := bind_eq_ok.1 done
  obtain ⟨found, rfl⟩ := loadScalar_eq_ok.1 known
  obtain ⟨k, w₁, loaded, done⟩ := bind_eq_ok.1 done
  have same := keeps_loadArray toleratesLoading_sameContents (.primitive .char) w
  have loads := keeps_loadArray toleratesLoading_sparesStrings (.primitive .char) w
  have scalars := keeps_loadArray toleratesLoading_sameScalars (.primitive .char) w
    "java/lang/String"
  rw [loaded] at same loads scalars
  obtain ⟨chars, w₂, placed, done⟩ := bind_eq_ok.1 done
  cases placed
  rw [get_bind] at done
  split at done
  next =>
    cases done
    constructor
    · cases before : w.heap.get? _ with
      | none => rfl
      | some e =>
        rw [← same.heap] at before
        have after := Heap.get?_allocate_of_some (.primitives k (Storage.ofUnits units)) before
        exact after.symm.trans (Heap.get?_allocate_fst _ (.object owner .empty))
    · refine ⟨owner, _, _, k, _, (Heap.get?_allocate _ _ _).trans (if_pos rfl), ?_,
        FiniteMap.get?_insert_self _ _ _, ?_, Storage.units?_ofUnits units⟩
      · exact (loads.titled titled).names stringName owner (scalars.trans found)
      · apply Heap.get?_allocate_of_some
        exact (Heap.get?_allocate _ _ _).trans (if_pos rfl)
  next => cases done

/-- A string is made exactly if its class has a field for the characters. -/
theorem newStringOfUnits_succeeds_iff (titled : w.Titled)
    (known : ∃ object, w.registry.get? objectName = some object) :
    (∃ r w', newStringOfUnits units w = .ok r w') ↔ w.HoldsTexts := by
  unfold HoldsTexts newStringOfUnits
  cases found : w.registry.get? stringName with
  | none =>
    have missing : loadScalar "java/lang/String" w =
        .error (.classNotFound "java/lang/String") w := by
      unfold loadScalar
      rw [show w.registry.get? (.scalar "java/lang/String") = none from found]
    rw [bind_of_error missing]
    simp
  | some owner =>
    have here : loadScalar "java/lang/String" w = .ok owner w := loadScalar_eq_ok.2 ⟨found, rfl⟩
    obtain ⟨k, w₁, loaded⟩ := loadArray_primitive known .char
    have retains := keeps_loadArray toleratesLoading_retainsObjects (.primitive .char) w
    rw [loaded, endState_ok] at retains
    have field : (Fields.initial (w₁.classes.instanceFields owner)).contains "value" =
        (w.classes.nearestField? owner "value").isSome := by
      rw [FiniteMap.contains, ClassTable.get?_initial, Option.isSome_map,
        retains.agree.nearestField?_eq (titled.registry _ _ found)]
    rw [bind_of_ok here, bind_of_ok loaded]
    change (∃ r w', (if (Fields.initial (w₁.classes.instanceFields owner)).contains "value" = true
      then allocate _ else throw _ : Operation Reference) _ = .ok r w') ↔ _
    rw [field]
    cases nearest : w.classes.nearestField? owner "value" with
    | none =>
      constructor
      · rintro ⟨r, w', ⟨⟩⟩
      · rintro ⟨c, F, ⟨⟩, field⟩
        cases nearest.symm.trans field
    | some F => exact ⟨fun _ => ⟨owner, F, rfl, nearest⟩, fun _ => ⟨_, _, rfl⟩⟩

end World

end JavaMachine
