import JavaMachine.Execution.FieldAccess
import JavaMachine.Proofs.ArgumentPassing
import JavaMachine.Proofs.FieldResolution
import JavaMachine.Proofs.NamedClasses

/-!
# Where fields are kept

The values of fields are kept by name: an object has one slot for each name, and a class one for
each name of its static fields. Fields of one name may therefore share a slot. Here it is said which
ones do, and that a slot holds nothing but values of the types of the fields that share it, as long
as what is written is of such a type.
-/
namespace JavaMachine

/-- Where the value of a field is kept: under its name in an object, or under its name with a
class. -/
inductive FieldSlot
  | ofObject (receiver : Reference) (name : String)
  | ofClass (holder : ClassId) (name : String)
  deriving DecidableEq

namespace World

variable {w w₁ w' : World} {s : FieldSlot} {v : Value} {F : DeclaredField} {c k : ClassId}
  {r : Reference} {fields : Fields} {name : String} {written written' : List FieldSlot}

def slot? (w : World) : FieldSlot → Option Value
  | .ofObject receiver name => (w.object? receiver).bind fun o => FiniteMap.get? o.2 name
  | .ofClass holder name => w.getStatic? holder name

/-- Accesses to the field may use the slot. In an object these are the inherited fields of the name;
with a class, the static fields that a reference means whose search by name ends there. -/
inductive Shares (w : World) : FieldSlot → DeclaredField → Prop
  | ofObject {r : Reference} {c : ClassId} {fields : Fields} {F : DeclaredField}
      (here : w.object? r = some (c, fields)) (inherited : F.owner ∈ w.classes.superclasses c)
      (declared : F.field ∈ w.classes.fieldsOf F.owner) (own : F.field.isStatic = false) :
      Shares w (.ofObject r F.field.name) F
  | ofClass {c k : ClassId} {F : DeclaredField}
      (meant : w.classes.resolveField c F.field.name F.field.type = some F)
      (static : F.field.isStatic = true)
      (held : w.classes.staticHolder? c F.field.name = some k) :
      Shares w (.ofClass k F.field.name) F

/-- The slots that belong to a field: its name in an object, or its name with its own class. A
static field may also be found with a class that has another static field of the name. -/
def IsSlotOf (w : World) (F : DeclaredField) : FieldSlot → Prop
  | .ofObject _ name => F.field.isStatic = false ∧ name = F.field.name
  | .ofClass k name => F.field.isStatic = true ∧ name = F.field.name ∧
      (k = F.owner ∨ ∃ f ∈ w.classes.fieldsOf k,
        f.isStatic = true ∧ f.name = name ∧ f.type ≠ F.field.type)

theorem Shares.inherited (h : w.Shares (.ofObject r name) F)
    (here : w.object? r = some (c, fields)) :
    F.owner ∈ w.classes.superclasses c ∧ F.field ∈ w.classes.fieldsOf F.owner ∧
      F.field.isStatic = false ∧ F.field.name = name := by
  cases h with
  | ofObject found inherited declared own =>
    cases here.symm.trans found
    exact ⟨inherited, declared, own, rfl⟩

theorem Shares.isSlotOf (h : w.Shares s F) : w.IsSlotOf F s := by
  cases h with
  | ofObject here inherited declared own => exact ⟨own, rfl⟩
  | @ofClass c k F meant static held =>
    refine ⟨static, rfl, ?_⟩
    obtain ⟨k', found, which⟩ := ClassTable.staticHolder?_of_resolveField meant static
    cases held.symm.trans found
    rcases which with own | ⟨declares, other⟩
    · exact .inl own
    · obtain ⟨f, member, static, named⟩ := ClassTable.declaresStatic_iff.1 declares
      refine .inr ⟨f, member, static, named, ?_⟩
      intro same
      have missed := List.find?_eq_none.1 (Option.map_eq_none_iff.1 other) f member
      simp [named, same] at missed

/-- The value is of the type of a field that shares the slot. -/
def Admits (w : World) (s : FieldSlot) (v : Value) : Prop :=
  ∃ F, w.Shares s F ∧ v.Represents F.field.type

/-- A class has slots for exactly the static fields that it declares. -/
def StaticsDeclared (w : World) : Prop :=
  ∀ c name, w.statics.contains (c, name) = w.classes.declaresStatic name c

/-- Every object is of a class in the table, and has a slot for each of its fields. -/
def Complete (w : World) : Prop :=
  ∀ r c fields, w.object? r = some (c, fields) → c < w.classes.size ∧
    ∀ name G, w.classes.nearestField? c name = some G → fields.contains name = true

/-- The slots are those of declared fields and hold values of their types. -/
structure Stored (w : World) : Prop where
  declared : w.StaticsDeclared
  complete : w.Complete
  admitted : ∀ s v, w.slot? s = some v → w.Admits s v

theorem slot?_ofObject (here : w.object? r = some (c, fields)) :
    w.slot? (.ofObject r name) = FiniteMap.get? fields name := by
  simp [slot?, here]

theorem SameContents.slot?_eq (same : w.SameContents w') (s : FieldSlot) :
    w'.slot? s = w.slot? s := by
  cases s with
  | ofObject r name =>
    unfold slot? object?
    rw [same.heap]
  | ofClass k name =>
    unfold slot? getStatic?
    rw [same.statics]

theorem staticOwner?_eq (h : w.StaticsDeclared) (c : ClassId) (name : String) :
    w.staticOwner? c name = w.classes.staticHolder? c name := by
  have same : (fun k => w.statics.contains (k, name)) = w.classes.declaresStatic name :=
    funext fun k => h k name
  unfold staticOwner? ClassTable.staticHolder?
  rw [same]

/-! ### Overwriting slots -/

/-- The world has become another one, in which nothing is overwritten but the slots given. New
objects have all their slots, and whatever is stored newly is of the type of a field that shares its
slot. -/
structure AltersOnly (written : List FieldSlot) (w w' : World) : Prop where
  size : w.classes.size ≤ w'.classes.size
  agree : ClassTable.Agree w.classes.size w.classes w'.classes
  owners : ∀ r c fields, w.object? r = some (c, fields) →
    ∃ fields', w'.object? r = some (c, fields')
  declared : w.StaticsDeclared → w'.StaticsDeclared
  complete : w.Complete → w'.Complete
  kept : ∀ s v, w.slot? s = some v → s ∉ written → w'.slot? s = some v
  admitted : ∀ s v, w'.slot? s = some v → w.slot? s = some v ∨ w'.Admits s v

theorem Shares.later (h : w.Shares s F)
    (agree : ClassTable.Agree w.classes.size w.classes w'.classes)
    (owners : ∀ r c fields, w.object? r = some (c, fields) →
      ∃ fields', w'.object? r = some (c, fields')) : w'.Shares s F := by
  cases h with
  | @ofObject r c fields F here inherited declared own =>
    obtain ⟨fields', here'⟩ := owners r c fields here
    have inside := ClassTable.lt_size_of_mem_fieldsOf declared
    have below : c < w.classes.size := by
      rcases Nat.lt_or_ge c w.classes.size with below | above
      · exact below
      · have none : w.classes.superclass? c = none := by
          simp [ClassTable.superclass?, ClassTable.get?_eq_none above]
        rw [ClassTable.superclasses_of_none none, List.mem_singleton] at inherited
        rwa [inherited] at inside
    apply Shares.ofObject here'
    · rwa [agree.superclasses_eq below]
    · rwa [agree.fieldsOf_eq inside]
    · exact own
  | @ofClass c k F meant static held =>
    have below := ClassTable.lt_size_of_resolveField meant
    apply Shares.ofClass
    · rwa [agree.resolveField_eq below]
    · exact static
    · rwa [agree.staticHolder?_eq below]

namespace AltersOnly

theorem shares (h : AltersOnly written w w') (shares : w.Shares s F) : w'.Shares s F :=
  shares.later h.agree h.owners

theorem admits (h : AltersOnly written w w') (admits : w.Admits s v) : w'.Admits s v := by
  obtain ⟨F, shares, represents⟩ := admits
  exact ⟨F, h.shares shares, represents⟩

theorem refl (w : World) : AltersOnly [] w w where
  size := Nat.le_refl _
  agree _ _ := rfl
  owners _ _ fields here := ⟨fields, here⟩
  declared := id
  complete := id
  kept _ _ held _ := held
  admitted _ _ := .inl

theorem trans (h : AltersOnly written w w₁) (h' : AltersOnly written' w₁ w') :
    AltersOnly (written' ++ written) w w' where
  size := Nat.le_trans h.size h'.size
  agree i below := (h'.agree i (Nat.lt_of_lt_of_le below h.size)).trans (h.agree i below)
  owners r c fields here := by
    obtain ⟨fields₁, here₁⟩ := h.owners r c fields here
    exact h'.owners r c fields₁ here₁
  declared := h'.declared ∘ h.declared
  complete := h'.complete ∘ h.complete
  kept s v held spared := by
    rw [List.mem_append, not_or] at spared
    exact h'.kept s v (h.kept s v held spared.2) spared.1
  admitted s v held := by
    rcases h'.admitted s v held with before | new
    · exact (h.admitted s v before).imp id h'.admits
    · exact .inr new

theorem of_nothing (h : AltersOnly [] w w') : AltersOnly written w w' :=
  { h with kept := fun s v held _ => h.kept s v held List.not_mem_nil }

theorem stored (h : AltersOnly written w w') (stored : w.Stored) : w'.Stored where
  declared := h.declared stored.declared
  complete := h.complete stored.complete
  admitted s v held := by
    rcases h.admitted s v held with before | new
    · exact h.admits (stored.admitted s v before)
    · exact new

end AltersOnly

/-- Every slot of a field is there. -/
theorem Stored.exists_slot? (h : w.Stored) (shares : w.Shares s F) : ∃ v, w.slot? s = some v := by
  cases shares with
  | ofObject here inherited declared own =>
    obtain ⟨G, nearest⟩ := ClassTable.exists_nearestField? inherited declared own rfl
    have contained := (h.complete _ _ _ here).2 _ G nearest
    rw [slot?_ofObject here]
    exact Option.isSome_iff_exists.1 contained
  | @ofClass c k F meant static held =>
    have declares := List.find?_some held
    rw [← h.declared] at declares
    exact Option.isSome_iff_exists.1 declares

/-! ### Changes that are made -/

theorem altersOnly_of_heap (heap : w'.heap = w.heap) (size : w.classes.size ≤ w'.classes.size)
    (agree : ClassTable.Agree w.classes.size w.classes w'.classes)
    (declared : w.StaticsDeclared → w'.StaticsDeclared)
    (kept : ∀ k name v, w.getStatic? k name = some v → .ofClass k name ∉ written →
      w'.getStatic? k name = some v)
    (admitted : ∀ k name v, w'.getStatic? k name = some v →
      w.getStatic? k name = some v ∨ w'.Admits (.ofClass k name) v) :
    AltersOnly written w w' := by
  have object (r : Reference) : w'.object? r = w.object? r := by
    unfold object?
    rw [heap]
  constructor
  · exact size
  · exact agree
  · intro r c fields here
    exact ⟨fields, by rw [object, here]⟩
  · exact declared
  · intro complete r c fields here
    rw [object] at here
    obtain ⟨below, all⟩ := complete r c fields here
    refine ⟨Nat.lt_of_lt_of_le below size, fun name G nearest => ?_⟩
    rw [agree.nearestField?_eq below] at nearest
    exact all name G nearest
  · intro s v held spared
    cases s with
    | ofObject r name => rwa [slot?, object]
    | ofClass k name => exact kept k name v held spared
  · intro s v held
    cases s with
    | ofObject r name =>
      rw [slot?, object] at held
      exact .inl held
    | ofClass k name => exact admitted k name v held

theorem altersOnly_of_sameContents (same : w.SameContents w')
    (size : w.classes.size ≤ w'.classes.size)
    (agree : ClassTable.Agree w.classes.size w.classes w'.classes)
    (fields : ∀ c, w'.classes.fieldsOf c = w.classes.fieldsOf c) : AltersOnly [] w w' := by
  have static (k : ClassId) (name : String) : w'.getStatic? k name = w.getStatic? k name :=
    same.slot?_eq (.ofClass k name)
  refine altersOnly_of_heap same.heap size agree ?_ ?_ ?_
  · intro declared c name
    rw [same.statics, declared]
    unfold ClassTable.declaresStatic
    rw [fields]
  · intro k name v held _
    rw [static, held]
  · intro k name v held
    rw [static] at held
    exact .inl held

theorem altersOnly_markInitialized (w : World) (c : ClassId) :
    AltersOnly [] w (w.markInitialized c) := by
  apply altersOnly_of_sameContents (sameContents_markInitialized w c)
  all_goals rw [classes_markInitialized]
  · exact fun _ _ => rfl
  · exact fun _ => rfl

theorem Loads.fieldsOf_eq (h : w.Loads w') (c : ClassId) :
    w'.classes.fieldsOf c = w.classes.fieldsOf c := by
  rcases Nat.lt_or_ge c w.classes.size with below | above
  · exact h.agree.fieldsOf_eq below
  · rw [ClassTable.fieldsOf_of_size_le above]
    unfold ClassTable.fieldsOf
    cases made : w'.classes.get? c with
    | none => rfl
    | some k => rcases h.made c k above made with ⟨p, rfl⟩ | ⟨_, _, _, _, rfl⟩ <;> rfl

theorem altersOnly_of_loads (h : w.Loads w') : AltersOnly [] w w' := by
  refine altersOnly_of_sameContents ?_ h.size h.agree h.fieldsOf_eq
  rw [h.rest]
  exact ⟨rfl, rfl, rfl, rfl, rfl, rfl⟩

theorem represents_zero (type : FieldType) : type.zero.Represents type := by
  cases type with
  | primitive p => cases p <;> constructor
  | object name => constructor
  | array component => constructor

theorem altersOnly_of_object {fields' : Fields} (classes : w'.classes = w.classes)
    (statics : w'.statics = w.statics)
    (object : ∀ x, w'.object? x = if x = r then some (c, fields') else w.object? x)
    (owner : ∀ d fields, w.object? r = some (d, fields) → d = c)
    (complete : w.Complete → c < w.classes.size ∧
      ∀ name G, w.classes.nearestField? c name = some G → fields'.contains name = true)
    (kept : ∀ name v, w.slot? (.ofObject r name) = some v → .ofObject r name ∉ written →
      FiniteMap.get? fields' name = some v)
    (admitted : ∀ name v, FiniteMap.get? fields' name = some v →
      w.slot? (.ofObject r name) = some v ∨ w'.Admits (.ofObject r name) v) :
    AltersOnly written w w' := by
  have here : w'.object? r = some (c, fields') := (object r).trans (if_pos rfl)
  have elsewhere {x : Reference} (other : x ≠ r) : w'.object? x = w.object? x :=
    (object x).trans (if_neg other)
  constructor
  · exact Nat.le_of_eq (congrArg ClassTable.size classes.symm)
  · rw [classes]
    exact fun _ _ => rfl
  · intro x d fields found
    by_cases same : x = r
    · subst same
      cases owner d fields found
      exact ⟨fields', here⟩
    · exact ⟨fields, by rw [elsewhere same, found]⟩
  · intro declared k name
    rw [statics, classes, declared]
  · intro before x d fields found
    rw [classes]
    by_cases same : x = r
    · subst same
      cases here.symm.trans found
      exact complete before
    · rw [elsewhere same] at found
      exact before x d fields found
  · intro s v held spared
    cases s with
    | ofClass k name => rwa [slot?, getStatic?, statics]
    | ofObject x name =>
      by_cases same : x = r
      · subst same
        rw [slot?_ofObject here]
        exact kept name v held spared
      · rwa [slot?, elsewhere same]
  · intro s v held
    cases s with
    | ofClass k name =>
      rw [slot?, getStatic?, statics] at held
      exact .inl held
    | ofObject x name =>
      by_cases same : x = r
      · subst same
        rw [slot?_ofObject here] at held
        exact admitted name v held
      · rw [slot?, elsewhere same] at held
        exact .inl held

theorem object?_congr (same : w'.heap.get? r = w.heap.get? r) : w'.object? r = w.object? r := by
  unfold object?
  rw [same]

theorem object?_of_get? (found : w.heap.get? r = some (.object c fields)) :
    w.object? r = some (c, fields) := by
  unfold object?
  rw [found]

theorem get?_of_object? (here : w.object? r = some (c, fields)) :
    w.heap.get? r = some (.object c fields) := by
  unfold object? at here
  split at here
  · cases here
    assumption
  · cases here

theorem object?_newObject (w : World) (c : ClassId) :
    ∃ r, newObject c w = .ok r (endState (newObject c w)) ∧ w.object? r = none ∧
      ∀ x, (endState (newObject c w)).object? x =
        if x = r then some (c, Fields.initial (w.classes.instanceFields c)) else w.object? x := by
  refine ⟨.entity w.heap.entities.size, rfl, ?_, ?_⟩
  · simp [object?, Heap.get?]
  · intro x
    have found := Heap.get?_allocate w.heap
      (.object c (Fields.initial (w.classes.instanceFields c))) x
    by_cases new : x = .entity w.heap.entities.size
    · rw [if_pos new]
      exact object?_of_get? (found.trans (if_pos new))
    · rw [if_neg new]
      exact object?_congr (found.trans (if_neg new))

theorem object?_modifyEntity (here : w.object? r = some (c, fields)) (fields' : Fields)
    (x : Reference) : (endState (modifyEntity r (fun _ => .object c fields') w)).object? x =
      if x = r then some (c, fields') else w.object? x := by
  have found : (endState (modifyEntity r (fun _ => .object c fields') w)).heap.get? x =
      if x = r then (w.heap.get? x).map (fun _ => .object c fields') else w.heap.get? x :=
    Heap.get?_modify w.heap r x _
  by_cases same : x = r
  · rw [if_pos same] at found ⊢
    apply object?_of_get?
    rw [found, same, get?_of_object? here]
    rfl
  · rw [if_neg same] at found ⊢
    exact object?_congr found

theorem altersOnly_newObject (below : c < w.classes.size) :
    AltersOnly [] w (endState (newObject c w)) := by
  obtain ⟨r, -, fresh, object⟩ := object?_newObject w c
  refine altersOnly_of_object rfl rfl object ?_ ?_ ?_ ?_
  · intro d fields here
    rw [fresh] at here
    cases here
  · intro _
    refine ⟨below, fun name G nearest => ?_⟩
    rw [FiniteMap.contains, ClassTable.get?_initial, nearest]
    rfl
  · intro name v held
    rw [slot?, fresh] at held
    cases held
  · intro name v held
    rw [ClassTable.get?_initial] at held
    obtain ⟨F, nearest, rfl⟩ := Option.map_eq_some_iff.1 held
    obtain ⟨inherited, declared, own, rfl⟩ := ClassTable.nearestField?_eq_some nearest
    have here := (object r).trans (if_pos rfl)
    exact .inr ⟨F, .ofObject here inherited declared own, represents_zero _⟩

/-- The object holds, under each name that it has a field of, the default of the nearest one. -/
def HoldsDefaults (w : World) (x : Reference) : Prop :=
  ∀ name, (∃ F, w.Shares (.ofObject x name) F) → ∃ G, w.Shares (.ofObject x name) G ∧
    w.slot? (.ofObject x name) = some G.field.type.zero ∧
    ∀ F, w.Shares (.ofObject x name) F → F.owner ∈ w.classes.superclasses G.owner

theorem holdsDefaults_newObject (w : World) (c : ClassId) :
    ∃ r, newObject c w = .ok r (endState (newObject c w)) ∧ w.object? r = none ∧
      (endState (newObject c w)).HoldsDefaults r := by
  obtain ⟨r, made, fresh, object⟩ := object?_newObject w c
  refine ⟨r, made, fresh, ?_⟩
  have here := (object r).trans (if_pos rfl)
  rintro name ⟨F, shares⟩
  obtain ⟨inherited, declared, own, named⟩ := shares.inherited here
  obtain ⟨G, nearest⟩ := ClassTable.exists_nearestField? inherited declared own named
  obtain ⟨inherited, declared, own, rfl⟩ := ClassTable.nearestField?_eq_some nearest
  refine ⟨G, .ofObject here inherited declared own, ?_, ?_⟩
  · rw [slot?_ofObject here, ClassTable.get?_initial]
    exact congrArg (Option.map fun F => F.field.type.zero) nearest
  · intro F shares
    obtain ⟨inherited, declared, own, named⟩ := shares.inherited here
    exact ClassTable.mem_superclasses_of_nearestField? nearest inherited declared own named

theorem altersOnly_writeField (here : w.object? r = some (c, fields))
    (admits : w.Admits (.ofObject r name) v) :
    AltersOnly [.ofObject r name] w (endState (writeField r c fields name v w)) := by
  unfold writeField
  by_cases named : fields.contains name = true
  · rw [if_pos named]
    have object := object?_modifyEntity here (fields.insert name v)
    have admits' : (endState (modifyEntity r (fun _ => .object c (fields.insert name v)) w)).Admits
        (.ofObject r name) v := by
      obtain ⟨F, shares, represents⟩ := admits
      refine ⟨F, shares.later (fun _ _ => rfl) ?_, represents⟩
      intro x d fields₁ found
      rw [object]
      split
      · rename_i same
        subst same
        cases here.symm.trans found
        exact ⟨_, rfl⟩
      · exact ⟨_, found⟩
    refine altersOnly_of_object rfl rfl object ?_ ?_ ?_ ?_
    · intro d fields₁ found
      cases here.symm.trans found
      rfl
    · intro complete
      obtain ⟨below, all⟩ := complete r c fields here
      refine ⟨below, fun other G nearest => ?_⟩
      have before := all other G nearest
      rw [FiniteMap.contains] at before ⊢
      rw [FiniteMap.get?_insert]
      split
      · rfl
      · exact before
    · intro other u held spared
      rw [slot?_ofObject here] at held
      rw [FiniteMap.get?_insert_ne, held]
      rintro rfl
      exact spared (List.mem_singleton_self _)
    · intro other u held
      rw [FiniteMap.get?_insert] at held
      split at held
      · rename_i same
        subst same
        cases held
        exact .inr admits'
      · rw [slot?_ofObject here]
        exact .inl held
  · rw [if_neg named]
    exact (AltersOnly.refl w).of_nothing

theorem altersOnly_insertStatic (there : w.statics.contains (k, name) = true)
    (admits : w.Admits (.ofClass k name) v) :
    AltersOnly [.ofClass k name] w { w with statics := w.statics.insert (k, name) v } := by
  refine altersOnly_of_heap rfl (Nat.le_refl _) (fun _ _ => rfl) ?_ ?_ ?_
  · intro declared c other
    rw [FiniteMap.contains, FiniteMap.get?_insert, ← declared c other]
    split
    · rename_i same
      rw [same]
      exact there.symm
    · rfl
  · intro c other u held spared
    rw [getStatic?, FiniteMap.get?_insert_ne]
    · exact held
    · rintro ⟨⟩
      exact spared (List.mem_singleton_self _)
  · intro c other u held
    rw [getStatic?, FiniteMap.get?_insert] at held
    split at held
    · rename_i same
      cases same
      cases held
      obtain ⟨F, shares, represents⟩ := admits
      refine .inr ⟨F, shares.later (fun _ _ => rfl) ?_, represents⟩
      exact fun _ _ fields here => ⟨fields, here⟩
    · exact .inl held

theorem altersOnly_assignStatic {r : FieldReference} (admits : w.Admits (.ofClass k r.name) v) :
    AltersOnly [.ofClass k r.name] w (endState (assignStatic k r v w)) := by
  unfold assignStatic putStatic?
  rw [get_bind]
  by_cases there : w.statics.contains (k, r.name) = true
  · rw [if_pos there]
    exact altersOnly_insertStatic there admits
  · rw [if_neg there]
    exact (AltersOnly.refl w).of_nothing

theorem writeField_eq_ok (written : writeField r c fields name v w = .ok () w') :
    FiniteMap.contains fields name = true ∧
      w' = endState (modifyEntity r (fun _ => .object c (fields.insert name v)) w) := by
  unfold writeField at written
  split at written
  next declared =>
    cases written
    exact ⟨declared, rfl⟩
  next => cases written

theorem object?_writeField (here : w.object? r = some (c, fields))
    (written : writeField r c fields name v w = .ok () w') :
    w'.object? r = some (c, fields.insert name v) := by
  obtain ⟨-, rfl⟩ := writeField_eq_ok written
  exact (object?_modifyEntity here (fields.insert name v) r).trans (if_pos rfl)

theorem slot?_writeField (here : w.object? r = some (c, fields))
    (written : writeField r c fields name v w = .ok () w') :
    w'.slot? (.ofObject r name) = some v := by
  have object := object?_writeField here written
  exact (congrArg (Option.bind · _) object).trans (FiniteMap.get?_insert_self _ _ _)

theorem slot?_assignStatic {r : FieldReference} (assigned : assignStatic k r v w = .ok () w') :
    w'.slot? (.ofClass k r.name) = some v := by
  unfold assignStatic putStatic? at assigned
  rw [get_bind] at assigned
  by_cases there : w.statics.contains (k, r.name) = true
  · rw [if_pos there] at assigned
    cases assigned
    exact FiniteMap.get?_insert_self _ _ _
  · rw [if_neg there] at assigned
    cases assigned

/-! ### Programs -/

/-- A class that is defined has, under each name, the default of its last static field of the
name. -/
theorem getStatic?_define (w : World) (d : ClassDefinition) (k : ClassId) (name : String) :
    (w.define d).2.getStatic? k name =
      (if k = w.classes.size then
        (d.toClass.fields.reverse.find? fun f => f.isStatic && f.name = name).map
          fun f => f.type.zero
      else none).or (w.getStatic? k name) := by
  have entries := FiniteMap.get?_insertAll w.statics
    (d.toClass.staticFields.map fun f => ((w.classes.size, f.name), f.type.zero)) (k, name)
  refine (show (w.define d).2.getStatic? k name = _ from entries).trans ?_
  rw [← List.map_reverse, List.find?_map, Class.staticFields, ← List.filter_reverse,
    List.find?_filter]
  by_cases new : k = w.classes.size
  · subst new
    simp [Function.comp_def, getStatic?]
  · rw [if_neg new, List.find?_eq_none.2]
    · rfl
    · intro f _
      simp [Ne.symm new]

theorem fieldsOf_define (w : World) (d : ClassDefinition) (k : ClassId) :
    (w.define d).2.classes.fieldsOf k =
      if k = w.classes.size then d.toClass.fields else w.classes.fieldsOf k := by
  have found : (w.define d).2.classes.get? k =
      if k = w.classes.size then some d.toClass else w.classes.get? k := ClassTable.get?_push _ _ _
  unfold ClassTable.fieldsOf
  rw [found]
  by_cases new : k = w.classes.size
  · rw [if_pos new, if_pos new]
  · rw [if_neg new, if_neg new]

theorem shares_define (w : World) (d : ClassDefinition) {f : Field}
    (declared : f ∈ d.toClass.fields) (static : f.isStatic = true) :
    (w.define d).2.Shares (.ofClass w.classes.size f.name) ⟨w.classes.size, f⟩ := by
  obtain ⟨rest, listed, -⟩ := preorder_eq_cons (w.define d).2.classes.fieldParents w.classes.size
  have fields := (fieldsOf_define w d w.classes.size).trans (if_pos rfl)
  have only : d.toClass.fields.find? (fun g => g.name = f.name ∧ g.type = f.type) = some f := by
    cases found : d.toClass.fields.find? fun g => g.name = f.name ∧ g.type = f.type with
    | none =>
      have missed := List.find?_eq_none.1 found f declared
      simp at missed
    | some g =>
      have which := List.find?_some found
      obtain ⟨name, type⟩ := of_decide_eq_true which
      rw [ClassDefinition.eq_of_mem_keepLast (List.mem_of_find?_eq_some found) declared
        (Prod.ext name type)]
  have meant : (w.define d).2.classes.resolveField w.classes.size f.name f.type =
      some ⟨w.classes.size, f⟩ := by
    unfold ClassTable.resolveField ClassTable.declaredField? ClassTable.fieldOrder
    rw [listed, List.findSome?_cons, fields, only]
    rfl
  have held : (w.define d).2.classes.staticHolder? w.classes.size f.name = some w.classes.size := by
    have declares : (w.define d).2.classes.declaresStatic f.name w.classes.size = true :=
      ClassTable.declaresStatic_iff.2 ⟨f, fields.symm ▸ declared, static, rfl⟩
    unfold ClassTable.staticHolder? ClassTable.fieldOrder
    rw [listed, List.find?_cons, declares]
  exact .ofClass (F := ⟨w.classes.size, f⟩) meant static held

theorem getStatic?_size (declared : w.StaticsDeclared) (name : String) :
    w.getStatic? w.classes.size name = none := by
  have absent := declared w.classes.size name
  rw [ClassTable.declaresStatic, ClassTable.fieldsOf_of_size_le (Nat.le_refl _)] at absent
  exact Option.not_isSome_iff_eq_none.1 (ne_true_of_eq_false absent)

theorem declared_define (declared : w.StaticsDeclared) (d : ClassDefinition) :
    (w.define d).2.StaticsDeclared := by
  intro c name
  change ((w.define d).2.getStatic? c name).isSome = _
  rw [getStatic?_define, ClassTable.declaresStatic, fieldsOf_define]
  by_cases new : c = w.classes.size
  · rw [if_pos new, if_pos new, new, getStatic?_size declared, Option.or_none, Bool.eq_iff_iff]
    simp
  · rw [if_neg new, if_neg new]
    exact declared c name

theorem altersOnly_define (declared : w.StaticsDeclared) (d : ClassDefinition) :
    AltersOnly [] w (w.define d).2 := by
  have size : w.classes.size ≤ (w.define d).2.classes.size := by
    simp [define, addClass]
  have static := getStatic?_define w d
  refine altersOnly_of_heap rfl size (w.classes.agree_push d.toClass) (declared_define · d) ?_ ?_
  · intro k name v held _
    rw [static, if_neg]
    · exact held
    · rintro rfl
      rw [getStatic?_size declared] at held
      cases held
  · intro k name v held
    rw [static] at held
    split at held
    · rename_i new
      rw [new, getStatic?_size declared, Option.or_none] at held
      obtain ⟨f, found, rfl⟩ := Option.map_eq_some_iff.1 held
      have which := List.find?_some found
      simp only [Bool.and_eq_true, decide_eq_true_eq] at which
      obtain ⟨static, rfl⟩ := which
      have member := List.mem_reverse.1 (List.mem_of_find?_eq_some found)
      exact .inr ⟨_, new ▸ shares_define w d member static, represents_zero _⟩
    · exact .inl held

theorem Stored.define (h : w.Stored) (d : ClassDefinition) : (w.define d).2.Stored :=
  (altersOnly_define h.declared d).stored h

theorem statics_start (console : Console) (clock : Nat) : (start console clock).statics =
    (FiniteMap.empty.insert (4, "out") (.reference (.entity 0))).insert (4, "err")
      (.reference (.entity 1)) := rfl

set_option maxRecDepth 100000 in
theorem declared_start (console : Console) (clock : Nat) :
    (start console clock).StaticsDeclared := by
  have classes : (start console clock).classes = (start .working 0).classes := rfl
  have names : ∀ c < (start .working 0).classes.size,
      (((start .working 0).classes.fieldsOf c).filter Field.isStatic).map Field.name =
        if c = 4 then ["out", "err"] else [] := by
    decide +kernel
  intro c name
  rw [statics_start, FiniteMap.contains, FiniteMap.get?_insert, FiniteMap.get?_insert, classes]
  have listed : (start .working 0).classes.declaresStatic name c = true ↔
      name ∈ (((start .working 0).classes.fieldsOf c).filter Field.isStatic).map Field.name := by
    simp only [ClassTable.declaresStatic_iff, List.mem_map, List.mem_filter, and_assoc]
  rw [Bool.eq_iff_iff, listed]
  rcases Nat.lt_or_ge c (start .working 0).classes.size with below | above
  · rw [names c below]
    by_cases system : c = 4
    · by_cases out : name = "out" <;> by_cases err : name = "err" <;> simp [system, out, err]
    · simp [system]
  · have other : c ≠ 4 := by
      rintro rfl
      exact absurd above (by decide +kernel)
    rw [ClassTable.fieldsOf_of_size_le above]
    simp [other]

set_option maxRecDepth 100000 in
theorem object?_start {console : Console} {clock : Nat}
    (here : (start console clock).object? r = some (c, fields)) :
    c = 3 ∧ ∃ n, fields = FiniteMap.empty.insert "fd" (.int n) := by
  have heap : (start console clock).heap = (start .working 0).heap := rfl
  have streams : ∀ e ∈ (start .working 0).heap.entities,
      e = .object 3 (FiniteMap.empty.insert "fd" (.int 1)) ∨
        e = .object 3 (FiniteMap.empty.insert "fd" (.int 2)) := by
    decide +kernel
  have found := get?_of_object? here
  rw [heap] at found
  cases r with
  | null => cases found
  | entity address =>
    rcases streams _ (Array.mem_of_getElem? found) with same | same
    all_goals
      cases same
      exact ⟨rfl, _, rfl⟩

set_option maxRecDepth 100000 in
theorem complete_start (console : Console) (clock : Nat) : (start console clock).Complete := by
  have classes : (start console clock).classes = (start .working 0).classes := rfl
  have only : ∀ k ∈ (start .working 0).classes.superclasses 3,
      ∀ f ∈ (start .working 0).classes.fieldsOf k, f.isStatic = false → f.name = "fd" := by
    decide +kernel
  intro r c fields here
  obtain ⟨rfl, n, rfl⟩ := object?_start here
  rw [classes]
  refine ⟨by decide +kernel, fun name G nearest => ?_⟩
  obtain ⟨inherited, declared, own, rfl⟩ := ClassTable.nearestField?_eq_some nearest
  rw [only _ inherited _ declared own]
  rfl

set_option maxRecDepth 100000 in
theorem stored_start (console : Console) (clock : Nat) : (start console clock).Stored := by
  have classes : (start console clock).classes = (start .working 0).classes := rfl
  refine ⟨declared_start console clock, complete_start console clock, ?_⟩
  intro s v held
  cases s with
  | ofObject r name =>
    obtain ⟨⟨c, fields⟩, here, value⟩ := Option.bind_eq_some_iff.1 held
    obtain ⟨rfl, n, rfl⟩ := object?_start here
    rw [FiniteMap.get?_insert, FiniteMap.get?_empty] at value
    split at value
    · rename_i same
      subst same
      cases value
      have declared : (⟨"fd", .primitive .int, Bootstrap.privateFlag⟩ : Field) ∈
          (start .working 0).classes.fieldsOf 3 := by decide +kernel
      have shares := Shares.ofObject (F := ⟨3, _⟩) here (ClassTable.mem_superclasses_self _ 3)
        (classes ▸ declared) (by decide)
      exact ⟨_, shares, .int n⟩
    · cases value
  | ofClass k name =>
    let stream (name : String) : Field :=
      ⟨name, Bootstrap.streamType, Bootstrap.publicFlag ||| Bootstrap.staticFlag⟩
    have found : ∀ name ∈ ["out", "err"],
        (start .working 0).classes.resolveField 4 name Bootstrap.streamType =
          some ⟨4, stream name⟩ ∧ (stream name).isStatic = true ∧
        (start .working 0).classes.staticHolder? 4 name = some 4 := by
      decide +kernel
    have shares (name : String) (member : name ∈ ["out", "err"]) :
        (start console clock).Shares (.ofClass 4 name) ⟨4, stream name⟩ := by
      obtain ⟨meant, static, held⟩ := found name member
      exact .ofClass (F := ⟨4, stream name⟩) (classes ▸ meant) static (classes ▸ held)
    rw [slot?, getStatic?, statics_start, FiniteMap.get?_insert, FiniteMap.get?_insert] at held
    split at held
    · rename_i same
      cases same
      cases held
      exact ⟨_, shares "err" (by simp), .object _ _⟩
    · split at held
      · rename_i same
        cases same
        cases held
        exact ⟨_, shares "out" (by simp), .object _ _⟩
      · cases held

theorem stored_ofProgram (console : Console) (clock : Nat) (program : List ClassDefinition) :
    (ofProgram console clock program).Stored :=
  program.foldlRecOn _ (stored_start console clock) fun _ stored d _ => stored.define d

end World

end JavaMachine
