import JavaMachine.Proofs.ClassRegistry

/-!
# Class objects

A class object is made the first time it is asked for and kept under the name of its class, after
that of the component class. It is found again whenever the object of a class of this name is asked
for, whatever has been defined meanwhile. So class objects tell classes apart, and stand for the
classes they are given for, exactly if no two classes have the same name; and a class may be defined
again, or be given the keyword of a primitive type for a name.
-/
namespace JavaMachine

namespace ClassTable

variable {t : ClassTable} {c k : ClassId}

theorem components_of_some (h : t.component? c = some k) :
    t.components c = c :: t.components k := by
  rw [components]
  split <;> simp_all

theorem components_of_none (h : t.component? c = none) : t.components c = [c] := by
  rw [components]
  split <;> simp_all

end ClassTable

namespace World

variable {w w₁ w' : World} {c k : ClassId} {type : FieldType} {name : ClassName} {r : Reference}

/-! ### Names -/

/-- Classes have the names that they are found under, and a class with components is named for their
type. A class that is only named like an array class has none. -/
structure Titled (w : World) : Prop extends linked : Linked w where
  names : ∀ name k, w.registry.get? name = some k → w.classes.name k = name
  keywords : ∀ p k, w.primitives.get? p = some k → w.classes.name k = .scalar p.keyword
  layers : ∀ c k, w.classes.component? c = some k →
    ∃ type, w.classes.name c = .array type ∧ w.classes.name k = type.className

namespace Titled

variable (h : w.Titled)
include h

theorem name_of_finds (found : w.Finds type c) : w.classes.name c = type.className := by
  cases type with
  | primitive p => exact h.keywords p c found
  | object name => exact h.names (.scalar name) c found
  | array type => exact h.names (.array type) c found

theorem of_same (same : w.SameTables w') : w'.Titled := by
  obtain ⟨classes, registry, primitives⟩ := same
  refine { h.linked.of_same classes registry primitives with
    names := ?_
    keywords := ?_
    layers := ?_ }
  · rw [classes, registry]
    exact h.names
  · rw [classes, primitives]
    exact h.keywords
  · rw [classes]
    exact h.layers

theorem of_push {d : Class} (linked : w'.Linked) (classes : w'.classes = w.classes.push d)
    (names : ∀ name k, w'.registry.get? name = some k →
      w.registry.get? name = some k ∨ k = w.classes.size ∧ name = d.name)
    (keywords : ∀ p k, w'.primitives.get? p = some k →
      w.primitives.get? p = some k ∨ k = w.classes.size ∧ d.name = .scalar p.keyword)
    (layers : ∀ k, d.component = some k → k < w.classes.size →
      ∃ type, d.name = .array type ∧ w.classes.name k = type.className) : w'.Titled := by
  have agree := w.classes.agree_push d
  have same {k : ClassId} (below : k < w.classes.size) : w'.classes.name k = w.classes.name k := by
    rw [classes, agree.name_eq below]
  have new : w'.classes.name w.classes.size = d.name := by
    rw [classes, ClassTable.name_push_self]
  refine { linked with names := ?_, keywords := ?_, layers := ?_ }
  · intro name k found
    rcases names name k found with before | ⟨rfl, rfl⟩
    · rw [same (h.linked.registry name k before), h.names name k before]
    · exact new
  · intro p k found
    rcases keywords p k found with before | ⟨rfl, keyword⟩
    · rw [same (h.linked.primitives p k before), h.keywords p k before]
    · rw [new, keyword]
  · intro c k component
    have lower := ClassTable.component?_lt component
    rw [classes, ClassTable.component?, ClassTable.get?_push] at component
    split at component
    · rename_i last
      subst last
      obtain ⟨type, named, componentName⟩ :=
        layers k (Option.filter_eq_some_iff.1 component).1 lower
      exact ⟨type, new.trans named, (same lower).trans componentName⟩
    · obtain ⟨type, named, componentName⟩ := h.layers c k component
      have below := ClassTable.lt_size_of_array named
      exact ⟨type, (same below).trans named, (same (Nat.lt_trans lower below)).trans componentName⟩

theorem addClass {d : Class} (layers : ∀ k, d.component = some k → k < w.classes.size →
    ∃ type, d.name = .array type ∧ w.classes.name k = type.className) :
    (w.addClass d).2.Titled := by
  refine h.of_push (h.linked.addClass d) rfl ?_ (fun p k found => .inl found) layers
  intro name k found
  rw [registry_addClass] at found
  split at found
  · rename_i same
    cases found
    exact .inr ⟨rfl, same⟩
  · exact .inl found

theorem define (d : ClassDefinition) : (w.define d).2.Titled :=
  h.addClass fun _ none => nomatch none

end Titled

theorem toleratesLoading_titled : ToleratesLoading fun w w' => w.Titled → w'.Titled where
  marked w c _ _ h := h.of_same (sameTables_markInitialized w c)
  primitive w p h := by
    refine h.of_push (tolerated_linked.primitive w p h.linked) rfl (fun _ _ found => .inl found) ?_
      fun _ none => nomatch none
    intro q k found
    rw [FiniteMap.get?_insert] at found
    split at found
    · rename_i same
      cases found
      exact .inr ⟨rfl, same ▸ rfl⟩
    · exact .inl found
  array w type component flags object _ found _ h := by
    refine (h.addClass fun k made below => ?_).of_same (sameTables_markInitialized _ _)
    cases made
    exact ⟨type, rfl, h.name_of_finds found⟩

/-! ### Class objects that are kept -/

/-- The classes and entities of the first world are what they were, and its class objects are still
kept under their names. -/
structure RetainsObjects (w w' : World) : Prop where
  size : w.classes.size ≤ w'.classes.size
  agree : ClassTable.Agree w.classes.size w.classes w'.classes
  entities : ∀ r e, w.heap.get? r = some e → w'.heap.get? r = some e
  kept : ∀ name r, w.classObjects.get? name = some r → w'.classObjects.get? name = some r

theorem RetainsObjects.refl (w : World) : w.RetainsObjects w where
  size := Nat.le_refl _
  agree _ _ := rfl
  entities _ _ := id
  kept _ _ := id

theorem RetainsObjects.trans (h : w.RetainsObjects w₁) (h' : w₁.RetainsObjects w') :
    w.RetainsObjects w' where
  size := Nat.le_trans h.size h'.size
  agree i below := (h'.agree i (Nat.lt_of_lt_of_le below h.size)).trans (h.agree i below)
  entities r e here := h'.entities r e (h.entities r e here)
  kept name r found := h'.kept name r (h.kept name r found)

instance : IsPreorder World RetainsObjects where
  refl := RetainsObjects.refl
  trans _ _ _ := RetainsObjects.trans

theorem retainsObjects_of_push {d : Class} (classes : w'.classes = w.classes.push d)
    (heap : w'.heap = w.heap) (classObjects : w'.classObjects = w.classObjects) :
    w.RetainsObjects w' := by
  constructor
  · rw [classes, ClassTable.size_push]
    exact Nat.le_succ _
  · rw [classes]
    exact w.classes.agree_push d
  · rw [heap]
    exact fun _ _ => id
  · rw [classObjects]
    exact fun _ _ => id

theorem retainsObjects_markInitialized (w : World) (c : ClassId) :
    w.RetainsObjects (w.markInitialized c) := by
  obtain ⟨initialized, marked⟩ := markInitialized_eq w c
  rw [marked]
  exact ⟨Nat.le_refl _, fun _ _ => rfl, fun _ _ => id, fun _ _ => id⟩

theorem toleratesLoading_retainsObjects : ToleratesLoading RetainsObjects where
  marked w c _ _ := w.retainsObjects_markInitialized c
  primitive w p := retainsObjects_of_push rfl rfl rfl
  array w type component flags object _ _ _ := by
    have added : w.RetainsObjects (w.addClass (.arrayOf type component flags object)).2 :=
      retainsObjects_of_push rfl rfl rfl
    exact added.trans (retainsObjects_markInitialized _ _)

theorem rel_mono {α β : Type} {p q : α → β → Prop} {x : Option α} {y : Option β}
    (weaker : ∀ a b, p a b → q a b) (h : Option.Rel p x y) : Option.Rel q x y := by
  cases h with
  | none => exact .none
  | some related => exact .some (weaker _ _ related)

/-- The reference leads to a class object of a class of the name. If this class has components, the
object refers to the one that is kept under the name of their class. -/
def IsObjectFor (w : World) (name : ClassName) (r : Reference) : Prop :=
  ∃ owner c component, w.heap.get? r = some (.classObject owner c component) ∧
    c < w.classes.size ∧ w.classes.name c = name ∧
      Option.Rel (fun k s => w.classObjects.get? (w.classes.name k) = some s)
        (w.classes.component? c) component

theorem IsObjectFor.retains (h : w.IsObjectFor name r) (later : w.RetainsObjects w') :
    w'.IsObjectFor name r := by
  obtain ⟨owner, c, component, here, below, named, refers⟩ := h
  refine ⟨owner, c, component, later.entities r _ here, Nat.lt_of_lt_of_le below later.size, ?_, ?_⟩
  · rw [later.agree.name_eq below, named]
  · rw [later.agree.component?_eq below]
    cases above : w.classes.component? c with
    | none =>
      rw [above] at refers
      cases refers
      exact .none
    | some k =>
      rw [above] at refers
      cases refers with
      | some kept =>
        have lower := Nat.lt_trans (ClassTable.component?_lt above) below
        refine .some (later.kept _ _ ?_)
        rw [later.agree.name_eq lower, kept]

/-- Every class object that is kept under a name is one of a class of this name. -/
structure Canonical (w : World) : Prop extends titled : Titled w where
  owner : ∃ k, w.registry.get? classClassName = some k
  objects : ∀ name r, w.classObjects.get? name = some r → w.IsObjectFor name r

namespace Canonical

variable (h : w.Canonical)
include h

theorem of_retains (later : w.RetainsObjects w') (titled : w'.Titled)
    (owner : ∃ k, w'.registry.get? classClassName = some k)
    (new : ∀ name r, w'.classObjects.get? name = some r → w.classObjects.get? name = none →
      w'.IsObjectFor name r) : w'.Canonical := by
  refine { titled with owner := owner, objects := ?_ }
  intro name r found
  cases before : w.classObjects.get? name with
  | none => exact new name r found before
  | some s =>
    cases (later.kept name s before).symm.trans found
    exact (h.objects name r before).retains later

theorem name_unique {n n' : ClassName} (kept : w.classObjects.get? n = some r)
    (kept' : w.classObjects.get? n' = some r) : n = n' := by
  obtain ⟨owner, c, component, here, -, named, -⟩ := h.objects n r kept
  obtain ⟨owner', c', component', here', -, named', -⟩ := h.objects n' r kept'
  cases here.symm.trans here'
  exact named.symm.trans named'

theorem define (d : ClassDefinition) :
    w.RetainsObjects (w.define d).2 ∧ (w.define d).2.Canonical := by
  have later : w.RetainsObjects (w.define d).2 := retainsObjects_of_push rfl rfl rfl
  refine ⟨later, h.of_retains later (h.titled.define d) ?_ ?_⟩
  · obtain ⟨k, found⟩ := h.owner
    change ∃ k, (w.addClass d.toClass).2.registry.get? classClassName = some k
    rw [registry_addClass, found]
    split
    · exact ⟨_, rfl⟩
    · exact ⟨k, rfl⟩
  · intro name r found before
    rw [show w.classObjects.get? name = some r from found] at before
    cases before

theorem typeClass (type : FieldType) : w.RetainsObjects (endState (World.typeClass type w)) ∧
    (endState (World.typeClass type w)).Canonical := by
  have later := keeps_typeClass toleratesLoading_retainsObjects type w
  have titled := keeps_typeClass toleratesLoading_titled type w h.titled
  have same := keeps_typeClass toleratesLoading_sameContents type w
  have scalars := keeps_typeClass toleratesLoading_sameScalars type w "java/lang/Class"
  refine ⟨later, h.of_retains later titled ?_ ?_⟩
  · obtain ⟨k, found⟩ := h.owner
    exact ⟨k, scalars.trans found⟩
  · intro name r found before
    rw [same.classObjects, before] at found
    cases found

end Canonical

/-! ### Asking for class objects -/

theorem depth_className (type : FieldType) : type.className.type.depth = type.depth := by
  cases type <;> rfl

theorem classObject_of_kept (kept : w.classObjects.get? (w.classes.name c) = some r) :
    classObject c w = .ok r w := by
  have found (components : List ClassId) : classObjectOf (c :: components) w = .ok (some r) w := by
    unfold classObjectOf
    rw [get_bind, kept]
    rfl
  unfold classObject
  rw [get_bind, ClassTable.components, bind_of_ok (found _)]
  rfl

/-- What has happened when the object of a class has been asked for. Nothing is kept under new names
but class objects of classes that are not nested deeper. -/
structure Provides (w : World) (c : ClassId) (r : Reference) (w' : World) : Prop where
  tables : w.SameTables w'
  retains : w.RetainsObjects w'
  canonical : w'.Canonical
  kept : w'.classObjects.get? (w.classes.name c) = some r
  deeper : ∀ n, (w.classes.name c).type.depth < n.type.depth →
    w'.classObjects.get? n = w.classObjects.get? n

namespace Canonical

variable (h : w.Canonical)
include h

theorem provides_makeClassObject {component : Option Reference} (below : c < w.classes.size)
    (new : w.classObjects.get? (w.classes.name c) = none)
    (refers : Option.Rel (fun k s => w.classObjects.get? (w.classes.name k) = some s)
      (w.classes.component? c) component) :
    ∃ r w', makeClassObject c component w = .ok r w' ∧ w.Provides c r w' := by
  obtain ⟨owner, found⟩ := h.owner
  have known : loadScalar "java/lang/Class" w = .ok owner w := loadScalar_eq_ok.2 ⟨found, rfl⟩
  let made := w.heap.allocate (.classObject owner c component)
  let w' := { w with
    heap := made.2
    classObjects := w.classObjects.insert (w.classes.name c) made.1 }
  have tables : w.SameTables w' := ⟨rfl, rfl, rfl⟩
  have kept (n : ClassName) (s : Reference) (before : w.classObjects.get? n = some s) :
      w'.classObjects.get? n = some s := by
    have other : n ≠ w.classes.name c := by
      rintro rfl
      rw [new] at before
      cases before
    rw [← before]
    exact FiniteMap.get?_insert_ne _ other _
  have retains : w.RetainsObjects w' :=
    ⟨Nat.le_refl _, fun _ _ => rfl, fun _ _ => Heap.get?_allocate_of_some _, kept⟩
  refine ⟨made.1, w', bind_of_ok known, tables, retains, ?_, FiniteMap.get?_insert_self _ _ _, ?_⟩
  · apply h.of_retains retains (h.titled.of_same tables) ⟨owner, found⟩
    intro n s found' before
    change (w.classObjects.insert _ _).get? n = some s at found'
    rw [FiniteMap.get?_insert] at found'
    split at found'
    · rename_i same
      subst same
      cases found'
      refine ⟨owner, c, component, ?_, below, rfl, ?_⟩
      · exact (Heap.get?_allocate _ _ _).trans (if_pos rfl)
      · exact rel_mono (fun k _ => kept (w.classes.name k) _) refers
    · rw [before] at found'
      cases found'
  · intro n deeper
    refine FiniteMap.get?_insert_ne _ ?_ _
    rintro rfl
    exact Nat.lt_irrefl _ deeper

/-- Asking for the object of a class in the table makes it, with those of the component classes, or
finds it. -/
theorem provides_classObjectOf (below : c < w.classes.size) :
    ∃ r w', classObjectOf (w.classes.components c) w = .ok (some r) w' ∧ w.Provides c r w' := by
  induction c using Nat.strongRecOn with
  | ind c ih =>
    cases kept : w.classObjects.get? (w.classes.name c) with
    | some r =>
      refine ⟨r, w, ?_, refl_of _ w, .refl w, h, kept, fun _ _ => rfl⟩
      rw [ClassTable.components, classObjectOf, get_bind, kept]
      rfl
    | none =>
      cases above : w.classes.component? c with
      | none =>
        rw [ClassTable.components_of_none above]
        have refers : Option.Rel (fun k s => w.classObjects.get? (w.classes.name k) = some s)
            (w.classes.component? c) none := above ▸ .none
        obtain ⟨r, w', made, provides⟩ := h.provides_makeClassObject below kept refers
        refine ⟨r, w', ?_, provides⟩
        rw [classObjectOf, get_bind, kept]
        change (makeClassObject c none >>= _) w = _
        rw [bind_of_ok made]
        rfl
      | some k =>
        have lower := ClassTable.component?_lt above
        obtain ⟨s, w₁, asked, first⟩ := ih k lower (Nat.lt_trans lower below)
        have shallow : (w.classes.name k).type.depth < (w.classes.name c).type.depth := by
          obtain ⟨type, named, componentName⟩ := h.layers c k above
          rw [named, componentName, depth_className]
          exact Nat.lt_succ_self _
        have names (j : ClassId) : w₁.classes.name j = w.classes.name j := by
          rw [first.tables.classes]
        have new : w₁.classObjects.get? (w₁.classes.name c) = none := by
          rw [names, first.deeper _ shallow, kept]
        have refers : Option.Rel (fun k s => w₁.classObjects.get? (w₁.classes.name k) = some s)
            (w₁.classes.component? c) (some s) := by
          rw [first.tables.classes, above]
          exact .some first.kept
        have below' : c < w₁.classes.size := Nat.lt_of_lt_of_le below first.retains.size
        obtain ⟨r, w', made, second⟩ := first.canonical.provides_makeClassObject below' new refers
        refine ⟨r, w', ?_, trans_of _ first.tables second.tables,
          first.retains.trans second.retains, second.canonical, ?_, ?_⟩
        · rw [ClassTable.components_of_some above, classObjectOf, get_bind, kept]
          change (classObjectOf (w.classes.components k) >>= _) w = _
          rw [bind_of_ok asked, bind_of_ok made]
          rfl
        · rw [← names, second.kept]
        · intro n deeper
          rw [second.deeper n (by rwa [names]), first.deeper n (Nat.lt_trans shallow deeper)]

theorem provides_classObject (below : c < w.classes.size) :
    ∃ r w', classObject c w = .ok r w' ∧ w.Provides c r w' := by
  obtain ⟨r, w', asked, provides⟩ := h.provides_classObjectOf below
  refine ⟨r, w', ?_, provides⟩
  unfold classObject
  rw [get_bind, bind_of_ok asked]
  rfl

theorem provides_of_eq_ok (below : c < w.classes.size) (asked : classObject c w = .ok r w') :
    w.Provides c r w' := by
  obtain ⟨s, w₁, asked', provides⟩ := h.provides_classObject below
  cases asked.symm.trans asked'
  exact provides

end Canonical

theorem canonical_start (console : Console) (clock : Nat) : (start console clock).Canonical := by
  have titled : (start console clock).Titled := by
    refine start_induction (P := Titled) ?_ (fun w d _ h => h.define d) ?_
    · refine ⟨⟨?_, ?_⟩, ?_, ?_, ?_⟩
      · rintro name k ⟨⟩
      · rintro p k ⟨⟩
      · rintro name k ⟨⟩
      · rintro p k ⟨⟩
      · rintro c k ⟨⟩
    · intro w w' classes registry primitives h
      exact h.of_same ⟨classes, registry, primitives⟩
  exact { titled with owner := ⟨2, rfl⟩, objects := fun name r kept => nomatch kept }

end World

namespace LoaderRequest

open World

variable {w w' : World} {requests : List LoaderRequest} {r : LoaderRequest}

/-- No class object is asked for but those of classes that are there. Anything may be defined, again
or under any name. -/
def AsksForPresent (w : World) : LoaderRequest → Prop
  | classObject c => c < w.classes.size
  | define _ | load _ | type _ | primitiveArray _ => True

theorem canonical_serve (h : w.Canonical) (present : AsksForPresent w r) :
    w.RetainsObjects (r.serve w) ∧ (r.serve w).Canonical := by
  cases r with
  | define d => exact h.define d
  | load name =>
    rw [serve_load]
    exact h.typeClass name.type
  | type t => exact h.typeClass t
  | primitiveArray p => exact h.typeClass (.array (.primitive p))
  | classObject c =>
    obtain ⟨r, w', asked, provides⟩ := h.provides_classObject present
    have served : (classObject c).serve w = w' := by
      change endState (World.classObject c w) = w'
      rw [asked, endState_ok]
    rw [served]
    exact ⟨provides.retains, provides.canonical⟩

theorem canonical_serveAll (h : w.Canonical) (present : Each AsksForPresent w requests) :
    w.RetainsObjects (serveAll requests w) ∧ (serveAll requests w).Canonical := by
  induction requests generalizing w with
  | nil => exact ⟨.refl w, h⟩
  | cons r rest ih =>
    obtain ⟨retains, canonical⟩ := canonical_serve h present.1
    obtain ⟨retains', canonical'⟩ := ih canonical present.2
    exact ⟨retains.trans retains', canonical'⟩

end LoaderRequest

namespace World

/-- Class objects stand for the classes they are given for, tell these apart, and refer to the class
objects of their component classes. -/
structure Faithful (w : World) : Prop where
  represents : ∀ c r w', c < w.classes.size → classObject c w = .ok r w' →
    ∃ owner component, w'.heap.get? r = some (.classObject owner c component)
  distinguishes : ∀ a b r s w₁ w₂, a < w.classes.size → b < w.classes.size →
    classObject a w = .ok r w₁ → classObject b w₁ = .ok s w₂ → (r = s ↔ a = b)
  component : ∀ c k r w', c < w.classes.size → w.classes.component? c = some k →
    classObject c w = .ok r w' → ∃ owner represented s, classObject k w' = .ok s w' ∧
      w'.heap.get? r = some (.classObject owner represented (some s))

variable {w w₁ w₂ : World} {a b : ClassId} {r s : Reference}

/-- Class objects of two classes are the same, whenever they are asked for, exactly if the classes
have the same name. -/
theorem Canonical.eq_iff_name_eq (h : w.Canonical) (ha : a < w.classes.size)
    (first : classObject a w = .ok r w₁) {w' : World} (later : w₁.RetainsObjects w')
    (canonical : w'.Canonical) (hb : b < w'.classes.size)
    (second : classObject b w' = .ok s w₂) :
    r = s ↔ w'.classes.name a = w'.classes.name b := by
  have one := h.provides_of_eq_ok ha first
  have two := canonical.provides_of_eq_ok hb second
  have kept : w₂.classObjects.get? (w'.classes.name a) = some r := by
    rw [(one.retains.trans later).agree.name_eq ha]
    exact two.retains.kept _ r (later.kept _ r one.kept)
  constructor
  · rintro rfl
    exact two.canonical.name_unique kept two.kept
  · intro same
    rw [same] at kept
    exact Option.some.inj (kept.symm.trans two.kept)

theorem Canonical.faithful_iff (h : w.Canonical) : w.Faithful ↔
    ∀ a b, a < w.classes.size → b < w.classes.size → w.classes.name a = w.classes.name b →
      a = b := by
  constructor
  · intro faithful a b ha hb same
    obtain ⟨r, w₁, first, one⟩ := h.provides_classObject ha
    have hb' : b < w₁.classes.size := Nat.lt_of_lt_of_le hb one.retains.size
    obtain ⟨s, w₂, second, -⟩ := one.canonical.provides_classObject hb'
    apply (faithful.distinguishes a b r s w₁ w₂ ha hb first second).1
    rw [h.eq_iff_name_eq ha first (.refl w₁) one.canonical hb' second, one.tables.classes, same]
  · intro injective
    have object {c : ClassId} {r : Reference} {w' : World} (below : c < w.classes.size)
        (asked : classObject c w = .ok r w') : ∃ owner component,
          w'.heap.get? r = some (.classObject owner c component) ∧
            Option.Rel (fun k s => classObject k w' = .ok s w') (w.classes.component? c)
              component := by
      have provides := h.provides_of_eq_ok below asked
      obtain ⟨owner, d, component, here, hd, named, refers⟩ :=
        provides.canonical.objects _ r provides.kept
      rw [provides.tables.classes] at hd named refers
      cases injective d c hd below named
      refine ⟨owner, component, here, rel_mono (fun k s kept => ?_) refers⟩
      apply classObject_of_kept
      rw [provides.tables.classes, kept]
    constructor
    · intro c r w' below asked
      obtain ⟨owner, component, here, -⟩ := object below asked
      exact ⟨owner, component, here⟩
    · intro a b r s w₁ w₂ ha hb first second
      have one := h.provides_of_eq_ok ha first
      have hb' : b < w₁.classes.size := Nat.lt_of_lt_of_le hb one.retains.size
      rw [h.eq_iff_name_eq ha first (.refl w₁) one.canonical hb' second, one.tables.classes]
      constructor
      · exact injective a b ha hb
      · exact congrArg _
    · intro c k r w' below above asked
      obtain ⟨owner, component, here, refers⟩ := object below asked
      rw [above] at refers
      cases refers with
      | some found => exact ⟨owner, c, _, found, here⟩

end World

namespace LoaderRequest

open World

variable {w : World} {requests : List LoaderRequest}

/-- Whatever a loader was asked for before: each class in the table gets a class object, that of a
class of its name, and gets the same one ever after. The class objects of two classes are the same
exactly if the classes have the same name. So class objects are faithful exactly if no two classes
in the table share a name. -/
theorem classObjects_faithful_iff {console : Console} {clock : Nat}
    (present : Each AsksForPresent (start console clock) requests)
    (served : w = serveAll requests (start console clock)) :
    (∀ c < w.classes.size, ∃ r w', World.classObject c w = .ok r w' ∧
      w'.IsObjectFor (w.classes.name c) r) ∧
    (∀ a r w₁, a < w.classes.size → World.classObject a w = .ok r w₁ →
      ∀ later w', Each AsksForPresent w₁ later → w' = serveAll later w₁ →
        World.classObject a w' = .ok r w' ∧
          ∀ b s w₂, b < w'.classes.size → World.classObject b w' = .ok s w₂ →
            (r = s ↔ w'.classes.name a = w'.classes.name b)) ∧
    (w.Faithful ↔ ∀ a b, a < w.classes.size → b < w.classes.size →
      w.classes.name a = w.classes.name b → a = b) := by
  subst served
  obtain ⟨-, h⟩ := canonical_serveAll (canonical_start console clock) present
  refine ⟨?_, ?_, h.faithful_iff⟩
  · intro c below
    obtain ⟨r, w', asked, provides⟩ := h.provides_classObject below
    exact ⟨r, w', asked, provides.canonical.objects _ r provides.kept⟩
  · intro a r w₁ below asked later w' known served
    have provides := h.provides_of_eq_ok below asked
    obtain ⟨retains, canonical⟩ := canonical_serveAll provides.canonical known
    rw [← served] at retains canonical
    constructor
    · apply classObject_of_kept
      rw [(provides.retains.trans retains).agree.name_eq below]
      exact retains.kept _ r provides.kept
    · intro b s w₂ hb second
      exact h.eq_iff_name_eq below asked retains canonical hb second

def distinctRequests : List LoaderRequest :=
  [define (.ofName (.scalar "Leaf")), load (.array (.object "Leaf")), classObject 6,
    type (.primitive .int)]

theorem present_distinctRequests : Each AsksForPresent (start .working 0) distinctRequests := by
  refine ⟨trivial, trivial, ?_, trivial, trivial⟩
  exact Nat.lt_succ_self 6

theorem classObjects_faithful_distinct :
    (serveAll distinctRequests (start .working 0)).Faithful := by
  obtain ⟨-, -, iff⟩ := classObjects_faithful_iff present_distinctRequests rfl
  have distinct : ∀ a < (serveAll distinctRequests (start .working 0)).classes.size,
      ∀ b < (serveAll distinctRequests (start .working 0)).classes.size,
        (serveAll distinctRequests (start .working 0)).classes.name a =
          (serveAll distinctRequests (start .working 0)).classes.name b → a = b := by
    decide +kernel
  exact iff.2 fun a b ha hb => distinct a ha b hb

def keywordRequests : List LoaderRequest :=
  [define (.ofName (.scalar "int")), type (.primitive .int)]

/-- A class and a primitive type of one name share their class object. -/
theorem classObjects_shared_keyword : ¬ ∀ requests,
    Each AsksForPresent (start .working 0) requests →
    (serveAll requests (start .working 0)).Faithful := by
  intro faithful
  have present : Each AsksForPresent (start .working 0) keywordRequests :=
    ⟨trivial, trivial, trivial⟩
  obtain ⟨-, canonical⟩ := canonical_serveAll (canonical_start .working 0) present
  have same := canonical.faithful_iff.1 (faithful keywordRequests present) 5 6 (by decide)
    (by decide) (by decide)
  cases same

end LoaderRequest

end JavaMachine
