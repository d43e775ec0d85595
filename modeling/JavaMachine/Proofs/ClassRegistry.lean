import JavaMachine.Proofs.NamedClasses

/-!
# The registry of classes

What a loader answers depends on everything it was asked before. Requests only ever add to what can
be found, as long as no name is defined twice, and an array class is always put together from the
class that its component type leads to and from the root of the hierarchy, down to the innermost
elements. A load fails if the class of these elements was never defined, and then nothing at all has
happened.
-/
namespace JavaMachine

namespace FieldType

def element? : FieldType → Option String
  | primitive _ => none
  | object name => some name
  | array component => component.element?

end FieldType

namespace World

variable {w w₁ w' : World} {c k component : ClassId} {type : FieldType} {name : String}

/-! ### Larger worlds -/

/-- What is found in the first world is found in the second one, and the classes of the first one
are what they were. -/
structure Enlarges (w w' : World) : Prop where
  size : w.classes.size ≤ w'.classes.size
  agree : ClassTable.Agree w.classes.size w.classes w'.classes
  registry : ∀ name k, w.registry.get? name = some k → w'.registry.get? name = some k
  primitives : ∀ p k, w.primitives.get? p = some k → w'.primitives.get? p = some k

theorem Enlarges.refl (w : World) : w.Enlarges w where
  size := Nat.le_refl _
  agree _ _ := rfl
  registry _ _ := id
  primitives _ _ := id

theorem Enlarges.trans (h : w.Enlarges w₁) (h' : w₁.Enlarges w') : w.Enlarges w' where
  size := Nat.le_trans h.size h'.size
  agree i below := (h'.agree i (Nat.lt_of_lt_of_le below h.size)).trans (h.agree i below)
  registry name k found := h'.registry name k (h.registry name k found)
  primitives p k found := h'.primitives p k (h.primitives p k found)

theorem Enlarges.finds (h : w.Enlarges w') (found : w.Finds type c) : w'.Finds type c := by
  cases type with
  | primitive p => exact h.primitives p c found
  | object name => exact h.registry (.scalar name) c found
  | array type => exact h.registry (.array type) c found

/-- The tables are the same, whatever else has changed. -/
structure SameTables (w w' : World) : Prop where
  classes : w'.classes = w.classes
  registry : w'.registry = w.registry
  primitives : w'.primitives = w.primitives

instance : IsPreorder World SameTables where
  refl _ := ⟨rfl, rfl, rfl⟩
  trans _ _ _ h h' := ⟨h'.classes.trans h.classes, h'.registry.trans h.registry,
    h'.primitives.trans h.primitives⟩

theorem SameTables.enlarges (h : w.SameTables w') : w.Enlarges w' := by
  obtain ⟨classes, registry, primitives⟩ := h
  constructor
  · exact Nat.le_of_eq (congrArg ClassTable.size classes.symm)
  · rw [classes]
    exact fun _ _ => rfl
  · rw [registry]
    exact fun _ _ => id
  · rw [primitives]
    exact fun _ _ => id

theorem sameTables_markInitialized (w : World) (c : ClassId) :
    w.SameTables (w.markInitialized c) := by
  obtain ⟨initialized, marked⟩ := markInitialized_eq w c
  rw [marked]
  exact ⟨rfl, rfl, rfl⟩

theorem keeps_classObject_sameTables (c : ClassId) : Keeps SameTables (classObject c) := by
  refine keeps_classObject_of (fun c component => ?_) c
  unfold makeClassObject
  refine .bind (keeps_loadScalar _) fun owner => .bind ?_ fun r => .bind ?_ fun _ => .pure r
  · exact fun w => ⟨rfl, rfl, rfl⟩
  · exact .modify fun w => ⟨rfl, rfl, rfl⟩

theorem registry_addClass (w : World) (d : Class) (name : ClassName) :
    (w.addClass d).2.registry.get? name =
      if name = d.name then some w.classes.size else w.registry.get? name :=
  FiniteMap.get?_insert _ _ _ _

theorem enlarges_addClass {d : Class} (new : w.registry.get? d.name = none) :
    w.Enlarges (w.addClass d).2 where
  size := by
    simp [addClass]
  agree := w.classes.agree_push d
  registry name k found := by
    have other : name ≠ d.name := by
      rintro rfl
      rw [new] at found
      cases found
    rw [registry_addClass, if_neg other, found]
  primitives _ _ := id

theorem enlarges_primitiveClass (w : World) (p : Primitive) :
    w.Enlarges (endState (primitiveClass p w)) := by
  unfold primitiveClass
  cases new : w.primitives.get? p with
  | some k => exact .refl w
  | none =>
    constructor
    · simp
    · exact w.classes.agree_push _
    · exact fun _ _ => id
    · intro q k found
      have other : q ≠ p := by
        rintro rfl
        rw [new] at found
        cases found
      rw [← found]
      exact FiniteMap.get?_insert_ne _ other _

/-! ### Assembled array classes -/

/-- The class is the one that the type leads to, without any loading. Every array class on the way
to the innermost elements has exactly this class for its components, and extends the root. -/
def Resolves (w : World) : FieldType → ClassId → Prop
  | .primitive p, c => typeClass (.primitive p) w = .ok c w
  | .object name, c => typeClass (.object name) w = .ok c w
  | .array type, c => typeClass (.array type) w = .ok c w ∧
      (∃ object, loadClass objectName w = .ok object w ∧
        w.classes.superclass? c = some object) ∧
      ∃ k, w.classes.component? c = some k ∧ w.Resolves type k

/-- Classes have the names they are found under, and the array classes among them are put together
from classes that are found as well. -/
structure Assembled (w : World) : Prop extends named : Named w where
  root : ∃ object, w.registry.get? objectName = some object
  arrays : ∀ type c, w.registry.get? (.array type) = some c →
    w.classes.superclass? c = w.registry.get? objectName ∧
      ∃ k, w.classes.component? c = some k ∧ w.Finds type k

theorem typeClass_of_finds (found : w.Finds type c) : typeClass type w = .ok c w := by
  cases type with
  | primitive p =>
    change primitiveClass p w = _
    unfold primitiveClass
    rw [show w.primitives.get? p = some c from found]
  | object name => exact loadScalar_eq_ok.2 ⟨found, rfl⟩
  | array type =>
    change loadArray type w = _
    rw [loadArray_eq, show w.registry.get? (.array type) = some c from found]

theorem loadClass_of_registered {name : ClassName} (found : w.registry.get? name = some c) :
    loadClass name w = .ok c w := by
  rw [loadClass_eq]
  cases name <;> exact typeClass_of_finds found

namespace Assembled

variable (h : w.Assembled)
include h

theorem resolves (found : w.Finds type c) : w.Resolves type c := by
  induction type generalizing c with
  | primitive p => exact typeClass_of_finds found
  | object name => exact typeClass_of_finds found
  | array type ih =>
    obtain ⟨object, root⟩ := h.root
    obtain ⟨above, k, component, foundComponent⟩ := h.arrays type c found
    refine ⟨typeClass_of_finds found, ⟨object, loadClass_of_registered root, ?_⟩, ?_⟩
    · rw [above, root]
    · exact ⟨k, component, ih foundComponent⟩

theorem element_of_finds (found : w.Finds type c) (element : type.element? = some name) :
    ∃ k, w.registry.get? (.scalar name) = some k := by
  induction type generalizing c with
  | primitive p => cases element
  | object other =>
    cases element
    exact ⟨c, found⟩
  | array type ih =>
    obtain ⟨-, k, -, foundComponent⟩ := h.arrays type c found
    exact ih foundComponent element

theorem of_enlarges (larger : w.Enlarges w') (named : w'.Named)
    (new : ∀ type c, w'.registry.get? (.array type) = some c →
      w.registry.get? (.array type) = none →
      w'.classes.superclass? c = w'.registry.get? objectName ∧
        ∃ k, w'.classes.component? c = some k ∧ w'.Finds type k) : w'.Assembled := by
  obtain ⟨object, root⟩ := h.root
  refine { named := named, root := ⟨object, larger.registry _ _ root⟩, arrays := ?_ }
  intro type c found
  cases before : w.registry.get? (.array type) with
  | none => exact new type c found before
  | some c₀ =>
    cases (larger.registry _ _ before).symm.trans found
    have below := h.linked.registry _ _ before
    obtain ⟨above, k, component, foundComponent⟩ := h.arrays type c before
    refine ⟨?_, k, ?_, larger.finds foundComponent⟩
    · rw [larger.agree.superclass?_eq below, above, root, larger.registry _ _ root]
    · rw [larger.agree.component?_eq below, component]

theorem of_sameTables (same : w.SameTables w') : w'.Assembled := by
  refine h.of_enlarges same.enlarges (h.named.of_same same.classes same.registry same.primitives) ?_
  intro type c found new
  rw [same.registry, new] at found
  cases found

theorem define {d : ClassDefinition} (scalar : d.name.isArray = false)
    (new : w.registry.get? d.name = none) : (w.define d).2.Assembled := by
  have larger : w.Enlarges (w.define d).2 := enlarges_addClass new
  apply h.of_enlarges larger (h.named.define scalar)
  intro type c found before
  have other : ClassName.array type ≠ d.name := by
    intro same
    rw [← same] at scalar
    cases scalar
  rw [World.define, registry_addClass, if_neg (by exact other), before] at found
  cases found

theorem primitiveClass (p : Primitive) : (endState (primitiveClass p w)).Assembled := by
  have named := keeps_primitiveClass toleratesLoading_named p w h.named
  apply h.of_enlarges (w.enlarges_primitiveClass p) named
  intro type c found before
  have same : (endState (World.primitiveClass p w)).registry = w.registry := by
    unfold World.primitiveClass
    split <;> rfl
  rw [same, before] at found
  cases found

/-- An array class is added that is found under no name yet, after the class of its components. -/
theorem addArray {object : ClassId} (flags : UInt16) (found : w.Finds type component)
    (root : w.registry.get? objectName = some object)
    (new : w.registry.get? (.array type) = none) (w' : World) (hw : w' =
      (w.addClass (.arrayOf type component flags object)).2.markInitialized w.classes.size) :
    w.Enlarges w' ∧ w'.Assembled := by
  have named : w'.Named :=
    hw ▸ toleratesLoading_named.array w type component flags object root found new h.named
  have marked : (w.addClass (.arrayOf type component flags object)).2.SameTables w' :=
    hw ▸ sameTables_markInitialized _ _
  have larger : w.Enlarges w' := (enlarges_addClass new).trans marked.enlarges
  refine ⟨larger, h.of_enlarges larger named ?_⟩
  intro other c found' before
  rw [marked.registry, registry_addClass] at found'
  split at found'
  · rename_i same
    cases same
    cases found'
    have below := h.linked.registry _ _ root
    have lower := h.named.lt_size_of_finds found
    rw [larger.registry _ _ root, marked.classes]
    refine ⟨?_, component, ?_, larger.finds found⟩
    · simp [addClass, ClassTable.superclass?, ClassTable.get?_push, Class.arrayOf,
        ClassTable.earlier, below]
    · simp [addClass, ClassTable.component?, ClassTable.get?_push, Class.arrayOf,
        ClassTable.earlier, lower]
  · rw [before] at found'
    cases found'

theorem makeArrayClass (found : w.Finds type component)
    (new : w.registry.get? (.array type) = none) :
    ∃ c w', World.makeArrayClass type component w = .ok c w' ∧ w.Enlarges w' ∧ w'.Assembled := by
  obtain ⟨object, root⟩ := h.root
  have known : loadScalar "java/lang/Object" w = .ok object w := loadScalar_eq_ok.2 ⟨root, rfl⟩
  unfold World.makeArrayClass
  rw [bind_of_ok known]
  exact ⟨_, _, rfl, h.addArray _ found root new _ rfl⟩

end Assembled

/-! ### Loading in an assembled world -/

namespace Assembled

/-- Loading finds or makes the class, or the innermost elements are of a class that nothing is known
of, and nothing has happened. -/
theorem typeClass_cases (h : w.Assembled) (type : FieldType) :
    (∃ c w', typeClass type w = .ok c w' ∧ w.Enlarges w' ∧ w'.Assembled) ∨
      ∃ name, type.element? = some name ∧ w.registry.get? (.scalar name) = none ∧
        typeClass type w = .error (.classNotFound name) w := by
  induction type with
  | primitive p =>
    have larger := w.enlarges_primitiveClass p
    have assembled := h.primitiveClass p
    cases loaded : World.primitiveClass p w with
    | ok c w' =>
      rw [loaded] at larger assembled
      exact .inl ⟨c, w', loaded, larger, assembled⟩
    | error e w' =>
      unfold World.primitiveClass at loaded
      split at loaded <;> cases loaded
  | object name =>
    cases found : w.registry.get? (.scalar name) with
    | some c => exact .inl ⟨c, w, loadScalar_eq_ok.2 ⟨found, rfl⟩, .refl w, h⟩
    | none =>
      refine .inr ⟨name, rfl, found, ?_⟩
      change loadScalar name w = _
      unfold loadScalar
      rw [found]
  | array type ih =>
    cases found : w.registry.get? (.array type) with
    | some c => exact .inl ⟨c, w, typeClass_of_finds found, .refl w, h⟩
    | none =>
      have start : typeClass (.array type) w =
          (typeClass type >>= World.makeArrayClass type) w := by
        change loadArray type w = _
        rw [loadArray_eq, found]
      rcases ih with ⟨k, w₁, loaded, larger, assembled⟩ | ⟨name, element, unknown, failed⟩
      · have new : w₁.registry.get? (.array type) = none := by
          have same := sameEntry_typeClass (Nat.le_refl type.depth) w
          rw [loaded] at same
          exact same.trans found
        obtain ⟨c, w', made, larger', assembled'⟩ :=
          assembled.makeArrayClass (finds_typeClass loaded) new
        refine .inl ⟨c, w', ?_, larger.trans larger', assembled'⟩
        rw [start, bind_of_ok loaded, made]
      · refine .inr ⟨name, element, unknown, ?_⟩
        rw [start, bind_of_error failed]

variable (h : w.Assembled)
include h

theorem typeClass (type : FieldType) :
    w.Enlarges (endState (World.typeClass type w)) ∧
      (endState (World.typeClass type w)).Assembled := by
  rcases h.typeClass_cases type with ⟨c, w', loaded, larger, assembled⟩ | ⟨name, -, -, failed⟩
  · rw [loaded]
    exact ⟨larger, assembled⟩
  · rw [failed]
    exact ⟨.refl w, h⟩

/-- Loading fails if and only if the class of the innermost elements is not found. It reports this
class, and the world is left as it was. -/
theorem typeClass_eq_error_iff {e : Error} :
    World.typeClass type w = .error e w' ↔ ∃ name, type.element? = some name ∧
      w.registry.get? (.scalar name) = none ∧ e = .classNotFound name ∧ w' = w := by
  rcases h.typeClass_cases type with
    ⟨c, w₁, loaded, -, assembled⟩ | ⟨name, element, unknown, failed⟩
  · rw [loaded]
    constructor
    · rintro ⟨⟩
    · rintro ⟨name, element, unknown, -⟩
      obtain ⟨k, known⟩ := assembled.element_of_finds (finds_typeClass loaded) element
      have same := keeps_typeClass toleratesLoading_sameScalars type w name
      rw [loaded] at same
      rw [endState_ok, known, unknown] at same
      cases same
  · rw [failed]
    constructor
    · rintro ⟨⟩
      exact ⟨name, element, unknown, rfl, rfl⟩
    · rintro ⟨other, element', -, rfl, rfl⟩
      cases element.symm.trans element'
      rfl

end Assembled

theorem assembled_start (console : Console) (clock : Nat) : (start console clock).Assembled where
  named := (defined_start console clock).named
  root := ⟨0, rfl⟩
  arrays := by
    intro type c found
    have none : (start console clock).registry.get? (.array type) = none := by
      refine start_induction (P := fun w => w.registry.get? (.array type) = none) rfl ?_ ?_
      · intro w d scalar before
        rw [World.define, registry_addClass, if_neg, before]
        intro same
        rw [show d.name = _ from same.symm] at scalar
        cases scalar
      · intro w w' _ registry _ before
        rw [registry, before]
    rw [none] at found
    cases found

end World

/-! ### Requests -/

inductive LoaderRequest
  | define (d : ClassDefinition)
  | load (name : ClassName)
  | type (type : FieldType)
  | primitiveArray (p : Primitive)
  | classObject (c : ClassId)

namespace LoaderRequest

open World

def serve : LoaderRequest → World → World
  | define d, w => (w.define d).2
  | load name, w => endState (loadClass name w)
  | .type t, w => endState (typeClass t w)
  | primitiveArray p, w => endState (loadClass (.array (.primitive p)) w)
  | classObject c, w => endState (World.classObject c w)

def serveAll (requests : List LoaderRequest) (w : World) : World :=
  requests.foldl (fun w r => r.serve w) w

def Each (P : World → LoaderRequest → Prop) : World → List LoaderRequest → Prop
  | _, [] => True
  | w, r :: rest => P w r ∧ Each P (r.serve w) rest

/-- Nothing is defined but classes of new names, none of which is that of an array class. -/
def DefinesNew (w : World) : LoaderRequest → Prop
  | define d => d.name.isArray = false ∧ w.registry.get? d.name = none
  | load _ | type _ | primitiveArray _ | classObject _ => True

/-- The class is there from the beginning, or one of the requests defines it. -/
def Known (w : World) (requests : List LoaderRequest) (name : String) : Prop :=
  (∃ c, w.registry.get? (.scalar name) = some c) ∨
    ∃ d, define d ∈ requests ∧ d.name = .scalar name

variable {w w' : World} {requests later : List LoaderRequest} {r : LoaderRequest} {name : String}

theorem serve_load (name : ClassName) (w : World) :
    (load name).serve w = endState (typeClass name.type w) := by
  rw [← loadClass_eq]
  rfl

theorem assembled_serve (h : w.Assembled) (new : DefinesNew w r) :
    w.Enlarges (r.serve w) ∧ (r.serve w).Assembled := by
  cases r with
  | define d => exact ⟨enlarges_addClass new.2, h.define new.1 new.2⟩
  | load name =>
    rw [serve_load]
    exact h.typeClass name.type
  | type t => exact h.typeClass t
  | primitiveArray p => exact h.typeClass (.array (.primitive p))
  | classObject c =>
    have same := keeps_classObject_sameTables c w
    exact ⟨same.enlarges, h.of_sameTables same⟩

/-- Requests that define new classes only find what was found before, and what they add is put
together from what is found. -/
theorem assembled_serveAll (h : w.Assembled) (new : Each DefinesNew w requests) :
    w.Enlarges (serveAll requests w) ∧ (serveAll requests w).Assembled := by
  induction requests generalizing w with
  | nil => exact ⟨.refl w, h⟩
  | cons r rest ih =>
    obtain ⟨larger, assembled⟩ := assembled_serve h new.1
    obtain ⟨larger', assembled'⟩ := ih assembled new.2
    exact ⟨larger.trans larger', assembled'⟩

theorem unknown_serve_iff : (r.serve w).registry.get? (.scalar name) = none ↔
    w.registry.get? (.scalar name) = none ∧ ∀ d, r = define d → d.name ≠ .scalar name := by
  have loads (t : FieldType) : (endState (typeClass t w)).registry.get? (.scalar name) =
      w.registry.get? (.scalar name) := keeps_typeClass toleratesLoading_sameScalars t w name
  cases r with
  | define d =>
    have entry : ((define d).serve w).registry.get? (.scalar name) =
        if ClassName.scalar name = d.name then some w.classes.size
        else w.registry.get? (.scalar name) :=
      registry_addClass w _ _
    rw [entry]
    by_cases same : d.name = .scalar name
    · simp [same]
    · simp [same, Ne.symm same]
  | load name => simp [serve_load, loads]
  | type t => simp [serve, loads]
  | primitiveArray p => simp [serve, loadClass_eq, ClassName.type, loads]
  | classObject c => simp [serve, (keeps_classObject_sameTables c w).registry]

theorem not_known_iff : ¬ Known w requests name ↔ w.registry.get? (.scalar name) = none ∧
    ∀ d, define d ∈ requests → d.name ≠ .scalar name := by
  unfold Known
  cases w.registry.get? (.scalar name) <;> simp

theorem unknown_serveAll_iff :
    (serveAll requests w).registry.get? (.scalar name) = none ↔ ¬ Known w requests name := by
  induction requests generalizing w with
  | nil => simp [serveAll, not_known_iff]
  | cons r rest ih =>
    change (serveAll rest (r.serve w)).registry.get? _ = none ↔ _
    rw [ih, not_known_iff, not_known_iff, unknown_serve_iff, and_assoc]
    simp only [List.mem_cons, or_imp, forall_and, eq_comm]

/-- Whatever a loader is asked for, as long as no name is defined twice: every class is found under
its own name, now and forever, and every array class is put together from the classes that its
component types lead to and from the root. What a load gives, each later load of the name gives, and
changes nothing. A load fails if and only if the innermost elements of the name are of a class that
is not known; it reports this class, and nothing has happened. -/
theorem registry_coherent {console : Console} {clock : Nat}
    (new : Each DefinesNew (start console clock) requests)
    (served : w = serveAll requests (start console clock)) :
    (∀ name c, w.registry.get? name = some c → w.classes.name c = name) ∧
    (∀ type c, w.registry.get? (.array type) = some c → w.Resolves (.array type) c) ∧
    (∀ later, Each DefinesNew w later → ∀ name c, w.registry.get? name = some c →
      (serveAll later w).registry.get? name = some c ∧
        (serveAll later w).classes.get? c = w.classes.get? c) ∧
    (∀ name c w', loadClass name w = .ok c w' → ∀ later, Each DefinesNew w' later →
      loadClass name (serveAll later w') = .ok c (serveAll later w')) ∧
    ∀ name e w', loadClass name w = .error e w' ↔ ∃ element, name.type.element? = some element ∧
      ¬ Known (start console clock) requests element ∧ e = .classNotFound element ∧ w' = w := by
  subst served
  obtain ⟨-, h⟩ := assembled_serveAll (assembled_start console clock) new
  refine ⟨h.names, fun type c found => h.resolves found, ?_, ?_, ?_⟩
  · intro later each name c found
    obtain ⟨larger, -⟩ := assembled_serveAll h each
    exact ⟨larger.registry name c found, larger.agree c (h.linked.registry name c found)⟩
  · intro name c w' loaded later each
    have registered := registered_loadClass loaded
    have reached := h.typeClass name.type
    rw [← loadClass_eq, loaded] at reached
    obtain ⟨larger, -⟩ := assembled_serveAll reached.2 each
    exact loadClass_of_registered (larger.registry name c registered)
  · intro name e w'
    simp only [loadClass_eq, h.typeClass_eq_error_iff, unknown_serveAll_iff]

def leafRequests : List LoaderRequest :=
  [define (.ofName (.scalar "Leaf")), load (.array (.array (.object "Leaf"))),
    load (.array (.object "Stem"))]

theorem registry_coherent_leaf : Each DefinesNew (start .working 0) leafRequests ∧
    (serveAll leafRequests (start .working 0)).Resolves (.array (.array (.object "Leaf"))) 7 ∧
    loadClass (.array (.object "Stem")) (serveAll leafRequests (start .working 0)) =
      .error (.classNotFound "Stem") (serveAll leafRequests (start .working 0)) := by
  have new : Each DefinesNew (start .working 0) leafRequests :=
    ⟨⟨rfl, rfl⟩, trivial, trivial, trivial⟩
  have unknown : ¬ Known (start .working 0) leafRequests "Stem" := by
    rw [← unknown_serveAll_iff]
    rfl
  obtain ⟨-, arrays, -, -, fails⟩ := registry_coherent new rfl
  exact ⟨new, arrays _ 7 rfl, (fails _ _ _).2 ⟨"Stem", rfl, unknown, rfl, rfl⟩⟩

end LoaderRequest

end JavaMachine
