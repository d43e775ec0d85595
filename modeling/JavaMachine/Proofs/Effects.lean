import JavaMachine.Native.Call
import JavaMachine.Native.Intrinsics
import JavaMachine.Execution.Array
import JavaMachine.Execution.FieldAccess
import JavaMachine.Execution.Object
import JavaMachine.Proofs.PendingClasses
import JavaMachine.Proofs.PlainValues
import Mathlib.Order.Defs.Unbundled

/-!
# What operations on the world do

A relation between the world before and after that tolerates a few elementary changes is kept by
every operation of the library: loading, allocation, strings, class objects, arrays, hooks and the
standard native methods. Failing operations count too, since they leave behind what they had done.
Every frame condition and every growth law about the world is one choice of the relation.
-/
namespace JavaMachine

/-- The state that a computation ends in, with or without failure. -/
def endState {ε σ α : Type} : EStateM.Result ε σ α → σ
  | .ok _ s | .error _ s => s

@[simp] theorem endState_ok {ε σ α : Type} (a : α) (s : σ) :
    endState (.ok a s : EStateM.Result ε σ α) = s := rfl

@[simp] theorem endState_error {ε σ α : Type} (e : ε) (s : σ) :
    endState (.error e s : EStateM.Result ε σ α) = s := rfl

/-- The states before and after the computation are always related. -/
def Keeps {ε σ α : Type} (R : σ → σ → Prop) (x : EStateM ε σ α) : Prop :=
  ∀ s, R s (endState (x s))

namespace Keeps

variable {ε σ α β : Type} {R : σ → σ → Prop}

theorem modify {f : σ → σ} (hf : ∀ s, R s (f s)) : Keeps (ε := ε) R (modify f) := hf

/-- A computation that first reads the state may use what it read. -/
theorem reading {f : σ → EStateM ε σ α} (hf : ∀ s, R s (endState (f s s))) :
    Keeps R (MonadState.get >>= f) := hf

theorem reading_at {f : σ → EStateM ε σ α} (hf : ∀ s, Keeps (fun s₁ s' => s₁ = s → R s₁ s') (f s)) :
    Keeps R (MonadState.get >>= f) := fun s => hf s s rfl

theorem bind_ofExcept [IsPreorder σ R] {x : Except ε α} {f : α → EStateM ε σ β} {s : σ}
    (hf : ∀ a, x = .ok a → R s (endState (f a s))) :
    R s (endState ((MonadExcept.ofExcept x >>= f) s)) := by
  cases x with
  | ok a => exact hf a rfl
  | error e => exact refl_of R s

theorem ite {p : Prop} [Decidable p] {x y : EStateM ε σ α} (hx : Keeps R x) (hy : Keeps R y) :
    Keeps R (if p then x else y) := by
  split
  · exact hx
  · exact hy

variable [IsPreorder σ R]

theorem pure (a : α) : Keeps (ε := ε) R (Pure.pure a) := fun s => refl_of R s

theorem throw (e : ε) : Keeps R (MonadExcept.throw e : EStateM ε σ α) := fun s => refl_of R s

theorem get : Keeps (ε := ε) R MonadState.get := fun s => refl_of R s

theorem ofExcept (x : Except ε α) : Keeps R (MonadExcept.ofExcept x : EStateM ε σ α) := by
  cases x with
  | ok a => exact pure a
  | error e => exact throw e

/-- A sequence relates a state to where it ends if its first part does, and its second part from
where the first one succeeds. -/
theorem bind_of_ok {x : EStateM ε σ α} {f : α → EStateM ε σ β} {s : σ}
    (hx : R s (endState (x s)))
    (hf : ∀ a s', x s = .ok a s' → R s' (endState (f a s'))) : R s (endState ((x >>= f) s)) := by
  change R s (endState (EStateM.bind x f s))
  unfold EStateM.bind
  cases hs : x s with
  | ok a s' =>
    rw [hs] at hx
    exact trans_of R hx (hf a s' hs)
  | error e s' =>
    rw [hs] at hx
    exact hx

theorem bind_from {x : EStateM ε σ α} {f : α → EStateM ε σ β} {s : σ} (hx : R s (endState (x s)))
    (hf : ∀ a, Keeps R (f a)) : R s (endState ((x >>= f) s)) := bind_of_ok hx fun a s' _ => hf a s'

theorem bind {x : EStateM ε σ α} {f : α → EStateM ε σ β} (hx : Keeps R x)
    (hf : ∀ a, Keeps R (f a)) : Keeps R (x >>= f) := fun s => bind_from (hx s) hf

end Keeps

/-- To preserve a property is to keep a preorder. -/
instance isPreorder_preserves {σ : Type} (P : σ → Prop) : IsPreorder σ fun s s' => P s → P s' where
  refl _ := id
  trans _ _ _ h h' := h' ∘ h

section Inversion

variable {ε σ α β : Type} {s s' : σ}

theorem get_bind (f : σ → EStateM ε σ α) (s : σ) : (MonadState.get >>= f) s = f s s := rfl

theorem bind_eq_ok {x : EStateM ε σ α} {f : α → EStateM ε σ β} {b : β} :
    (x >>= f) s = .ok b s' ↔ ∃ a s₁, x s = .ok a s₁ ∧ f a s₁ = .ok b s' := by
  change EStateM.bind x f s = _ ↔ _
  unfold EStateM.bind
  cases hx : x s with
  | ok a s₁ =>
    constructor
    · intro h
      exact ⟨a, s₁, rfl, h⟩
    · rintro ⟨_, _, ⟨⟩, h⟩
      exact h
  | error e s₁ => simp

theorem bind_of_ok {x : EStateM ε σ α} {f : α → EStateM ε σ β} {a : α} {s₁ : σ}
    (h : x s = .ok a s₁) : (x >>= f) s = f a s₁ := by
  change EStateM.bind x f s = _
  unfold EStateM.bind
  rw [h]

theorem bind_of_error {x : EStateM ε σ α} {f : α → EStateM ε σ β} {e : ε} {s₁ : σ}
    (h : x s = .error e s₁) : (x >>= f) s = .error e s₁ := by
  change EStateM.bind x f s = _
  unfold EStateM.bind
  rw [h]

theorem bind_eq_error {x : EStateM ε σ α} {f : α → EStateM ε σ β} {e : ε} :
    (x >>= f) s = .error e s' ↔
      x s = .error e s' ∨ ∃ a s₁, x s = .ok a s₁ ∧ f a s₁ = .error e s' := by
  cases hx : x s with
  | ok a s₁ =>
    rw [bind_of_ok hx]
    constructor
    · exact fun h => .inr ⟨a, s₁, rfl, h⟩
    · rintro (first | ⟨_, _, passed, h⟩)
      · cases first
      · cases passed
        exact h
  | error e₁ s₁ =>
    rw [bind_of_error hx]
    simp

theorem ofExcept_eq_ok {x : Except ε α} {a : α} :
    (MonadExcept.ofExcept x : EStateM ε σ α) s = .ok a s' ↔ x = .ok a ∧ s = s' := by
  cases x with
  | ok b =>
    constructor
    · rintro ⟨⟩
      exact ⟨rfl, rfl⟩
    · rintro ⟨⟨⟩, rfl⟩
      rfl
  | error e =>
    constructor
    · rintro ⟨⟩
    · rintro ⟨⟨⟩, _⟩

/-- Every result of the computation has the property. -/
def Gives (P : α → Prop) (x : EStateM ε σ α) : Prop := ∀ s a s', x s = .ok a s' → P a

namespace Gives

variable {P : α → Prop}

theorem pure {a : α} (h : P a) : Gives (ε := ε) (σ := σ) P (Pure.pure a) := by
  intro s _ _ ha
  cases ha
  exact h

theorem throw (e : ε) : Gives (σ := σ) P (MonadExcept.throw e : EStateM ε σ α) := by
  intro s _ _ ha
  cases ha

theorem bind {x : EStateM ε σ β} {f : β → EStateM ε σ α} (hf : ∀ b, Gives P (f b)) :
    Gives P (x >>= f) := by
  intro s a s' ha
  obtain ⟨b, s₁, -, hb⟩ := bind_eq_ok.1 ha
  exact hf b s₁ a s' hb

theorem bind_of {Q : β → Prop} {x : EStateM ε σ β} {f : β → EStateM ε σ α} (hx : Gives Q x)
    (hf : ∀ b, Q b → Gives P (f b)) : Gives P (x >>= f) := by
  intro s a s' ha
  obtain ⟨b, s₁, hb, ha⟩ := bind_eq_ok.1 ha
  exact hf b (hx s b s₁ hb) s₁ a s' ha

theorem bind_ofExcept {x : Except ε β} {f : β → EStateM ε σ α}
    (hf : ∀ b, x = .ok b → Gives P (f b)) : Gives P (MonadExcept.ofExcept x >>= f) :=
  bind_of (Q := fun b => x = .ok b) (fun _ _ _ h => (ofExcept_eq_ok.1 h).1) hf

end Gives

/-- Every error of the computation has the property. -/
def Fails (P : ε → Prop) (x : EStateM ε σ α) : Prop := ∀ s e s', x s = .error e s' → P e

namespace Fails

variable {P : ε → Prop}

theorem pure (a : α) : Fails (σ := σ) P (Pure.pure a : EStateM ε σ α) := by
  intro s _ _ failed
  cases failed

theorem throw {e : ε} (h : P e) : Fails P (MonadExcept.throw e : EStateM ε σ α) := by
  intro s _ _ failed
  cases failed
  exact h

theorem bind {x : EStateM ε σ β} {f : β → EStateM ε σ α} (hx : Fails P x)
    (hf : ∀ b, Fails P (f b)) : Fails P (x >>= f) := by
  intro s e s' failed
  rcases bind_eq_error.1 failed with first | ⟨b, s₁, -, later⟩
  · exact hx s e s' first
  · exact hf b s₁ e s' later

end Fails

/-- A computation that fails leaves the state as it was. -/
def AllOrNothing (x : EStateM ε σ α) : Prop := ∀ s e s', x s = .error e s' → s' = s

namespace AllOrNothing

theorem reading {f : σ → EStateM ε σ α} (hf : ∀ s, AllOrNothing (f s)) :
    AllOrNothing (MonadState.get >>= f) := fun s e s' failed => hf s s e s' failed

theorem bind_ofExcept {x : Except ε β} {f : β → EStateM ε σ α} (hf : ∀ b, AllOrNothing (f b)) :
    AllOrNothing (MonadExcept.ofExcept x >>= f) := by
  intro s e s' failed
  cases x with
  | ok b => exact hf b s e s' failed
  | error e =>
    cases failed
    rfl

end AllOrNothing

end Inversion

/-- How deep arrays are nested in the type. -/
def FieldType.depth : FieldType → Nat
  | array component => component.depth + 1
  | primitive _ | object _ => 0

namespace World

/-- The class is found as the one of the type, without any loading. -/
def Finds (w : World) : FieldType → ClassId → Prop
  | .primitive p, c => w.primitives.get? p = some c
  | .object name, c => w.registry.get? (.scalar name) = some c
  | .array type, c => w.registry.get? (.array type) = some c

/-- The change of the world that the search for initializers is made of: a class without one is
marked when it is due. -/
structure ToleratesMarks (R : World → World → Prop) : Prop where
  marked (w : World) (c : ClassId) (undeclared : w.classes.declared? .initializer c = none)
    (due : w.IsDue c) : R w (w.markInitialized c)

/-- The changes of the world that loading and initialization are made of: the class of a primitive
type is added, or that of an array after the class of its components if none was found before. -/
structure ToleratesLoading (R : World → World → Prop) : Prop extends
    marks : ToleratesMarks R where
  primitive (w : World) (p : Primitive) : R w { w with
    classes := w.classes.push (Class.ofPrimitive p)
    primitives := w.primitives.insert p w.classes.size
    initialized := w.classes.size :: w.initialized }
  array (w : World) (type : FieldType) (component : ClassId) (flags : UInt16) (object : ClassId)
    (found : w.registry.get? objectName = some object) (components : w.Finds type component)
    (new : w.registry.get? (.array type) = none) :
    R w ((w.addClass (Class.arrayOf type component flags object)).2.markInitialized
      w.classes.size)

theorem ToleratesLoading.mono {R R' : World → World → Prop} (h : ToleratesLoading R)
    (weaker : ∀ w w', R w w' → R' w w') : ToleratesLoading R' where
  marked w c undeclared due := weaker _ _ (h.marked w c undeclared due)
  primitive w p := weaker _ _ (h.primitive w p)
  array w type component flags object found components new :=
    weaker _ _ (h.array w type component flags object found components new)

/-- The entities that are allocated: objects and class objects of a class that is found, and arrays
whose class is found by their type, with nothing in them but primitives and nulls. -/
structure ToleratesAllocation (R : World → World → Prop) : Prop extends
    loading : ToleratesLoading R where
  object (w : World) (name : ClassName) (c : ClassId) (fields : Fields)
    (found : w.registry.get? name = some c) (plain : fields.IsPlain) :
    R w (endState (allocate (.object c fields) w))
  classObject (w : World) (name : ClassName) (c represented : ClassId)
    (component : Option Reference) (found : w.registry.get? name = some c) :
    R w (endState (allocate (.classObject c represented component) w))
  primitives (w : World) (c : ClassId) (storage : Storage)
    (found : w.Finds (.array (.primitive storage.type)) c) :
    R w (endState (allocate (.primitives c storage) w))
  nulls (w : World) (type : FieldType) (c : ClassId) (length : Nat)
    (found : w.Finds (.array type) c) :
    R w (endState (allocate (.references c (Array.replicate length .null)) w))

/-- The changes of the world that are made of new entities: none of them changes anything that
the guest has written. Arrays of arrays come with their elements, so they count as a whole. -/
structure ToleratesCreation (R : World → World → Prop) : Prop extends
    allocation : ToleratesAllocation R where
  classObjects (w : World) (classObjects : FiniteMap ClassName Reference) :
    R w { w with classObjects := classObjects }
  strings (w : World) (strings : FiniteMap String Reference) : R w { w with strings := strings }
  nested (w : World) (name : ClassName) (c : ClassId) (length : Nat) (further : List Nat)
    (found : w.registry.get? name = some c) :
    R w (endState (newNestedArray c length further w))

/-- The changes of the world that a relation has to tolerate to be kept by every operation. What
is written into a field is no return address. Stack traces come with their elements, so they count
as a whole. -/
structure Tolerated (R : World → World → Prop) : Prop extends
    creation : ToleratesCreation R where
  statics (w : World) (key : ClassId × String) (v : Value)
    (present : w.statics.contains key = true) (plain : v.IsPlain) :
    R w { w with statics := w.statics.insert key v }
  console (w : World) (console : Console) : R w { w with console := console }
  trace (frames : List Frame) (throwable : Reference) :
    Keeps R (fillInStackTrace frames throwable)
  field (w : World) (r : Reference) (c : ClassId) (fields : Fields) (name : String) (v : Value)
    (here : w.object? r = some (c, fields)) (plain : v.IsPlain) :
    R w (endState (modifyEntity r (fun _ => .object c (fields.insert name v)) w))
  scalar (w : World) (r : Reference) (i : Nat) (s : Scalar) :
    R w (endState (modifyEntity r (.setScalar i s) w))
  scalars (w : World) (r : Reference) (i : Nat) (source : Storage) :
    R w (endState (modifyEntity r (.overwriteScalars i source) w))
  references (w : World) (r : Reference) (c : ClassId) (elements : Array Reference) (i : Nat)
    (source : List Reference) (here : w.heap.get? r = some (.references c elements))
    (fits : ∀ x ∈ source, w.storable c x = true) :
    R w (endState (modifyEntity r (.overwriteReferences i source) w))

/-- The changes that a relation has to tolerate to be kept by every operation if it does not look
at the heap. -/
structure ToleratesHeap (R : World → World → Prop) : Prop extends
    loading : ToleratesLoading R where
  heap (w : World) (heap : Heap) : R w { w with heap := heap }
  statics (w : World) (key : ClassId × String) (v : Value)
    (present : w.statics.contains key = true) :
    R w { w with statics := w.statics.insert key v }
  classObjects (w : World) (classObjects : FiniteMap ClassName Reference) :
    R w { w with classObjects := classObjects }
  strings (w : World) (strings : FiniteMap String Reference) : R w { w with strings := strings }
  console (w : World) (console : Console) : R w { w with console := console }

variable {R : World → World → Prop} [IsPreorder World R]

theorem keeps_loadScalar (name : String) : Keeps R (loadScalar name) := by
  intro w
  unfold loadScalar
  split <;> exact refl_of R w

theorem keeps_collect {α : Type} {x : Operation α} (hx : Keeps R x) (n : Nat) :
    ∀ done : Array α, Keeps R (collect x n done) := by
  induction n with
  | zero => exact fun done => .pure done
  | succ n ih =>
    intro done
    unfold collect
    exact .bind hx fun a => ih _

/-! ### What loading finds -/

section Finding

variable {w w' : World} {c component : ClassId} {type : FieldType}

theorem loadScalar_eq_ok {name : String} :
    loadScalar name w = .ok c w' ↔ w.registry.get? (.scalar name) = some c ∧ w = w' := by
  unfold loadScalar
  cases w.registry.get? (.scalar name) <;> simp

theorem loadArray_eq (type : FieldType) (w : World) :
    loadArray type w =
      match w.registry.get? (.array type) with
      | some k => .ok k w
      | none => (typeClass type >>= makeArrayClass type) w := by
  cases type <;> unfold loadArray <;> rw [get_bind] <;> split <;> rename_i found <;>
    rw [found] <;> rfl

theorem registry_markInitialized (w : World) (c : ClassId) :
    (w.markInitialized c).registry = w.registry := by
  unfold markInitialized
  split <;> rfl

theorem finds_makeArrayClass (h : makeArrayClass type component w = .ok c w') :
    w'.Finds (.array type) c := by
  obtain ⟨object, w₁, -, h⟩ := bind_eq_ok.1 h
  cases h
  unfold Finds
  rw [registry_markInitialized]
  exact FiniteMap.get?_insert_self _ _ _

theorem finds_typeClass (h : typeClass type w = .ok c w') : w'.Finds type c := by
  cases type with
  | primitive p =>
    change primitiveClass p w = .ok c w' at h
    unfold primitiveClass at h
    split at h
    · rename_i found
      cases h
      exact found
    · cases h
      exact FiniteMap.get?_insert_self _ _ _
  | object name =>
    obtain ⟨found, rfl⟩ := loadScalar_eq_ok.1 h
    exact found
  | array type =>
    change loadArray type w = .ok c w' at h
    rw [loadArray_eq] at h
    split at h
    · rename_i found
      cases h
      exact found
    · obtain ⟨component, w₁, -, made⟩ := bind_eq_ok.1 h
      exact finds_makeArrayClass made

theorem registered_loadClass {name : ClassName} (h : loadClass name w = .ok c w') :
    w'.registry.get? name = some c := by
  cases name with
  | scalar name => exact finds_typeClass (show typeClass (.object name) w = .ok c w' from h)
  | array type => exact finds_typeClass (show typeClass (.array type) w = .ok c w' from h)

/-- The name leads to the same class, if to any. -/
def SameEntry (name : ClassName) (w w' : World) : Prop :=
  w'.registry.get? name = w.registry.get? name

instance (name : ClassName) : IsPreorder World (SameEntry name) where
  refl _ := rfl
  trans _ _ _ h h' := h'.trans h

theorem sameEntry_makeArrayClass {other : FieldType} (distinct : type ≠ other) (k : ClassId) :
    Keeps (SameEntry (.array type)) (makeArrayClass other k) := by
  unfold makeArrayClass
  refine .bind (keeps_loadScalar _) fun object w => ?_
  have different : ClassName.array type ≠ .array other := by
    rintro ⟨⟩
    exact distinct rfl
  change (World.markInitialized _ _).registry.get? _ = _
  rw [registry_markInitialized]
  exact FiniteMap.get?_insert_ne _ different _

/-- A type is no part of a type that is not nested deeper, so loading that one registers no array
class of it. -/
theorem sameEntry_typeClass {other : FieldType} (shallow : other.depth ≤ type.depth) :
    Keeps (SameEntry (.array type)) (typeClass other) := by
  induction other with
  | primitive p =>
    intro w
    change SameEntry _ w (endState (primitiveClass p w))
    unfold primitiveClass
    split <;> rfl
  | object name => exact keeps_loadScalar name
  | array other ih =>
    have deeper : other.depth < type.depth := shallow
    intro w
    change SameEntry _ w (endState (loadArray other w))
    rw [loadArray_eq]
    split
    · rfl
    · refine Keeps.bind (ih (Nat.le_of_lt deeper)) (sameEntry_makeArrayClass ?_) w
      rintro rfl
      exact Nat.lt_irrefl _ deeper

end Finding

/-! ### Loading and initialization -/

section Loading

variable (hR : ToleratesLoading R)
include hR

theorem keeps_primitiveClass (p : Primitive) : Keeps R (primitiveClass p) := by
  intro w
  unfold primitiveClass
  split
  · exact refl_of R w
  · exact hR.primitive w p

theorem relates_makeArrayClass {w : World} {type : FieldType} {component : ClassId}
    (components : w.Finds type component) (new : w.registry.get? (.array type) = none) :
    R w (endState (makeArrayClass type component w)) := by
  change R w (endState (EStateM.bind (loadScalar "java/lang/Object") _ w))
  unfold EStateM.bind loadScalar
  cases found : w.registry.get? (.scalar "java/lang/Object") with
  | none => exact refl_of R w
  | some object => exact hR.array w type component _ object found components new

theorem keeps_typeClass (type : FieldType) : Keeps R (typeClass type) := by
  induction type with
  | primitive p => exact keeps_primitiveClass hR p
  | object name => exact keeps_loadScalar name
  | array type ih =>
    intro w
    change R w (endState (loadArray type w))
    rw [loadArray_eq]
    cases unknown : w.registry.get? (.array type) with
    | some k => exact refl_of R w
    | none =>
      refine Keeps.bind_of_ok (ih w) fun k w₁ loaded => ?_
      have same := sameEntry_typeClass (Nat.le_refl type.depth) w
      rw [loaded] at same
      exact relates_makeArrayClass hR (finds_typeClass loaded) (same.trans unknown)

theorem keeps_loadArray (type : FieldType) : Keeps R (loadArray type) :=
  keeps_typeClass hR (.array type)

theorem keeps_loadClass (name : ClassName) : Keeps R (loadClass name) := by
  cases name with
  | scalar name => exact keeps_loadScalar name
  | array type => exact keeps_loadArray hR type

theorem keeps_resolveStatic (r : FieldReference) : Keeps R (resolveStatic r) := by
  unfold resolveStatic
  refine .bind (keeps_loadClass hR _) fun c => ?_
  refine .bind .get fun w => ?_
  split
  · exact .pure _
  · exact .throw _

end Loading

/-- The search for the next initializer marks the classes it passes, each when it is due. -/
theorem relates_nextInitializer (hR : ToleratesMarks R) {w : World} {pending : List ClassId}
    (due : w.Due pending) :
    R w (endState (nextInitializer pending w)) := by
  induction pending generalizing w with
  | nil => exact refl_of R w
  | cons c rest ih =>
    unfold nextInitializer
    rw [get_bind]
    cases undeclared : w.classes.declared? .initializer c with
    | some m => exact refl_of R w
    | none => exact trans_of R (hR.marked w c undeclared due.1) (ih due.2)

/-! ### Classes that stay where they are found -/

def SameScalars (w w' : World) : Prop :=
  ∀ name, w'.registry.get? (.scalar name) = w.registry.get? (.scalar name)

instance : IsPreorder World SameScalars where
  refl _ _ := rfl
  trans _ _ _ h h' name := (h' name).trans (h name)

theorem toleratesLoading_sameScalars : ToleratesLoading SameScalars where
  marked w c _ _ name := by rw [registry_markInitialized]
  primitive _ _ _ := rfl
  array w type component flags object _ _ _ name := by
    have other : ClassName.scalar name ≠ .array type := fun same => nomatch same
    rw [registry_markInitialized]
    exact FiniteMap.get?_insert_ne _ other _

theorem toleratesAllocation_sameScalars : ToleratesAllocation SameScalars :=
  { toleratesLoading_sameScalars with
    object := fun _ _ _ _ _ _ _ => rfl
    classObject := fun _ _ _ _ _ _ _ => rfl
    primitives := fun _ _ _ _ _ => rfl
    nulls := fun _ _ _ _ _ _ => rfl }

def SameRegistry (w w' : World) : Prop := w'.registry = w.registry

instance : IsPreorder World SameRegistry where
  refl _ := rfl
  trans _ _ _ h h' := h'.trans h

theorem toleratesMarks_sameRegistry : ToleratesMarks SameRegistry where
  marked w c _ _ := registry_markInitialized w c

/-- The worlds differ at most in their classes and in which of these are initialized. -/
structure SameContents (w w' : World) : Prop where
  heap : w'.heap = w.heap
  statics : w'.statics = w.statics
  classObjects : w'.classObjects = w.classObjects
  strings : w'.strings = w.strings
  console : w'.console = w.console
  clock : w'.clock = w.clock

instance : IsPreorder World SameContents where
  refl _ := ⟨rfl, rfl, rfl, rfl, rfl, rfl⟩
  trans _ _ _ h h' := ⟨h'.heap.trans h.heap, h'.statics.trans h.statics,
    h'.classObjects.trans h.classObjects, h'.strings.trans h.strings, h'.console.trans h.console,
    h'.clock.trans h.clock⟩

theorem sameContents_markInitialized (w : World) (c : ClassId) :
    w.SameContents (w.markInitialized c) := by
  unfold markInitialized
  split <;> exact ⟨rfl, rfl, rfl, rfl, rfl, rfl⟩

theorem toleratesLoading_sameContents : ToleratesLoading SameContents where
  primitive _ _ := ⟨rfl, rfl, rfl, rfl, rfl, rfl⟩
  array _ _ _ _ _ _ _ _ :=
    trans_of _ ⟨rfl, rfl, rfl, rfl, rfl, rfl⟩ (sameContents_markInitialized _ _)
  marked w c _ _ := w.sameContents_markInitialized c

theorem sameContents_of_loadClass {name : ClassName} {c : ClassId} {w w' : World}
    (loaded : loadClass name w = .ok c w') : w.SameContents w' := by
  have same := keeps_loadClass toleratesLoading_sameContents name w
  rwa [loaded] at same

/-! ### Allocation -/

section Allocation

variable (hR : ToleratesAllocation R)
include hR

omit [IsPreorder World R] in
theorem relates_newObject {w : World} {name : ClassName} {c : ClassId}
    (found : w.registry.get? name = some c) : R w (endState (newObject c w)) :=
  hR.object w name c _ found (Fields.isPlain_initial _)

theorem keeps_newStringOfUnits (units : List UInt16) : Keeps R (newStringOfUnits units) := by
  intro w
  unfold newStringOfUnits
  refine Keeps.bind_of_ok (keeps_loadScalar _ w) fun owner w₁ known => ?_
  refine Keeps.bind_of_ok (keeps_loadArray hR.loading _ w₁) fun charsClass w₂ loaded => ?_
  have found := finds_typeClass (show typeClass (.array (.primitive .char)) w₁ = _ from loaded)
  refine Keeps.bind_of_ok (hR.primitives w₂ charsClass (.ofUnits units) found)
    fun chars w₃ placed => ?_
  rw [get_bind]
  split
  · have plain := (Fields.isPlain_initial (w₃.classes.instanceFields owner)).insert
      (Value.isPlain_reference chars) "value"
    refine hR.object w₃ stringName owner _ ?_ plain
    have same := keeps_loadArray toleratesLoading_sameScalars (.primitive .char) w₁
    rw [loaded] at same
    cases placed
    obtain ⟨found, rfl⟩ := loadScalar_eq_ok.1 known
    exact (same _).trans found
  · exact refl_of R w₃

theorem keeps_newString (text : String) : Keeps R (newString text) :=
  keeps_newStringOfUnits hR _

theorem keeps_newStrings (texts : List String) : Keeps R (newStrings texts) := by
  induction texts with
  | nil => exact .pure []
  | cons text rest ih =>
    unfold newStrings
    exact .bind (keeps_newString hR text) fun r => .bind ih fun rest => .pure _

theorem keeps_newPrimitiveArray (p : Primitive) (length : Int32) :
    Keeps R (newPrimitiveArray p length) := by
  intro w
  unfold newPrimitiveArray
  refine Keeps.bind_of_ok (keeps_loadArray hR.loading _ w) fun c w₁ loaded => ?_
  have found := finds_typeClass (show typeClass (.array (.primitive p)) w = _ from loaded)
  exact Keeps.bind_ofExcept fun n _ => hR.primitives w₁ c (.zeros p n) found

theorem relates_newReferenceArray {w : World} {type : FieldType} {c : ClassId}
    (found : w.Finds (.array type) c) (length : Int32) :
    R w (endState (newReferenceArray c length w)) := by
  unfold newReferenceArray
  exact Keeps.bind_ofExcept fun n _ => hR.nulls w type c n found

end Allocation

/-! ### Class objects, strings and constants -/

/-- What the making of one class object keeps is kept when a class object is asked for. -/
theorem keeps_classObject_of (made : ∀ c component, Keeps R (makeClassObject c component))
    (c : ClassId) : Keeps R (classObject c) := by
  have chain (components : List ClassId) : Keeps R (classObjectOf components) := by
    induction components with
    | nil => exact .pure none
    | cons c components ih =>
      unfold classObjectOf
      refine .bind .get fun w => ?_
      split
      · exact .pure _
      · exact .bind ih fun component => .bind (made c component) fun r => .pure _
  unfold classObject
  refine .bind .get fun w => .bind (chain _) fun r => ?_
  split <;> exact .pure _

section Creation

variable (hR : ToleratesCreation R)
include hR

theorem keeps_makeClassObject (c : ClassId) (component : Option Reference) :
    Keeps R (makeClassObject c component) := by
  intro w
  unfold makeClassObject
  refine Keeps.bind_of_ok (keeps_loadScalar _ w) fun owner w₁ known => ?_
  obtain ⟨found, rfl⟩ := loadScalar_eq_ok.1 known
  refine Keeps.bind_from (hR.classObject w classClassName owner c component found) fun r => ?_
  exact .bind (.modify fun w => hR.classObjects w _) fun _ => .pure r

theorem keeps_classObject (c : ClassId) : Keeps R (classObject c) :=
  keeps_classObject_of (keeps_makeClassObject hR) c

theorem keeps_internString (text : String) : Keeps R (internString text) := by
  unfold internString
  refine .bind .get fun w => ?_
  split
  · exact .pure _
  · refine .bind (keeps_newString hR.allocation text) fun r => ?_
    exact .bind (.modify fun w => hR.strings w _) fun _ => .pure r

omit [IsPreorder World R] hR in
theorem gives_constantValue (index : UInt16) (constant : Option Constant) :
    Gives Value.IsPlain (constantValue index constant) := by
  unfold constantValue
  split
  · exact .pure (Value.isPlain_int _)
  · exact .pure (Value.isPlain_float _)
  · exact .bind fun r => .pure (Value.isPlain_reference r)
  · exact .bind fun c => .bind fun r => .pure (Value.isPlain_reference r)
  · exact .throw _

theorem keeps_constantValue (index : UInt16) (constant : Option Constant) :
    Keeps R (constantValue index constant) := by
  unfold constantValue
  split
  · exact .pure _
  · exact .pure _
  · exact .bind (keeps_internString hR _) fun r => .pure _
  · refine .bind (keeps_loadClass hR.loading _) fun c => ?_
    exact .bind (keeps_classObject hR c) fun r => .pure _
  · exact .throw _

end Creation

variable (hR : Tolerated R)
include hR

/-! ### Fields and arrays -/

theorem relates_writeField {w : World} {r : Reference} {c : ClassId} {fields : Fields}
    (here : w.object? r = some (c, fields)) (name : String) {v : Value} (plain : v.IsPlain) :
    R w (endState (writeField r c fields name v w)) := by
  unfold writeField
  split
  · exact hR.field w r c fields name v here plain
  · exact refl_of R w

omit [IsPreorder World R] hR in
theorem allOrNothing_writeField (r : Reference) (c : ClassId) (fields : Fields) (name : String)
    (v : Value) : AllOrNothing (writeField r c fields name v) := by
  intro w e w' failed
  unfold writeField at failed
  split at failed
  · cases failed
  · cases failed
    rfl

theorem keeps_assignStatic (c : ClassId) (r : FieldReference) {v : Value} (plain : v.IsPlain) :
    Keeps R (assignStatic c r v) := by
  unfold assignStatic
  refine .reading fun w => ?_
  unfold putStatic?
  split
  · rename_i present
    exact hR.statics w _ v present plain
  · exact refl_of R w

omit [IsPreorder World R] hR in
theorem allOrNothing_assignStatic (c : ClassId) (r : FieldReference) (v : Value) :
    AllOrNothing (assignStatic c r v) := by
  unfold assignStatic
  refine .reading fun w => ?_
  split
  · intro w₁ e w' failed
    cases failed
  · intro w₁ e w' failed
    cases failed
    rfl

theorem keeps_writeScalar (r : Reference) (index : Int32) (s : Scalar) :
    Keeps R (writeScalar r index s) := by
  unfold writeScalar
  refine .bind .get fun w => ?_
  refine .bind (.ofExcept _) fun found => ?_
  exact .bind (.ofExcept _) fun i w => hR.scalar w r i s

omit [IsPreorder World R] hR in
theorem allOrNothing_modifyEntity (r : Reference) (f : Entity → Entity) :
    AllOrNothing (modifyEntity r f) := by
  intro w e w' failed
  cases failed

omit [IsPreorder World R] hR in
theorem allOrNothing_writeScalar (r : Reference) (index : Int32) (s : Scalar) :
    AllOrNothing (writeScalar r index s) := by
  unfold writeScalar
  refine .reading fun w => .bind_ofExcept fun found => .bind_ofExcept fun i => ?_
  exact allOrNothing_modifyEntity r _

omit [IsPreorder World R] hR in
theorem allOrNothing_writeReference (r : Reference) (index : Int32) (element : Reference) :
    AllOrNothing (writeReference r index element) := by
  unfold writeReference
  refine .reading fun w => .bind_ofExcept fun found => .bind_ofExcept fun i => ?_
  exact allOrNothing_modifyEntity r _

theorem relates_writeReference {w : World} {r element : Reference} {c : ClassId}
    {elements : Array Reference} (here : w.referenceArray r = .ok (c, elements))
    (fits : w.storable c element = true) (index : Int32) :
    R w (endState (writeReference r index element w)) := by
  have found : w.heap.get? r = some (.references c elements) := by
    unfold referenceArray at here
    split at here <;> cases here
    assumption
  unfold writeReference
  rw [get_bind]
  refine Keeps.bind_ofExcept fun _ _ => Keeps.bind_ofExcept fun i _ => ?_
  rw [Entity.setReference_eq]
  exact hR.references w r c elements i [element] found (by simpa using fits)

/-! ### Native methods -/

theorem keeps_writeConsole (descriptor : Int32) (text : String) :
    Keeps R (writeConsole descriptor text) := by
  intro w
  unfold writeConsole
  split
  · exact hR.console w _
  · exact refl_of R w

theorem keeps_arrayCopy (source : Reference) (sourcePosition : Int32) (target : Reference)
    (targetPosition length : Int32) :
    Keeps R (arrayCopy source sourcePosition target targetPosition length) := by
  unfold arrayCopy
  refine .reading_at fun w => ?_
  split
  · rintro _ rfl
    exact refl_of R _
  · rintro _ rfl
    exact refl_of R _
  · rintro w rfl
    split
    · exact Keeps.bind_ofExcept fun ranges _ => hR.scalars w _ _ _
    · exact refl_of R w
  · rename_i s c t _ here
    rintro w rfl
    refine Keeps.bind_ofExcept fun ranges _ => ?_
    have fitting (range : List Reference) :
        ∀ x ∈ range.takeWhile (w.storable c), w.storable c x = true :=
      List.all_eq_true.1 List.all_takeWhile
    refine Keeps.bind_from (hR.references w target c t _ _ here (fitting _)) fun _ => ?_
    split
    · exact .pure _
    · exact .bind .get fun w => .throw _
  · rintro _ rfl
    exact refl_of R _

omit hR in
/-- Arrays of arrays are made of arrays. -/
theorem keeps_newNestedArray (hR : ToleratesLoading R)
    (primitives : ∀ c storage, Keeps R (allocate (.primitives c storage)))
    (references : ∀ c elements, Keeps R (allocate (.references c elements)))
    (further : List Nat) :
    ∀ (c : ClassId) (length : Nat), Keeps R (newNestedArray c length further) := by
  induction further with
  | nil =>
    intro c length
    unfold newNestedArray
    refine .bind .get fun w => ?_
    split
    · exact .throw _
    · exact primitives _ _
    · exact references _ _
  | cons next further ih =>
    intro c length
    unfold newNestedArray
    refine .bind .get fun w => ?_
    split
    · exact .throw _
    · exact primitives _ _
    · refine .bind (keeps_typeClass hR _) fun component => ?_
      exact .bind (keeps_collect (ih component next) length _) fun elements => references _ _

omit hR in
/-- A trace is made of strings, an array of them, and a write into the throwable. -/
theorem keeps_fillInStackTrace (hR : ToleratesAllocation R)
    (references : ∀ c elements, Keeps R (allocate (.references c elements)))
    (field : ∀ r c fields name {v : Value}, v.IsPlain → ∀ {w w' : World},
      w.object? r = some (c, fields) → R w w' → R w (endState (writeField r c fields name v w')))
    (frames : List Frame) (throwable : Reference) :
    Keeps R (fillInStackTrace frames throwable) := by
  intro w
  unfold fillInStackTrace
  rw [get_bind]
  cases here : w.object? throwable with
  | none => exact refl_of R w
  | some object =>
    obtain ⟨c, fields⟩ := object
    dsimp only
    split
    · have related {α : Type} {x : Operation α} (hx : Keeps R x) :
          Keeps (fun w₁ w' => R w w₁ → R w w') x := fun w₁ h => trans_of R h (hx w₁)
      refine Keeps.bind (related (keeps_newStrings hR _)) (fun elements => ?_) w (refl_of R w)
      refine .bind (related (keeps_loadArray hR.loading _)) fun arrayClass => ?_
      refine .bind (related (references _ _)) fun trace w' h => ?_
      exact field throwable c fields "stackTrace" (Value.isPlain_reference trace) here h
    · exact refl_of R w

omit hR in
/-- A relation that does not look at the heap tolerates whatever is done to it. -/
theorem ToleratesHeap.tolerated (hR : ToleratesHeap R) : Tolerated R := by
  have allocate (e : Entity) : Keeps R (allocate e) := fun w => hR.heap w _
  have allocation : ToleratesAllocation R :=
    { hR.loading with
      object := fun w _ c fields _ _ => allocate _ w
      classObject := fun w _ c k component _ => allocate _ w
      primitives := fun w c storage _ => allocate _ w
      nulls := fun w _ c length _ => allocate _ w }
  refine { allocation with
    classObjects := hR.classObjects
    strings := hR.strings
    nested := fun w _ c length further _ =>
      keeps_newNestedArray hR.loading (fun _ _ => allocate _) (fun _ _ => allocate _) further c
        length w
    statics := fun w key v present _ => hR.statics w key v present
    console := hR.console
    trace := keeps_fillInStackTrace allocation (fun _ _ => allocate _) ?_
    field := fun w r c _ _ _ _ _ => hR.heap w _
    scalar := fun w r i s => hR.heap w _
    scalars := fun w r i source => hR.heap w _
    references := fun w r c elements i source _ _ => hR.heap w _ }
  intro r c fields name v _ w w' _ related
  unfold writeField
  split
  · exact trans_of R related (hR.heap w' _)
  · exact related

end World

section Natives

variable {R : World → World → Prop} [IsPreorder World R] (hR : World.Tolerated R)
include hR

theorem Hook.keeps_run (h : Hook) (frames : List Frame) (arguments : List NativeValue) :
    Keeps R (h.run frames arguments) := by
  cases h with
  | print newline =>
    refine .bind (.ofExcept _) fun stream => ?_
    refine .bind .get fun w => ?_
    refine .bind (.ofExcept _) fun descriptor => ?_
    exact .bind (World.keeps_writeConsole hR _ _) fun _ => .pure _
  | arrayCopy =>
    refine .bind (.ofExcept _) fun source => ?_
    refine .bind (.ofExcept _) fun sourcePosition => ?_
    refine .bind (.ofExcept _) fun target => ?_
    refine .bind (.ofExcept _) fun targetPosition => ?_
    refine .bind (.ofExcept _) fun length => ?_
    exact .bind (World.keeps_arrayCopy hR _ _ _ _ _) fun _ => .pure _
  | fillInStackTrace =>
    refine .bind (.ofExcept _) fun throwable => ?_
    exact .bind (hR.trace frames throwable) fun _ => .pure _
  | getComponentType =>
    refine .bind (.ofExcept _) fun r => ?_
    refine .bind .get fun w => ?_
    split
    · exact .pure _
    · exact .throw _

/-- Every registered method keeps the relation. -/
def NativeRegistry.Respects (natives : NativeRegistry) (R : World → World → Prop) : Prop :=
  ∀ key implementation, natives.methods.get? key = some implementation →
    ∀ arguments, Keeps R (implementation arguments)

theorem NativeCall.keeps_result (type : Option FieldType) (v : Option NativeValue) :
    Keeps R (NativeCall.result type v) := by
  unfold NativeCall.result
  split
  · exact .pure _
  · exact .pure _
  · exact .pure _
  · exact .bind (World.keeps_newString hR.allocation _) fun r => .pure _
  · exact .throw _

omit [IsPreorder World R] hR in
theorem NativeCall.gives_run (natives : NativeRegistry) (frames : List Frame) (c : ClassId)
    (m : Method) (values : List Value) :
    Gives (∀ v ∈ ·, v.IsPlain) (NativeCall.run natives frames c m values) := by
  unfold NativeCall.run
  refine .bind fun locals => .bind fun arguments => .bind fun v => ?_
  unfold NativeCall.result
  split
  · exact .pure fun _ none => nomatch none
  · refine .pure fun v given => ?_
    cases given
    exact Value.isPlain_widen _
  · refine .pure fun v given => ?_
    cases given
    exact Value.isPlain_reference _
  · refine .bind fun r => .pure fun v given => ?_
    cases given
    exact Value.isPlain_reference r
  · exact .throw _

theorem NativeCall.keeps_run {natives : NativeRegistry} (hn : natives.Respects R)
    (frames : List Frame) (c : ClassId) (m : Method) (values : List Value) :
    Keeps R (NativeCall.run natives frames c m values) := by
  unfold NativeCall.run
  refine .bind (.ofExcept _) fun locals => ?_
  refine .bind (.ofExcept _) fun arguments => ?_
  refine .bind ?_ fun v => NativeCall.keeps_result hR _ v
  unfold NativeCall.perform
  refine .bind .get fun w => ?_
  dsimp only
  split
  · exact Hook.keeps_run hR _ _ _
  · split
    · rename_i implementation found
      exact hn _ _ found arguments
    · exact .throw _

end Natives

def World.Any (_ _ : World) : Prop := True

instance : IsPreorder World World.Any where
  refl _ := trivial
  trans _ _ _ _ _ := trivial

theorem World.toleratesHeap_any : ToleratesHeap Any where
  primitive _ _ := trivial
  array _ _ _ _ _ _ _ _ := trivial
  marked _ _ _ _ := trivial
  heap _ _ := trivial
  statics _ _ _ _ := trivial
  classObjects _ _ := trivial
  strings _ _ := trivial
  console _ _ := trivial

theorem World.tolerated_any : Tolerated Any := toleratesHeap_any.tolerated

theorem NativeRegistry.respects_any (natives : NativeRegistry) : natives.Respects World.Any :=
  fun _ _ _ _ _ => trivial

namespace NativeRegistry

variable {R : World → World → Prop}

theorem respects_empty : empty.Respects R := by
  intro key implementation h
  simp [empty] at h

theorem Respects.register {natives : NativeRegistry} (hn : natives.Respects R)
    {m : NativeMethod} (hm : ∀ arguments, Keeps R (m arguments))
    (className name descriptor : String) :
    (natives.register className name descriptor m).Respects R := by
  intro key implementation h
  unfold NativeRegistry.register at h
  rw [FiniteMap.get?_insert] at h
  split at h
  · cases h
    exact hm
  · exact hn key implementation h

theorem keeps_intern [IsPreorder World R] (hR : World.Tolerated R)
    (arguments : List NativeValue) : Keeps R (Intrinsics.intern arguments) := by
  unfold Intrinsics.intern
  refine .bind (.ofExcept _) fun r => ?_
  refine .ite (.bind (.throw _) fun _ => ?_) ?_
  all_goals
    refine .bind .get fun w => ?_
    split
    · exact .bind (World.keeps_internString hR.creation _) fun r => .pure _
    · exact .throw _

theorem keeps_getClass [IsPreorder World R] (hR : World.Tolerated R)
    (arguments : List NativeValue) : Keeps R (Intrinsics.getClass arguments) := by
  unfold Intrinsics.getClass
  refine .bind (.ofExcept _) fun r => ?_
  refine .bind .get fun w => ?_
  split
  · exact .bind (World.keeps_classObject hR.creation _) fun r => .pure _
  · exact .throw _

theorem respects_standard [IsPreorder World R] (hR : World.Tolerated R) :
    standard.Respects R := by
  have nothing (arguments) : Keeps R (Intrinsics.nothing arguments) := .pure none
  have timed (v : World → Option NativeValue) (arguments : List NativeValue) :
      Keeps R ((fun _ => do return v (← get) : NativeMethod) arguments) :=
    .bind .get fun w => .pure _
  have computed {α : Type} (index : Nat) (as : NativeValue → Except Error α)
      (v : α → Option NativeValue) (arguments : List NativeValue) :
      Keeps R ((fun arguments => do return v (← Intrinsics.read arguments index as) :
        NativeMethod) arguments) :=
    .bind (.ofExcept _) fun a => .pure _
  have pow (arguments) : Keeps R (Intrinsics.pow arguments) :=
    .bind (.ofExcept _) fun base => .bind (.ofExcept _) fun exponent => .pure _
  exact respects_empty
    |>.register nothing _ _ _
    |>.register nothing _ _ _
    |>.register nothing _ _ _
    |>.register (computed _ _ _) _ _ _
    |>.register (keeps_getClass hR) _ _ _
    |>.register (computed _ _ _) _ _ _
    |>.register (timed _) _ _ _
    |>.register (timed _) _ _ _
    |>.register (keeps_intern hR) _ _ _
    |>.register nothing _ _ _
    |>.register (computed _ _ _) _ _ _
    |>.register (computed _ _ _) _ _ _
    |>.register (computed _ _ _) _ _ _
    |>.register (computed _ _ _) _ _ _
    |>.register (computed _ _ _) _ _ _
    |>.register pow _ _ _

end NativeRegistry

end JavaMachine
