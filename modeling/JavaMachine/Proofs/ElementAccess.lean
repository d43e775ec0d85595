import JavaMachine.Proofs.ArgumentPassing
import JavaMachine.Proofs.ArrayCopies
import JavaMachine.Proofs.KnownOperands

/-!
# Accesses to array elements

A store puts a value into one element of an array, reduced to the type of the elements, and a load
at the same index gives it back. No other element changes and no other array, nor does the length.
An access without an array, to an array of another type or with an index outside of it fails and
changes no element at all, and fails in this order.
-/
namespace JavaMachine

def InBounds (index : Int32) (length : Nat) : Prop := 0 ≤ index.toInt ∧ index.toInt < length

/-- Accesses of the kind work on arrays of the primitive type. Those to `byte` elements work on
arrays of `boolean` too. -/
def ElementKind.Serves (kind : ElementKind) (p : Primitive) : Prop :=
  kind.primitive? = some p ∨ kind = .byte ∧ p = .boolean

instance (kind : ElementKind) (p : Primitive) : Decidable (kind.Serves p) :=
  inferInstanceAs (Decidable (kind.primitive? = some p ∨ kind = .byte ∧ p = .boolean))

inductive ElementKind.Takes : ElementKind → Value → Prop
  | scalar {kind : ElementKind} {p : Primitive} {v : Value} (primitive : kind.primitive? = some p)
      (represents : v.Represents (.primitive p)) : Takes kind v
  | reference (x : Reference) : Takes .reference (.reference x)

def Element.value : Element → Value
  | .scalar s => s.widen
  | .reference x => .reference x

namespace Entity

/-- Accesses of the kind work on the array. -/
inductive ServedBy : Entity → ElementKind → Prop
  | primitives (c : ClassId) {storage : Storage} {kind : ElementKind}
      (serves : kind.Serves storage.type) : ServedBy (.primitives c storage) kind
  | references (c : ClassId) (elements : Array Reference) :
      ServedBy (.references c elements) .reference

/-- What an element of the array holds of a value: the value as one of the type of the elements. -/
def reduce : Entity → Value → Value
  | primitives _ storage, v => (FieldType.primitive storage.type).reduce v
  | _, v => v

end Entity

namespace World

/-- A store of the kind may put the value into the array. -/
inductive Accepts (w : World) : ElementKind → Entity → Value → Prop
  | scalar {kind : ElementKind} {c : ClassId} {storage : Storage} {v : Value}
      (serves : kind.Serves storage.type) (represents : v.Represents (.primitive storage.type)) :
      Accepts w kind (.primitives c storage) v
  | reference {c : ClassId} {elements : Array Reference} {x : Reference} (allowed : w.Allows c x) :
      Accepts w .reference (.references c elements) (.reference x)

/-- There is no array, or it has elements of another type than the accesses are for, or the index
is outside of it. -/
inductive Refuses (w : World) (kind : ElementKind) (r : Reference) (index : Int32) : Error → Prop
  | missing (null : r = .null) : Refuses w kind r index .nullPointer
  | otherType {p : Primitive} {c : ClassId} {storage : Storage}
      (here : w.heap.get? r = some (.primitives c storage)) (primitive : kind.primitive? = some p)
      (other : ¬ kind.Serves storage.type) :
      Refuses w kind r index (.typeMismatch (p.keyword ++ " array") (.arrayOf storage.type))
  | ofReferences {p : Primitive} {c : ClassId} {elements : Array Reference}
      (here : w.heap.get? r = some (.references c elements))
      (primitive : kind.primitive? = some p) :
      Refuses w kind r index (.typeMismatch "array of primitives" (.reference r))
  | outside {e : Entity} {n : Nat} (here : w.heap.get? r = some e) (served : e.ServedBy kind)
      (length : e.length? = some n) (outside : ¬ InBounds index n) :
      Refuses w kind r index (.arrayIndexOutOfBounds index n)

/-- The second world is the first one with one element of one array replaced. -/
structure Written (w : World) (r : Reference) (i : Nat) (e : Element) (w' : World) : Prop where
  elements : ∀ j, w'.element? r j = if j = i then some e else w.element? r j
  shape : ∀ t, w.heap.get? r = some t →
    ∃ t', w'.heap.get? r = some t' ∧ t.SameShape t' ∧ t.Compatible t'
  others : ∀ x, x ≠ r → w'.heap.get? x = w.heap.get? x
  rest : w' = { w with heap := w'.heap }

end World

/-! ### Types of elements -/

namespace ElementKind

variable {kind : ElementKind} {p q : Primitive} {v : Value}

theorem exists_serves (p : Primitive) : ∃ kind : ElementKind, kind.Serves p := by
  cases p with
  | boolean => exact ⟨.byte, .inr ⟨rfl, rfl⟩⟩
  | byte => exact ⟨.byte, .inl rfl⟩
  | char => exact ⟨.char, .inl rfl⟩
  | short => exact ⟨.short, .inl rfl⟩
  | int => exact ⟨.int, .inl rfl⟩
  | long => exact ⟨.long, .inl rfl⟩
  | float => exact ⟨.float, .inl rfl⟩
  | double => exact ⟨.double, .inl rfl⟩

theorem Serves.primitive (h : kind.Serves q) : ∃ p, kind.primitive? = some p := by
  rcases h with same | ⟨rfl, -⟩
  · exact ⟨q, same⟩
  · exact ⟨.byte, rfl⟩

theorem Serves.accessType (h : kind.Serves q) (primitive : kind.primitive? = some p) :
    accessType p q = q := by
  rcases h with same | ⟨rfl, rfl⟩
  · cases primitive.symm.trans same
    unfold JavaMachine.accessType
    split
    · rename_i both
      rw [both.2]
    · rfl
  · cases primitive
    rfl

theorem Serves.represents (h : kind.Serves q) (primitive : kind.primitive? = some p)
    (represents : v.Represents (.primitive p)) : v.Represents (.primitive q) := by
  rcases h with same | ⟨rfl, rfl⟩
  · cases primitive.symm.trans same
    exact represents
  · cases primitive
    cases represents with
    | byte n => exact .boolean n

theorem accessType_of_not_serves (h : ¬ kind.Serves q) (primitive : kind.primitive? = some p) :
    accessType p q = p ∧ q ≠ p := by
  refine ⟨if_neg ?_, ?_⟩
  · rintro ⟨rfl, rfl⟩
    cases kind <;> cases primitive
    exact h (.inr ⟨rfl, rfl⟩)
  · rintro rfl
    exact h (.inl primitive)

end ElementKind

/-- To a type of the values that it represents a scalar is narrowed by reducing its value. -/
theorem Scalar.widen_narrowTo {s : Scalar} {q : Primitive}
    (represents : s.widen.Represents (.primitive q)) :
    (s.narrowTo q).type = q ∧ (s.narrowTo q).widen = (FieldType.primitive q).reduce s.widen := by
  obtain ⟨t, read, type, widened⟩ := represents.ofValue?
  unfold Scalar.narrowTo
  rw [read]
  exact ⟨type, widened⟩

theorem Scalar.type_narrowTo_self (s : Scalar) : (s.narrowTo s.type).type = s.type :=
  (Scalar.widen_narrowTo s.represents_widen).1

theorem boolean_reduce_byte (n : Int32) :
    Primitive.boolean.reduce (Primitive.byte.reduce n) = Primitive.boolean.reduce n := by
  simp only [Primitive.reduce]
  rw [toInt_ofInt_of_fits] <;> simp only [Int.bmod] <;> congr 1 <;> omega

namespace ElementKind

variable {kind : ElementKind} {p q : Primitive} {v : Value}

/-- What a store reads off the stack is, in the type of the elements, the value reduced to it. -/
theorem Serves.narrowTo (h : kind.Serves q) (primitive : kind.primitive? = some p)
    (represents : v.Represents (.primitive q)) :
    ∃ s, Scalar.ofValue? p v = some s ∧ (s.narrowTo q).type = q ∧
      (s.narrowTo q).widen = (FieldType.primitive q).reduce v := by
  rcases h with same | ⟨rfl, rfl⟩
  · cases primitive.symm.trans same
    obtain ⟨s, read, type, widened⟩ := represents.ofValue?
    have again : s.widen.Represents (.primitive p) := widened ▸ represents.reduce
    obtain ⟨type', narrowed⟩ := Scalar.widen_narrowTo again
    exact ⟨s, read, type', by rw [narrowed, widened, represents.reduce_reduce]⟩
  · cases primitive
    cases represents with
    | boolean n =>
      obtain ⟨s, read, type, widened⟩ := (Value.Represents.byte n).ofValue?
      have again : s.widen.Represents (.primitive .boolean) := widened ▸ .boolean _
      obtain ⟨type', narrowed⟩ := Scalar.widen_narrowTo again
      refine ⟨s, read, type', ?_⟩
      rw [narrowed, widened]
      exact congrArg Value.int (boolean_reduce_byte n)

end ElementKind

/-! ### Reading and writing one element -/

theorem position?_of_inBounds {index : Int32} {n : Nat} (inside : InBounds index n) :
    position? index n = some index.toInt.toNat :=
  if_pos inside

theorem position?_of_outside {index : Int32} {n : Nat} (outside : ¬ InBounds index n) :
    position? index n = none :=
  if_neg outside

namespace World

variable {w w' : World} {r : Reference} {c : ClassId} {storage : Storage}
  {elements : Array Reference} {index : Int32} {p : Primitive} {s : Scalar} {x : Reference}

theorem primitiveArray_of_primitives (here : w.heap.get? r = some (.primitives c storage)) :
    w.primitiveArray r = .ok (c, storage) := by
  unfold primitiveArray
  rw [here]

theorem elementType_of_primitives (here : w.heap.get? r = some (.primitives c storage)) :
    w.elementType r = .ok storage.type := by
  unfold elementType
  rw [primitiveArray_of_primitives here]
  rfl

theorem primitiveArray_of_references (here : w.heap.get? r = some (.references c elements)) :
    w.primitiveArray r = .error (.typeMismatch "array of primitives" (.reference r)) := by
  unfold primitiveArray
  rw [here]

theorem referenceArray_of_references (here : w.heap.get? r = some (.references c elements)) :
    w.referenceArray r = .ok (c, elements) := by
  unfold referenceArray
  rw [here]

theorem written_of_modify {t : Entity} {f : Entity → Entity} {i : Nat} {e : Element}
    (here : w.heap.get? r = some t) (shape : t.SameShape (f t)) (compatible : t.Compatible (f t))
    (elements : ∀ j, (f t).element? j = if j = i then some e else t.element? j) :
    w.Written r i e { w with heap := w.heap.modify r f } := by
  have changed : (w.heap.modify r f).get? r = some (f t) := by
    rw [Heap.get?_modify, if_pos rfl, here, Option.map_some]
  refine ⟨fun j => ?_, fun t₀ found => ?_, fun x other => ?_, rfl⟩
  · rw [element?_of_get? (w := { w with heap := w.heap.modify r f }) changed,
      element?_of_get? here, elements j]
  · cases here.symm.trans found
    exact ⟨f t, changed, shape, compatible⟩
  · exact (Heap.get?_modify w.heap r x f).trans (if_neg other)

theorem written_scalar {i : Nat} (here : w.heap.get? r = some (.primitives c storage))
    (type : s.type = storage.type) (inside : i < storage.size) :
    w.Written r i (.scalar s) { w with heap := w.heap.modify r (.setScalar i s) } := by
  refine written_of_modify here ⟨rfl, ?_⟩ (.primitives c c ?_) fun j => ?_
  · exact congrArg some (Storage.size_set storage i s)
  · exact (Storage.type_set storage i s).symm
  · have written : (storage.set i s).elements = storage.elements.setIfInBounds i s := by
      unfold Storage.set
      rw [dif_pos type.symm]
    change (storage.set i s).elements[j]?.map Element.scalar = _
    rw [written, Array.getElem?_setIfInBounds]
    by_cases same : j = i
    · subst same
      rw [if_pos rfl, if_pos rfl, if_pos (show j < storage.elements.size from inside)]
      rfl
    · rw [if_neg (Ne.symm same), if_neg same]
      rfl

theorem written_reference {i : Nat} (here : w.heap.get? r = some (.references c elements))
    (inside : i < elements.size) :
    w.Written r i (.reference x) { w with heap := w.heap.modify r (.setReference i x) } := by
  refine written_of_modify here ⟨rfl, ?_⟩ (.references c c elements _) fun j => ?_
  · exact congrArg some Array.size_setIfInBounds
  · change (elements.setIfInBounds i x)[j]?.map Element.reference = _
    rw [Array.getElem?_setIfInBounds]
    by_cases same : j = i
    · subst same
      rw [if_pos rfl, if_pos rfl, if_pos inside]
      rfl
    · rw [if_neg (Ne.symm same), if_neg same]
      rfl

theorem writeScalar_of_primitives (here : w.heap.get? r = some (.primitives c storage)) :
    writeScalar r index s w = (ofExcept (storage.position s.type index) >>= fun i =>
      modifyEntity r (.setScalar i s)) w := by
  unfold writeScalar
  rw [get_bind, primitiveArray_of_primitives here]
  rfl

theorem writeReference_of_references (here : w.heap.get? r = some (.references c elements)) :
    writeReference r index x w = (ofExcept (checkIndex index elements.size) >>= fun i =>
      modifyEntity r (.setReference i x)) w := by
  unfold writeReference
  rw [get_bind, referenceArray_of_references here]
  rfl

/-- What a load of an element of the type comes to, given the array and the index. -/
def loadedScalar (w : World) (p : Primitive) (r : Reference) (index : Int32) :
    Except Error Scalar := do
  let actual ← w.elementType r
  w.readScalar r (accessType p actual) index

/-- What a load of the kind comes to, given the array and the index. -/
def loaded (w : World) (kind : ElementKind) (r : Reference) (index : Int32) : Except Error Value :=
  match kind.primitive? with
  | some p => (w.loadedScalar p r index).map Scalar.widen
  | none => (w.readReference r index).map Value.reference

variable {kind : ElementKind}

theorem loaded_of_primitives (here : w.heap.get? r = some (.primitives c storage))
    (primitive : kind.primitive? = some p) :
    w.loaded kind r index = (storage.read (accessType p storage.type) index).map Scalar.widen := by
  unfold loaded loadedScalar readScalar
  rw [primitive, elementType_of_primitives here, primitiveArray_of_primitives here]
  rfl

theorem loaded_of_references (here : w.heap.get? r = some (.references c elements)) :
    w.loaded .reference r index =
      (checkIndex index elements.size).map fun i => .reference (elements.getD i .null) := by
  have read : w.readReference r index =
      (checkIndex index elements.size).map fun i => elements.getD i .null := by
    unfold readReference
    rw [referenceArray_of_references here]
    rfl
  unfold loaded
  rw [read]
  cases checkIndex index elements.size <;> rfl

theorem loaded_of_element {t : Entity} {n : Nat} {e : Element} (here : w.heap.get? r = some t)
    (served : t.ServedBy kind) (length : t.length? = some n) (inside : InBounds index n)
    (element : t.element? index.toInt.toNat = some e) : w.loaded kind r index = .ok e.value := by
  cases served with
  | @primitives c storage _ serves =>
    obtain ⟨p, primitive⟩ := serves.primitive
    cases length
    obtain ⟨s, at_index, rfl⟩ := Option.map_eq_some_iff.1 element
    have read : storage.read storage.type index = .ok s := by
      unfold Storage.read Storage.position
      rw [if_pos rfl, position?_of_inBounds inside]
      change Except.ok (storage.elements.getD index.toInt.toNat _) = _
      rw [Array.getD_eq_getD_getElem?, at_index]
      rfl
    rw [loaded_of_primitives here primitive, serves.accessType primitive, read]
    rfl
  | references c elements =>
    cases length
    obtain ⟨x, at_index, rfl⟩ := Option.map_eq_some_iff.1 element
    rw [loaded_of_references here]
    unfold checkIndex
    rw [position?_of_inBounds inside]
    change Except.ok (Value.reference (elements.getD index.toInt.toNat _)) = _
    rw [Array.getD_eq_getD_getElem?, at_index]
    rfl

/-- Apart from a missing array, what refuses an access makes a load fail. -/
theorem loaded_of_refuses {e : Error} (refuses : w.Refuses kind r index e) (some : r ≠ .null) :
    w.loaded kind r index = .error e := by
  cases refuses with
  | missing null => exact absurd null some
  | @otherType p c storage here primitive other =>
    obtain ⟨same, apart⟩ := ElementKind.accessType_of_not_serves other primitive
    have read : storage.read p index = .error (storage.mismatch p) := by
      unfold Storage.read Storage.position
      rw [if_neg apart]
      rfl
    rw [loaded_of_primitives here primitive, same, read]
    rfl
  | ofReferences here primitive =>
    unfold loaded loadedScalar elementType
    rw [primitive, primitiveArray_of_references here]
    rfl
  | outside here served length outside =>
    cases served with
    | @primitives c storage _ serves =>
      obtain ⟨p, primitive⟩ := serves.primitive
      cases length
      have read : storage.read storage.type index = .error (storage.outOfBounds index) := by
        unfold Storage.read Storage.position
        rw [if_pos rfl, position?_of_outside outside]
        rfl
      rw [loaded_of_primitives here primitive, serves.accessType primitive, read]
      rfl
    | references c elements =>
      cases length
      rw [loaded_of_references here]
      unfold checkIndex
      rw [position?_of_outside outside]
      rfl

end World

theorem ofExcept_map_bind {ε σ α β γ : Type} (x : Except ε α) (f : α → β) (g : β → EStateM ε σ γ)
    (s : σ) : (ofExcept (x.map f) >>= g) s = (ofExcept x >>= fun v => g (f v)) s := by
  cases x <;> rfl

namespace Execution

variable {a : Activation} {index : Int32} {r : Reference} {rest : List Value} {v : Value}
  {kind : ElementKind} {p : Primitive}

theorem popElement_eq {s : OperandStack} (h : s.WellFormed) (there : r ≠ .null)
    (values : s.values = .int index :: .reference r :: rest) :
    popElement s = .ok (r, index) (s.withValues rest) := by
  unfold popElement
  rw [bind_of_ok (h.popInt_eq values), bind_of_ok ((h.below values).popNonNull_eq there rfl)]
  rfl

theorem popElement_of_null {s : OperandStack} (h : s.WellFormed)
    (values : s.values = .int index :: .reference .null :: rest) :
    popElement s = .error .nullPointer (s.withValues rest) := by
  unfold popElement
  rw [bind_of_ok (h.popInt_eq values), bind_of_error ((h.below values).popNonNull_of_null rfl)]
  rfl

theorem onWorld_congr {α : Type} {x y : World.Operation α} (same : x a.world = y a.world) :
    onWorld x a = onWorld y a := by
  unfold onWorld
  dsimp only
  rw [same]

section Operands

variable (h : a.frame.stack.WellFormed) (there : r ≠ .null)

include h there

theorem loadScalar_eq (p : Primitive)
    (values : a.frame.stack.values = .int index :: .reference r :: rest) :
    loadScalar p a = (ofExcept (a.world.loadedScalar p r index) >>= fun s =>
      onStack (OperandStack.pushScalar s)) (a.withValues rest) := by
  unfold loadScalar
  rw [bind_onStack (popElement_eq h there values)]
  change (ofExcept (a.world.elementType r) >>= _ : Execution Unit) _ = _
  unfold World.loadedScalar
  cases a.world.elementType r <;> rfl

theorem loadReference_eq (values : a.frame.stack.values = .int index :: .reference r :: rest) :
    loadReference a = (ofExcept (a.world.readReference r index) >>= fun x =>
      onStack (OperandStack.push (.reference x))) (a.withValues rest) := by
  unfold loadReference
  rw [bind_onStack (popElement_eq h there values)]
  rfl

theorem arrayLoad_eq (kind : ElementKind)
    (values : a.frame.stack.values = .int index :: .reference r :: rest) :
    arrayLoad kind a = (ofExcept (a.world.loaded kind r index) >>= fun v =>
      onStack (OperandStack.push v)) (a.withValues rest) := by
  unfold arrayLoad World.loaded
  cases kind.primitive? with
  | some p =>
    dsimp only
    rw [loadScalar_eq h there p values, ofExcept_map_bind]
    rfl
  | none =>
    dsimp only
    rw [loadReference_eq h there values, ofExcept_map_bind]

theorem storeScalar_eq {s : Scalar} (read : Scalar.ofValue? p v = some s)
    (values : a.frame.stack.values = v :: .int index :: .reference r :: rest) :
    storeScalar p a = (ofExcept (a.world.elementType r) >>= fun actual =>
      onWorld (World.writeScalar r index (s.narrowTo (accessType p actual))))
        (a.withValues rest) := by
  have popped : OperandStack.popScalar p a.frame.stack =
      .ok s (a.frame.stack.withValues (.int index :: .reference r :: rest)) :=
    h.popAs_eq values read
  have below : (a.withValues (.int index :: .reference r :: rest)).frame.stack.WellFormed :=
    h.below values
  unfold storeScalar
  rw [bind_onStack popped, bind_onStack (popElement_eq below there rfl)]
  rfl

theorem storeScalar_of_primitives {s : Scalar} {c : ClassId} {storage : Storage}
    (here : a.world.heap.get? r = some (.primitives c storage))
    (read : Scalar.ofValue? p v = some s)
    (values : a.frame.stack.values = v :: .int index :: .reference r :: rest) :
    storeScalar p a = onWorld (do
      let i ← ofExcept (storage.position (s.narrowTo (accessType p storage.type)).type index)
      World.modifyEntity r (.setScalar i (s.narrowTo (accessType p storage.type))))
        (a.withValues rest) := by
  rw [storeScalar_eq h there read values, World.elementType_of_primitives here,
    bind_of_ok (ofExcept_eq_ok.2 ⟨rfl, rfl⟩)]
  exact onWorld_congr (World.writeScalar_of_primitives here)

theorem storeReference_eq {x : Reference}
    (values : a.frame.stack.values = .reference x :: .int index :: .reference r :: rest) :
    storeReference a = (do
      let (c, elements) ← ofExcept (a.world.referenceArray r)
      let _ ← ofExcept (World.checkIndex index elements.size)
      ofExcept (a.world.checkStore c x)
      onWorld (World.writeReference r index x)) (a.withValues rest) := by
  have below : (a.withValues (.int index :: .reference r :: rest)).frame.stack.WellFormed :=
    h.below values
  unfold storeReference
  rw [bind_onStack (h.popReference_eq values), bind_onStack (popElement_eq below there rfl)]
  rfl

theorem storeReference_of_references {x : Reference} {c : ClassId} {elements : Array Reference}
    (here : a.world.heap.get? r = some (.references c elements))
    (values : a.frame.stack.values = .reference x :: .int index :: .reference r :: rest) :
    storeReference a = (do
      let i ← ofExcept (World.checkIndex index elements.size)
      ofExcept (a.world.checkStore c x)
      onWorld (World.modifyEntity r (.setReference i x))) (a.withValues rest) := by
  rw [storeReference_eq h there values, World.referenceArray_of_references here]
  change (ofExcept (World.checkIndex index elements.size) >>= fun _ =>
    (ofExcept (a.world.checkStore c x) >>= fun _ =>
      onWorld (World.writeReference r index x) : Execution Unit)) (a.withValues rest) = _
  cases checked : World.checkIndex index elements.size with
  | error e => rfl
  | ok i =>
    cases a.world.checkStore c x with
    | error e => rfl
    | ok _ =>
      simp only [bind_of_ok (ofExcept_eq_ok.2 ⟨rfl, rfl⟩)]
      refine onWorld_congr ((World.writeReference_of_references here).trans ?_)
      rw [checked]
      rfl

end Operands

theorem arrayLoad_of_null (kind : ElementKind) (h : a.frame.stack.WellFormed)
    (values : a.frame.stack.values = .int index :: .reference .null :: rest) :
    arrayLoad kind a = .error .nullPointer (a.withValues rest) := by
  have popped := onStack_of_error (popElement_of_null h values)
  unfold arrayLoad
  cases kind.primitive? with
  | some p =>
    dsimp only
    unfold loadScalar
    rw [bind_of_error popped]
  | none =>
    dsimp only
    unfold loadReference
    rw [bind_of_error popped]

theorem arrayStore_of_null (takes : kind.Takes v) (h : a.frame.stack.WellFormed)
    (values : a.frame.stack.values = v :: .int index :: .reference .null :: rest) :
    arrayStore kind a = .error .nullPointer (a.withValues rest) := by
  have below : (a.withValues (.int index :: .reference .null :: rest)).frame.stack.WellFormed :=
    h.below values
  have missing := onStack_of_error (popElement_of_null below rfl)
  cases takes with
  | @scalar _ p _ primitive represents =>
    obtain ⟨s, read, -⟩ := represents.ofValue?
    have popped : OperandStack.popScalar p a.frame.stack =
        .ok s (a.frame.stack.withValues (.int index :: .reference .null :: rest)) :=
      h.popAs_eq values read
    unfold arrayStore
    rw [primitive]
    dsimp only
    unfold storeScalar
    rw [bind_onStack popped, bind_of_error missing]
    rfl
  | reference x =>
    change storeReference a = _
    unfold storeReference
    rw [bind_onStack (h.popReference_eq values), bind_of_error missing]
    rfl

/-- A value that an array accepts is written at an index of the array, reduced to its type. -/
theorem arrayStore_of_accepts {t : Entity} {n : Nat} (h : a.frame.stack.WellFormed)
    (values : a.frame.stack.values = v :: .int index :: .reference r :: rest)
    (here : a.world.heap.get? r = some t) (accepts : a.world.Accepts kind t v)
    (length : t.length? = some n) (inside : InBounds index n) :
    ∃ e w', e.value = t.reduce v ∧ a.world.Written r index.toInt.toNat e w' ∧
      arrayStore kind a = .ok () { a.withValues rest with world := w' } := by
  have there : r ≠ .null := by
    rintro rfl
    cases here
  have within : index.toInt.toNat < n := by
    unfold InBounds at inside
    omega
  cases accepts with
  | @scalar _ c storage _ serves represents =>
    obtain ⟨p, primitive⟩ := serves.primitive
    obtain ⟨s, read, type, widened⟩ := serves.narrowTo primitive represents
    cases length
    have position : storage.position (s.narrowTo storage.type).type index =
        .ok index.toInt.toNat := by
      unfold Storage.position
      rw [type, if_pos rfl, position?_of_inBounds inside]
    refine ⟨.scalar (s.narrowTo storage.type), _, widened,
      World.written_scalar here type within, ?_⟩
    unfold arrayStore
    rw [primitive]
    dsimp only
    rw [storeScalar_of_primitives h there here read values, serves.accessType primitive, position]
    rfl
  | @reference c elements x allowed =>
    cases length
    have position : World.checkIndex index elements.size = .ok index.toInt.toNat := by
      unfold World.checkIndex
      rw [position?_of_inBounds inside]
    have fits : a.world.checkStore c x = .ok () :=
      World.checkStore_eq_ok.2 (World.storable_iff.2 allowed)
    refine ⟨.reference x, _, rfl, World.written_reference here within, ?_⟩
    change storeReference a = _
    rw [storeReference_of_references h there here values, position, fits]
    rfl

/-- What refuses an access makes a store fail that has taken its operands. -/
theorem arrayStore_of_refuses {e : Error} (takes : kind.Takes v) (h : a.frame.stack.WellFormed)
    (values : a.frame.stack.values = v :: .int index :: .reference r :: rest)
    (refuses : a.world.Refuses kind r index e) :
    arrayStore kind a = .error e (a.withValues rest) := by
  by_cases null : r = .null
  · subst null
    cases refuses with
    | missing => exact arrayStore_of_null takes h values
    | otherType here | ofReferences here | outside here => cases here
  · cases takes with
    | @scalar _ p _ primitive represents =>
      obtain ⟨s, read, type, -⟩ := represents.ofValue?
      unfold arrayStore
      rw [primitive]
      dsimp only
      cases refuses with
      | missing missing => exact absurd missing null
      | @otherType p' c storage here primitive' other =>
        cases primitive.symm.trans primitive'
        obtain ⟨same, apart⟩ := ElementKind.accessType_of_not_serves other primitive
        have narrowed : (s.narrowTo p).type = p := type ▸ s.type_narrowTo_self
        rw [storeScalar_of_primitives h null here read values, same, narrowed]
        unfold Storage.position
        rw [if_neg apart]
        rfl
      | ofReferences here primitive' =>
        cases primitive.symm.trans primitive'
        rw [storeScalar_eq h null read values]
        unfold World.elementType
        rw [World.primitiveArray_of_references here]
        rfl
      | outside here served length outside =>
        cases served with
        | @primitives c storage _ serves =>
          cases length
          obtain ⟨s', read', type', -⟩ :=
            serves.narrowTo primitive (serves.represents primitive represents)
          cases read.symm.trans read'
          rw [storeScalar_of_primitives h null here read values, serves.accessType primitive, type']
          unfold Storage.position
          rw [if_pos rfl, position?_of_outside outside]
          rfl
        | references c elements => cases primitive
    | reference x =>
      cases refuses with
      | missing missing => exact absurd missing null
      | otherType here primitive | ofReferences here primitive => cases primitive
      | outside here served length outside =>
        cases served with
        | primitives c serves =>
          obtain ⟨p, primitive⟩ := serves.primitive
          cases primitive
        | references c elements =>
          cases length
          change storeReference a = _
          rw [storeReference_of_references h null here values]
          unfold World.checkIndex
          rw [position?_of_outside outside]
          rfl

theorem arrayLoad_of_element {t : Entity} {n : Nat} {e : Element} (h : a.frame.stack.WellFormed)
    (values : a.frame.stack.values = .int index :: .reference r :: rest)
    (here : a.world.heap.get? r = some t) (served : t.ServedBy kind) (length : t.length? = some n)
    (inside : InBounds index n) (element : t.element? index.toInt.toNat = some e) :
    arrayLoad kind a = .ok () (a.withValues (e.value :: rest)) := by
  have there : r ≠ .null := by
    rintro rfl
    cases here
  have below : (a.withValues rest).frame.stack.WellFormed :=
    h.beneath (show a.frame.stack.values = [.int index, .reference r] ++ rest from values)
  have fits : OperandStack.slots (e.value :: rest) ≤ a.frame.stack.maxStack := by
    have height := h.size_le
    have narrow := e.value.category_le_two
    rw [h.size_eq, values] at height
    simp only [OperandStack.slots_cons] at height ⊢
    have two : (Value.int index).category + (Value.reference r).category = 2 := rfl
    omega
  rw [arrayLoad_eq h there kind values,
    World.loaded_of_element here served length inside element]
  exact onStack_of_ok (OperandStack.push_of_fits below fits)

theorem arrayLoad_of_refuses {e : Error} (h : a.frame.stack.WellFormed)
    (values : a.frame.stack.values = .int index :: .reference r :: rest)
    (refuses : a.world.Refuses kind r index e) :
    arrayLoad kind a = .error e (a.withValues rest) := by
  by_cases null : r = .null
  · subst null
    cases refuses with
    | missing => exact arrayLoad_of_null kind h values
    | otherType here | ofReferences here | outside here => cases here
  · rw [arrayLoad_eq h null kind values, World.loaded_of_refuses refuses null]
    rfl

end Execution

namespace Entity

variable {t t' : Entity} {kind : ElementKind}

theorem ServedBy.of_compatible (h : t.ServedBy kind) (compatible : t.Compatible t') :
    t'.ServedBy kind := by
  cases compatible with
  | references c d xs ys =>
    cases h
    exact .references d ys
  | primitives c d same =>
    cases h with
    | primitives _ serves => exact .primitives d (same ▸ serves)

end Entity

theorem World.Accepts.served {w : World} {kind : ElementKind} {t : Entity} {v : Value}
    (h : w.Accepts kind t v) : t.ServedBy kind := by
  cases h with
  | scalar serves => exact .primitives _ serves
  | reference => exact .references _ _

namespace Instruction

open Execution

/-- There are accesses for every primitive type. What is stored into an element of an array, reduced
to the type of the elements, is loaded from it afterwards, and nothing else has changed. An access
that is refused fails, with its operands gone and nothing else done. -/
theorem elements_exact (natives : NativeRegistry) (callers : List Frame) :
    (∀ p : Primitive, ∃ kind : ElementKind, kind.Serves p) ∧
    (∀ kind r index (a : Activation) v rest t n, a.frame.stack.WellFormed →
      a.frame.stack.values = v :: .int index :: .reference r :: rest →
      a.world.heap.get? r = some t → t.length? = some n → InBounds index n →
      a.world.Accepts kind t v →
      ∃ e w', a.world.Written r index.toInt.toNat e w' ∧ e.value = t.reduce v ∧
        (arrayStore kind).execute natives callers a =
          .ok .proceed { a.withValues rest with world := w' } ∧
        ∀ (b : Activation) rest', b.frame.stack.WellFormed →
          b.frame.stack.values = .int index :: .reference r :: rest' → b.world = w' →
          (arrayLoad kind).execute natives callers b =
            .ok .proceed (b.withValues (t.reduce v :: rest'))) ∧
    ∀ kind r index (a : Activation) rest e, a.frame.stack.WellFormed →
      a.world.Refuses kind r index e →
      (a.frame.stack.values = .int index :: .reference r :: rest →
        (arrayLoad kind).execute natives callers a = .error e (a.withValues rest)) ∧
      ∀ v, kind.Takes v → a.frame.stack.values = v :: .int index :: .reference r :: rest →
        (arrayStore kind).execute natives callers a = .error e (a.withValues rest) := by
  refine ⟨ElementKind.exists_serves, ?_, ?_⟩
  · intro kind r index a v rest t n wellFormed values here length inside accepts
    obtain ⟨e, w', reduced, written, stores⟩ :=
      arrayStore_of_accepts wellFormed values here accepts length inside
    refine ⟨e, w', written, reduced, proceeding_of_ok stores, ?_⟩
    rintro b rest' wellFormed' values' rfl
    obtain ⟨t', here', shape, compatible⟩ := written.shape t here
    have element : t'.element? index.toInt.toNat = some e := by
      rw [← World.element?_of_get? here', written.elements, if_pos rfl]
    rw [← reduced]
    exact proceeding_of_ok (arrayLoad_of_element wellFormed' values' here'
      (accepts.served.of_compatible compatible) (shape.length.trans length) inside element)
  · intro kind r index a rest e wellFormed refuses
    exact ⟨fun values => proceeding_of_error (arrayLoad_of_refuses wellFormed values refuses),
      fun v takes values =>
        proceeding_of_error (arrayStore_of_refuses takes wellFormed values refuses)⟩

def accessing (values : List Value) : Activation where
  frame := ⟨0, default, 0, 1, .empty 0, ⟨values, OperandStack.slots values, 3⟩⟩
  world := { World.empty .working 0 with heap := ⟨#[.primitives 0 (.zeros .boolean 2)]⟩ }

/-- Of the number that is stored into an array of `boolean`s the lowest bit is loaded. The array has
no third element and is none of `int`s. -/
theorem elements_exact_boolean :
    (∃ e w', (accessing []).world.Written (.entity 0) 1 e w' ∧ e.value = .int 1 ∧
      (arrayStore .byte).execute .standard []
          (accessing [.int 3, .int 1, .reference (.entity 0)]) =
        .ok .proceed { accessing [] with world := w' } ∧
      (arrayLoad .byte).execute .standard []
          { accessing [.int 1, .reference (.entity 0)] with world := w' } =
        .ok .proceed { accessing [.int 1] with world := w' }) ∧
    (arrayLoad .byte).execute .standard [] (accessing [.int 2, .reference (.entity 0)]) =
      .error (.arrayIndexOutOfBounds 2 2) (accessing []) ∧
    (arrayStore .int).execute .standard [] (accessing [.int 3, .int 1, .reference (.entity 0)]) =
      .error (.typeMismatch (Primitive.int.keyword ++ " array") (.arrayOf .boolean))
        (accessing []) := by
  obtain ⟨-, accepted, refused⟩ := elements_exact .standard []
  obtain ⟨e, w', written, reduced, stores, loads⟩ :=
    accepted .byte (.entity 0) 1 (accessing [.int 3, .int 1, .reference (.entity 0)]) (.int 3) [] _
      2 ⟨rfl, by decide⟩ rfl rfl rfl ⟨by decide, by decide⟩ (.scalar (.inr ⟨rfl, rfl⟩) (.boolean 3))
  have outside := refused .byte (.entity 0) 2 (accessing [.int 2, .reference (.entity 0)]) [] _
    ⟨rfl, by decide⟩ (.outside rfl (.primitives 0 (.inr ⟨rfl, rfl⟩)) rfl fun inside =>
      absurd inside.2 (by decide))
  have apart : ¬ ElementKind.int.Serves .boolean := by decide
  have other := refused .int (.entity 0) 1 (accessing [.int 3, .int 1, .reference (.entity 0)]) [] _
    ⟨rfl, by decide⟩ (.otherType rfl rfl apart)
  exact ⟨⟨e, w', written, reduced, stores, loads _ [] ⟨rfl, show 2 ≤ 3 by decide⟩ rfl rfl⟩,
    outside.1 rfl, other.2 _ (.scalar rfl (.int 3)) rfl⟩

end Instruction

end JavaMachine
