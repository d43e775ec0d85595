import JavaMachine.World.Basic

/-!
# Array elements

Reading and replacing elements of arrays on the heap. A missing array is reported first, then the
wrong kind of array, then the wrong element type, then an index outside the array. Nothing changes
unless all of these are right.
-/
namespace JavaMachine

namespace World

/-- The class and the contents of an array of primitives. -/
def primitiveArray (w : World) (r : Reference) : Except Error (ClassId × Storage) :=
  match w.heap.get? r with
  | none => .error .nullPointer
  | some (.primitives c storage) => .ok (c, storage)
  | some _ => .error (.typeMismatch "array of primitives" (.reference r))

/-- The class and the elements of an array of references. -/
def referenceArray (w : World) (r : Reference) : Except Error (ClassId × Array Reference) :=
  match w.heap.get? r with
  | none => .error .nullPointer
  | some (.references c elements) => .ok (c, elements)
  | some _ => .error (.typeMismatch "array of references" (.reference r))

def arrayLength (w : World) (r : Reference) : Except Error Nat :=
  match w.heap.get? r with
  | none => .error .nullPointer
  | some e =>
    match e.length? with
    | some length => .ok length
    | none => .error (.typeMismatch "array reference" (.reference r))

/-- The element type of an array of primitives. -/
def elementType (w : World) (r : Reference) : Except Error Primitive := do
  let (_, storage) ← w.primitiveArray r
  return storage.type

/-- The position of an index in an array of the length. -/
def checkIndex (index : Int32) (length : Nat) : Except Error Nat :=
  match position? index length with
  | some i => .ok i
  | none => .error (.arrayIndexOutOfBounds index length)

/-- Reads an element of an array of the given element type. -/
def readScalar (w : World) (r : Reference) (p : Primitive) (index : Int32) :
    Except Error Scalar := do
  let (_, storage) ← w.primitiveArray r
  storage.read p index

/-- Replaces an element of an array of the value's type. -/
def writeScalar (r : Reference) (index : Int32) (s : Scalar) : Operation Unit := do
  let (_, storage) ← ofExcept ((← get).primitiveArray r)
  let i ← ofExcept (storage.position s.type index)
  modifyEntity r (.setScalar i s)

def readReference (w : World) (r : Reference) (index : Int32) : Except Error Reference := do
  let (_, elements) ← w.referenceArray r
  let i ← checkIndex index elements.size
  return elements.getD i .null

/-- Replaces an element whatever the class of the new one. -/
def writeReference (r : Reference) (index : Int32) (element : Reference) : Operation Unit := do
  let (_, elements) ← ofExcept ((← get).referenceArray r)
  let i ← ofExcept (checkIndex index elements.size)
  modifyEntity r (.setReference i element)

/-- Whether a reference may be stored in an array of the class: `null` always may, anything else if
its class fits the component class. -/
def storable (w : World) (arrayClass : ClassId) (r : Reference) : Bool :=
  match w.classOf? r, w.classes.component? arrayClass with
  | some c, some component => w.classes.isAssignable c component
  | some _, none => true
  | none, _ => r = .null

/-- The dotted name of the class of what a reference leads to. -/
def dottedClass (w : World) (r : Reference) : String :=
  match w.classOf? r with
  | some c => (w.classes.name c).dotted
  | none => ""

/-- Checks that a reference may be stored in an array of the class. -/
def checkStore (w : World) (arrayClass : ClassId) (r : Reference) : Except Error Unit :=
  if w.storable arrayClass r then .ok ()
  else
    let component := (w.classes.component? arrayClass).getD arrayClass
    .error (.arrayStore (w.dottedClass r) (w.classes.name component).dotted)

theorem checkStore_eq_ok {w : World} {arrayClass : ClassId} {r : Reference} :
    w.checkStore arrayClass r = .ok () ↔ w.storable arrayClass r = true := by
  unfold checkStore
  split <;> simp_all

end World

end JavaMachine
