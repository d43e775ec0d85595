import JavaMachine.Execution.Basic
import JavaMachine.World.Element

/-!
# Arrays

An access pops the value to store, if any, then the index, then the array. Stores into arrays of
references check the class of the value, since an array may have a narrower component class than
the type it is known by. New arrays are allocated once every length is known not to be negative.
-/
namespace JavaMachine

/-- The element type that the accesses of the kind are named for. -/
def ElementKind.primitive? : ElementKind → Option Primitive
  | int => some .int
  | long => some .long
  | float => some .float
  | double => some .double
  | reference => none
  | byte => some .byte
  | char => some .char
  | short => some .short

/-- The element type that an access works on in an array: accesses to `byte` elements serve
`boolean` arrays too. -/
def accessType (p actual : Primitive) : Primitive :=
  if p = .byte ∧ actual = .boolean then .boolean else p

/-- The scalar reduced to a type of its kind. -/
def Scalar.narrowTo (p : Primitive) (s : Scalar) : Scalar := (Scalar.ofValue? p s.widen).getD s

namespace World

/-- Runs an operation a number of times and collects the results. -/
def collect {α : Type} (x : Operation α) : Nat → Array α → Operation (Array α)
  | 0, done => return done
  | n + 1, done => do collect x n (done.push (← x))

/-- A new array of the class of the given length whose elements are arrays of the further lengths,
and so on. Without further lengths the elements are null; arrays of primitives take no more
lengths. -/
def newNestedArray (c : ClassId) (length : Nat) : List Nat → Operation Reference
  | [] => do
    match (← get).classes.name c with
    | .scalar name => throw (.typeMismatch "array class" (.className (.scalar name)))
    | .array (.primitive p) => allocate (.primitives c (.zeros p length))
    | .array _ => allocate (.references c (Array.replicate length .null))
  | next :: further => do
    match (← get).classes.name c with
    | .scalar name => throw (.typeMismatch "array class" (.className (.scalar name)))
    | .array (.primitive p) => allocate (.primitives c (.zeros p length))
    | .array t =>
      let component ← typeClass t
      let elements ← collect (newNestedArray component next further) length #[]
      allocate (.references c elements)

/-- A new array of primitives of the length. -/
def newPrimitiveArray (p : Primitive) (length : Int32) : Operation Reference := do
  let c ← loadArray (.primitive p)
  let n ← ofExcept (checkLength length)
  allocate (.primitives c (.zeros p n))

/-- A new array of nulls of an array class. -/
def newReferenceArray (c : ClassId) (length : Int32) : Operation Reference := do
  let n ← ofExcept (checkLength length)
  allocate (.references c (Array.replicate n .null))

end World

/-- The type that a type code of arrays stands for. -/
def Primitive.ofTag (tag : UInt8) : Except Error Primitive :=
  match ofTag? tag with
  | some p => .ok p
  | none => .error (.unknownTypeTag tag)

namespace Execution

/-- Pops an index and an array. -/
def popElement : OperandStack.Change (Reference × Int32) := do
  let index ← OperandStack.popInt
  let array ← OperandStack.popNonNull
  return (array, index)

def loadScalar (p : Primitive) : Execution Unit := do
  let (array, index) ← onStack popElement
  let w := (← get).world
  let actual ← ofExcept (w.elementType array)
  let s ← ofExcept (w.readScalar array (accessType p actual) index)
  onStack (OperandStack.pushScalar s)

def loadReference : Execution Unit := do
  let (array, index) ← onStack popElement
  let r ← ofExcept ((← get).world.readReference array index)
  onStack (OperandStack.push (.reference r))

def arrayLoad (kind : ElementKind) : Execution Unit :=
  match kind.primitive? with
  | some p => loadScalar p
  | none => loadReference

def storeScalar (p : Primitive) : Execution Unit := do
  let s ← onStack (OperandStack.popScalar p)
  let (array, index) ← onStack popElement
  let actual ← ofExcept ((← get).world.elementType array)
  onWorld (World.writeScalar array index (s.narrowTo (accessType p actual)))

def storeReference : Execution Unit := do
  let r ← onStack OperandStack.popReference
  let (array, index) ← onStack popElement
  let w := (← get).world
  let (c, elements) ← ofExcept (w.referenceArray array)
  let _ ← ofExcept (World.checkIndex index elements.size)
  ofExcept (w.checkStore c r)
  onWorld (World.writeReference array index r)

def arrayStore (kind : ElementKind) : Execution Unit :=
  match kind.primitive? with
  | some p => storeScalar p
  | none => storeReference

def arrayLength : Execution Unit := do
  let r ← onStack OperandStack.popReference
  let length ← ofExcept ((← get).world.arrayLength r)
  onStack (OperandStack.push (.int (Int32.ofNat length)))

def newPrimitiveArray (tag : UInt8) : Execution Unit := do
  let p ← ofExcept (Primitive.ofTag tag)
  let length ← onStack OperandStack.popInt
  let r ← onWorld (World.newPrimitiveArray p length)
  onStack (OperandStack.push (.reference r))

def newReferenceArray (index : UInt16) : Execution Unit := do
  let name ← ofExcept ((← pool).classAt index)
  let component ← onWorld (World.loadClass name)
  let length ← onStack OperandStack.popInt
  let type := ((← get).world.classes.name component).type
  let c ← onWorld (World.loadArray type)
  let r ← onWorld (World.newReferenceArray c length)
  onStack (OperandStack.push (.reference r))

/-- Pops `n` lengths, the innermost first, and puts them before those already popped. -/
def popLengths : Nat → List Int32 → OperandStack.Change (List Int32)
  | 0, popped => return popped
  | n + 1, popped => do popLengths n ((← OperandStack.popInt) :: popped)

def newMultiArray (index : UInt16) (dimensions : UInt8) : Execution Unit := do
  let name ← ofExcept ((← pool).classAt index)
  let c ← onWorld (World.loadClass name)
  let lengths ← onStack (popLengths dimensions.toNat [])
  let counts ← ofExcept (lengths.mapM checkLength)
  let r ← onWorld (World.newNestedArray c (counts.headD 0) counts.tail)
  onStack (OperandStack.push (.reference r))

end Execution

end JavaMachine
