import JavaMachine.Execution.Initialization

/-!
# Field access

A field reference names a class, a field and its type. A static field belongs to the first class
of the search order that declares the name; an instance field is found by name in the object.
-/
namespace JavaMachine

def FieldReference.missing (r : FieldReference) : Error := .noSuchField r.owner.text r.name

/-- The class that declares the static field. -/
def World.resolveStatic (r : FieldReference) : World.Operation ClassId := do
  let c ← World.loadClass r.owner
  match (← get).staticOwner? c r.name with
  | some k => return k
  | none => throw r.missing

/-- Writes a static field of the class. -/
def World.assignStatic (c : ClassId) (r : FieldReference) (v : Value) : World.Operation Unit := do
  match (← get).putStatic? c r.name v with
  | some w => set w
  | none => throw r.missing

namespace Execution

def fieldReference (index : UInt16) : Execution FieldReference := do
  ofExcept ((← pool).fieldAt index)

def getStatic (index : UInt16) : Execution Action := do
  let r ← fieldReference index
  let c ← onWorld (World.resolveStatic r)
  whenInitialized c do
    match (← get).world.getStatic? c r.name with
    | some v =>
      onStack (OperandStack.push v)
      return .proceed
    | none => throw r.missing

def putStatic (index : UInt16) : Execution Action := do
  let r ← fieldReference index
  let c ← onWorld (World.resolveStatic r)
  whenInitialized c do
    let v ← onStack (OperandStack.popTyped r.type)
    onWorld (World.assignStatic c r v)
    return .proceed

def getField (index : UInt16) : Execution Unit := do
  let r ← fieldReference index
  let receiver ← onStack OperandStack.popNonNull
  let w := (← get).world
  match w.object? receiver with
  | some (c, fields) =>
    let v ← ofExcept (w.readField c fields r.name)
    onStack (OperandStack.push v)
  | none => throw r.missing

def putField (index : UInt16) : Execution Unit := do
  let r ← fieldReference index
  let v ← onStack (OperandStack.popTyped r.type)
  let receiver ← onStack OperandStack.popNonNull
  match (← get).world.object? receiver with
  | some (c, fields) => onWorld (World.writeField receiver c fields r.name v)
  | none => throw r.missing

end Execution

end JavaMachine
