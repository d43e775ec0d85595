import JavaMachine.Execution.Initialization

/-!
# Constants, objects and casts

Constants of the pool, new objects, checks of the class of a reference, and monitors. There is one
guest thread, so a monitor is always free.
-/
namespace JavaMachine

namespace World

/-- The value of a constant that takes one slot. Strings are canonical. -/
def constantValue (index : UInt16) : Option Constant → Operation Value
  | some (.int v) => return .int v
  | some (.float v) => return .float v
  | some (.string text) => do return .reference (← internString text)
  | some (.className name) => do
    let c ← loadClass name
    return .reference (← classObject c)
  | _ => throw (.constantPool index "loadable constant")

/-- The value of a constant that takes two slots. -/
def wideConstantValue (index : UInt16) : Option Constant → Except Error Value
  | some (.long v) => .ok (.long v)
  | some (.double v) => .ok (.double v)
  | _ => .error (.constantPool index "long or double constant")

end World

namespace Execution

def pushConstant (index : UInt16) : Execution Unit := do
  let constant := (← pool).get? index
  let v ← onWorld (World.constantValue index constant)
  onStack (OperandStack.push v)

def pushWideConstant (index : UInt16) : Execution Unit := do
  let v ← ofExcept (World.wideConstantValue index ((← pool).get? index))
  onStack (OperandStack.push v)

def newObject (index : UInt16) : Execution Action := do
  let name ← ofExcept ((← pool).classAt index)
  let c ← onWorld (World.loadClass name)
  whenInitialized c do
    let r ← onWorld (World.newObject c)
    onStack (OperandStack.push (.reference r))
    return .proceed

/-- Raises an exception object. -/
def throwException : Execution Action := do
  let r ← onStack OperandStack.popNonNull
  return .raise r

/-- Leaves a reference on the stack if it is null or fits the class. -/
def checkCast (index : UInt16) : Execution Unit := do
  let name ← ofExcept ((← pool).classAt index)
  let r ← onStack OperandStack.popReference
  match (← get).world.classOf? r with
  | none => pure ()
  | some source =>
    let target ← onWorld (World.loadClass name)
    let t := (← get).world.classes
    if !t.isAssignable source target then
      throw (.classCast (t.name source).dotted (t.name target).dotted)
  onStack (OperandStack.push (.reference r))

/-- Tests whether a reference is not null and fits the class. -/
def instanceOf (index : UInt16) : Execution Unit := do
  let name ← ofExcept ((← pool).classAt index)
  let r ← onStack OperandStack.popReference
  let fits ←
    match (← get).world.classOf? r with
    | none => pure false
    | some source => do
      let target ← onWorld (World.loadClass name)
      pure ((← get).world.classes.isAssignable source target)
  onStack (OperandStack.pushScalar (.boolean fits))

/-- Enters or leaves the monitor of an object. -/
def monitor : Execution Unit := do
  let _ ← onStack OperandStack.popNonNull

end Execution

end JavaMachine
