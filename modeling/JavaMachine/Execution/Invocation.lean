import JavaMachine.Execution.Initialization
import JavaMachine.Native.Call

/-!
# Method invocation

Every invocation resolves its method reference first, then takes the arguments off the stack, and
then decides which method runs: the resolved one, one chosen by the class of the receiver, or for
calls through `super` one found from the superclass of the executing class. Native methods run at
once, on the frames that are alive; all others get a frame.
-/
namespace JavaMachine

def MethodReference.missing (r : MethodReference) : Error :=
  .noSuchMethod r.owner.text r.signature.name r.signature.descriptor

namespace ClassTable

/-- The method that a reference resolves to from a class. -/
def resolveMethod (t : ClassTable) (c : ClassId) (r : MethodReference) :
    Except Error (ClassId × Method) :=
  match t.findMethod c r.signature with
  | some found => .ok found
  | none => .error r.missing

/-- The superclass that a call from `current` to a method of the class `c` starts its search at,
if it is a call through `super`: not of a constructor or an interface method, from a class with the
flag for it, to a class above. -/
def superTarget? (t : ClassTable) (current c : ClassId) (s : MethodSignature) : Option ClassId :=
  if s.name ≠ "<init>" ∧ !t.isInterface c ∧ (t.get? current).any Class.hasSuperFlag then
    (t.superclass? current).filter fun k => t.isDescendant k c
  else none

end ClassTable

/-- The class of the receiver, which comes first among the arguments. -/
def World.receiverClass (w : World) (arguments : List Value) : Except Error ClassId :=
  match (arguments.head?.bind Value.reference?).bind w.classOf? with
  | some c => .ok c
  | none => .error .nullPointer

namespace Execution

/-- Hands control to a method. `callers` are the frames below the executing one, innermost
first. -/
def invoke (natives : NativeRegistry) (callers : List Frame) (c : ClassId) (m : Method)
    (arguments : List Value) : Execution Action := do
  let a ← get
  if a.world.classes.isBridged c m then
    match ← onWorld (NativeCall.run natives (a.frame :: callers) c m arguments) with
    | some v => onStack (OperandStack.push v)
    | none => pure ()
    return .proceed
  else return .call (← ofExcept (Frame.ofArguments a.world.classes c m arguments))

def methodReference (index : UInt16) : Execution MethodReference := do
  ofExcept ((← pool).methodAt index)

/-- Invokes the method chosen by the class of the receiver. -/
def invokeVirtual (natives : NativeRegistry) (callers : List Frame) (index : UInt16) :
    Execution Action := do
  let r ← methodReference index
  let c ← onWorld (World.loadClass r.owner)
  let (_, resolved) ← ofExcept ((← get).world.classes.resolveMethod c r)
  let arguments ← onStack (OperandStack.popArguments r.signature.parameters true)
  let w := (← get).world
  let receiver ← ofExcept (w.receiverClass arguments)
  match w.classes.select receiver resolved r.signature with
  | some (k, m) => invoke natives callers k m arguments
  | none => throw (.abstractMethod (w.classes.nameText receiver) r.signature.name)

/-- Invokes a constructor, a private method or a method of a superclass, whatever the class of the
receiver. -/
def invokeSpecial (natives : NativeRegistry) (callers : List Frame) (index : UInt16) :
    Execution Action := do
  let r ← methodReference index
  let c ← onWorld (World.loadClass r.owner)
  let a ← get
  let t := a.world.classes
  let start := (t.superTarget? a.frame.owner c r.signature).getD c
  let (k, m) ← ofExcept (t.resolveMethod start r)
  let arguments ← onStack (OperandStack.popArguments r.signature.parameters true)
  let _ ← ofExcept ((← get).world.receiverClass arguments)
  invoke natives callers k m arguments

def invokeStatic (natives : NativeRegistry) (callers : List Frame) (index : UInt16) :
    Execution Action := do
  let r ← methodReference index
  let c ← onWorld (World.loadClass r.owner)
  let (k, m) ← ofExcept ((← get).world.classes.resolveMethod c r)
  whenInitialized k do
    let arguments ← onStack (OperandStack.popArguments r.signature.parameters false)
    invoke natives callers k m arguments

end Execution

end JavaMachine
