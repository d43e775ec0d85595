import JavaMachine.Machine.Basic

/-!
# Exceptions

An exception object is thrown by the guest or made from a guest-visible failure whose exception
class is defined. It goes to the innermost frame with a handler for it, among the frames above a
base; the frames above that one are given up. The handlers of a frame are tried in the order of its
table. If no frame has one, the exception leaves the run as a failure that lists the frames alive
when it was thrown.
-/
namespace JavaMachine

/-- Attaches the frames alive, innermost first, to a failure. -/
def Error.inContext (opcode : Option UInt8) (locations : List Location) (e : Error) : Error :=
  match locations with
  | [] => e
  | l :: callers => .execution opcode l callers e

/-- The field that holds the message of an exception object. -/
def detailField : String := "detailMessage"

namespace World

/-- The exception object for a failure, if the exception class is defined. -/
def exceptionFor (e : Error) : Operation (Option Reference) := do
  let w ← get
  match e.guestClassName.bind fun name => w.findClass? (.scalar name) with
  | none => return none
  | some c =>
    let fields := Fields.initial (w.classes.instanceFields c)
    match e.guestMessage.filter fun _ => fields.contains detailField with
    | none => return some (← allocate (.object c fields))
    | some message =>
      let text ← newString message
      return some (← allocate (.object c (fields.insert detailField (.reference text))))

/-- The message of an exception object. -/
def detailMessage? (w : World) (exception : Reference) : Option String :=
  match w.object? exception with
  | some (_, fields) =>
    match fields.get? detailField with
    | some (.reference text) => w.stringText? text
    | _ => none
  | none => none

/-- The failure of a run that an exception of the class leaves. -/
def uncaught (w : World) (exception : Reference) (c : ClassId) : Error :=
  .uncaughtException (w.classes.name c).dotted (w.detailMessage? exception)

/-- The class with a name, if it is defined. -/
def loadClass? (name : ClassName) : Operation (Option ClassId) := fun w =>
  match loadClass name w with
  | .ok c w => .ok (some c) w
  | .error (.classNotFound _) w => .ok none w
  | .error e w => .error e w

/-- Whether a handler of the class `owner` catches exceptions of the class `c`. A handler for a
class that is not defined catches nothing. -/
def catches (owner c : ClassId) (h : Handler) : Operation Bool := do
  if h.catchType = 0 then return true
  let name ← ofExcept (((← get).classes.pool owner).classAt h.catchType)
  match ← loadClass? name with
  | some k => return (← get).classes.isAssignable c k
  | none => return false

/-- The position of the first handler that covers the position and catches the class. -/
def handlerPc? (owner c : ClassId) (pc : Nat) : List Handler → Operation (Option Nat)
  | [] => return none
  | h :: rest => do
    if h.covers pc then
      if ← catches owner c h then return some h.handlerPc.toNat
    handlerPc? owner c pc rest

end World

/-- The frame as its handler at a position begins. -/
def Frame.handle (f : Frame) (exception : Reference) (pc : Nat) :
    EStateM.Result Error Frame Unit :=
  match OperandStack.push (.reference exception) f.stack.clear with
  | .ok _ stack => .ok () { f with stack := stack, pc := pc }
  | .error e stack => .error e { f with stack := stack }

namespace Machine

/-- Looks for a handler among the frames above the base, and gives up those without one. Whether
there is a handler is the result. -/
def seekHandler (base : Nat) (exception : Reference) (c : ClassId) (m : Machine) :
    EStateM.Result Error Machine Bool :=
  seek m.world m.frames
where
  seek (world : World) : List Frame → EStateM.Result Error Machine Bool
    | [] => .ok false { m with world := world, frames := [] }
    | f :: below =>
      if below.length < base then .ok false { m with world := world, frames := f :: below }
      else
        match World.handlerPc? f.owner c f.pc f.method.handlers world with
        | .error e world => .error e { m with world := world, frames := f :: below }
        | .ok none world => seek world below
        | .ok (some pc) world =>
          match f.handle exception pc with
          | .ok _ f => .ok true { m with world := world, frames := f :: below }
          | .error e f => .error e { m with world := world, frames := f :: below }

/-- Hands an exception to its handler, or fails with it. -/
def unwind (base : Nat) (exception : Reference) : Transition Unit := do
  let m ← get
  match m.world.classOf? exception with
  | none => throw .nullPointer
  | some c =>
    let locations := m.locations
    let caught ← seekHandler base exception c
    if !caught then
      throw (((← get).world.uncaught exception c).inContext none locations)

end Machine

end JavaMachine
