import JavaMachine.Code.Instruction
import JavaMachine.Frame.Basic
import JavaMachine.World.Loading

/-!
# Executing one instruction

An activation is the frame on top of the call stack with the world around it. Executing an
instruction changes the activation and says what the machine has to do next; other frames are out
of its reach. An instruction that fails leaves the activation as it was by that time, that is,
without the operands it had popped.
-/
namespace JavaMachine

/-- An executing frame and the world. -/
structure Activation where
  frame : Frame
  world : World
  deriving DecidableEq

/-- What the machine does once an instruction is executed. -/
inductive Action
  /-- Go on at the frame's `nextPc`. -/
  | proceed
  /-- Run the frame of a callee. -/
  | call (callee : Frame)
  /-- Run the initializer of a class, which counts as initialized as soon as the frame is in
  place, and then the same instruction again. -/
  | prepare (initializer : Frame)
  /-- Give up the frame and hand the value to its caller. -/
  | leave (result : Option Value)
  /-- Find a handler for an exception object. -/
  | raise (exception : Reference)
  deriving DecidableEq, Inhabited

abbrev Execution (α : Type) := EStateM Error Activation α

namespace Execution

/-- Changes the operand stack of the frame. -/
def onStack {α : Type} (x : OperandStack.Change α) : Execution α := fun ⟨frame, world⟩ =>
  match x frame.stack with
  | .ok a stack => .ok a ⟨{ frame with stack := stack }, world⟩
  | .error e stack => .error e ⟨{ frame with stack := stack }, world⟩

/-- Operates on the world. -/
def onWorld {α : Type} (x : World.Operation α) : Execution α := fun ⟨frame, world⟩ =>
  match x world with
  | .ok a world => .ok a ⟨frame, world⟩
  | .error e world => .error e ⟨frame, world⟩

/-- The constant pool of the executing class. -/
def pool : Execution ConstantPool := do
  let a ← get
  return a.world.classes.pool a.frame.owner

/-- Replaces the position to go on at. -/
def setNextPc (position : Nat) : Execution Unit :=
  modify fun a => { a with frame := { a.frame with nextPc := position } }

/-- Goes on at an offset from the current instruction, if that is in the code. -/
def branch (offset : Int32) : Execution Unit := do
  let target ← ofExcept ((← get).frame.branchTarget offset)
  setNextPc target

def branchIf (taken : Bool) (offset : Int32) : Execution Unit :=
  if taken then branch offset else pure ()

end Execution

end JavaMachine
