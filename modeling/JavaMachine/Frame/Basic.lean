import JavaMachine.Class.Table
import JavaMachine.Frame.LocalVariables
import JavaMachine.Frame.OperandStack

/-!
# Frames

A frame runs one method, which always has a body. `pc` is the position of the instruction being
executed and `nextPc` the position adopted once it is done: just after it, unless it branches.
-/
namespace JavaMachine

structure Frame where
  /-- The class that declares the method. -/
  owner : ClassId
  method : Method
  pc : Nat
  nextPc : Nat
  locals : LocalVariables
  stack : OperandStack
  deriving DecidableEq, Inhabited

namespace Frame

/-- A frame at the start of a method with the given variables. Methods without a body have no
frames. -/
def ofLocals (t : ClassTable) (owner : ClassId) (m : Method) (locals : LocalVariables) :
    Except Error Frame :=
  match m.body with
  | some body => .ok ⟨owner, m, 0, 0, locals, .empty body.maxStack.toNat⟩
  | none =>
    if m.isNative then .error (.unsupported "native methods do not run in a bytecode frame")
    else .error (.abstractMethod (t.nameText owner) m.name)

/-- A frame whose variables are the arguments, the receiver first. -/
def ofArguments (t : ClassTable) (owner : ClassId) (m : Method) (arguments : List Value) :
    Except Error Frame := do
  let locals ← LocalVariables.ofArguments m.maxLocals arguments
  ofLocals t owner m locals

/-- The frame at the instruction after the current one. -/
def advance (f : Frame) : Frame := { f with pc := f.nextPc }

def code (f : Frame) : Array UInt8 := f.method.code

/-- The position an offset away from the current instruction, if it is in the code. -/
def branchTarget (f : Frame) (offset : Int32) : Except Error Nat :=
  let target : Int := f.pc + offset.toInt
  if 0 ≤ target ∧ target < f.code.size then .ok target.toNat
  else .error (.invalidBranchTarget f.pc offset.toInt)

def location (t : ClassTable) (f : Frame) : Location :=
  ⟨t.nameText f.owner, f.method.name, f.pc⟩

end Frame

end JavaMachine
