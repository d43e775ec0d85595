import JavaMachine.Code.Decode
import JavaMachine.Execution.Arithmetic
import JavaMachine.Execution.Array
import JavaMachine.Execution.Comparison
import JavaMachine.Execution.Control
import JavaMachine.Execution.FieldAccess
import JavaMachine.Execution.Invocation
import JavaMachine.Execution.Object
import JavaMachine.Execution.Rearrangement

/-!
# The instruction set

`Instruction.execute` executes any instruction. The table shows the reach of each one: `change` and
`test` let it see the operand stack alone, `proceeding` lets it change the activation but not ask
for anything but the next instruction, and the rest decide themselves what comes next.
-/
namespace JavaMachine

namespace Execution

/-- Goes on after an instruction that asks for nothing else. -/
def proceeding (x : Execution Unit) : Execution Action := do
  x
  return .proceed

/-- An instruction on the operand stack alone. -/
def change (x : OperandStack.Change Unit) : Execution Action := proceeding (onStack x)

/-- A branch that a test on the operand stack decides. -/
def test (x : OperandStack.Change Bool) (offset : Int32) : Execution Action :=
  proceeding do branchIf (← onStack x) offset

end Execution

/-- Decodes the current instruction, so that the frame goes on just after it. -/
def Activation.fetch (a : Activation) : Except Error (UInt8 × Instruction × Activation) :=
  match Instruction.fetch ⟨a.frame.code, a.frame.pc⟩ with
  | .ok (opcode, i) cursor =>
    .ok (opcode, i, { a with frame := { a.frame with nextPc := cursor.position } })
  | .error e _ => .error e

namespace Instruction

open Execution (change test proceeding)

open OperandStack (push)

/-- Executes an instruction. `callers` are the frames below the executing one, innermost first. -/
def execute (natives : NativeRegistry) (callers : List Frame) : Instruction → Execution Action
  | nop => change (pure ())
  | pushNull => change (push (.reference .null))
  | pushInt v => change (push (.int v))
  | pushLong v => change (push (.long (Int64.ofNat v)))
  | pushFloat v => change (push (.float ([.zero, .one, .two].getD v .zero)))
  | pushDouble v => change (push (.double ([.zero, .one].getD v .zero)))
  | pushConstant index => proceeding (Execution.pushConstant index)
  | pushWideConstant index => proceeding (Execution.pushWideConstant index)
  | load kind index => proceeding (Execution.load kind index)
  | store kind index => proceeding (Execution.store kind index)
  | arrayLoad kind => proceeding (Execution.arrayLoad kind)
  | arrayStore kind => proceeding (Execution.arrayStore kind)
  | stack operator => change operator.run
  | arithmetic operator kind => change (operator.run kind)
  | negate kind => change kind.negate
  | shift operator kind => change (operator.run kind)
  | bitwise operator kind => change (operator.run kind)
  | increment index amount => proceeding (Execution.increment index amount)
  | convert conversion => change conversion.run
  | compareLong => change Comparison.longs
  | compareFloat nanIsGreater => change (Comparison.floats nanIsGreater)
  | compareDouble nanIsGreater => change (Comparison.doubles nanIsGreater)
  | ifZero condition offset => test condition.testZero offset
  | ifInts condition offset => test condition.testInts offset
  | ifReferences equal offset => test (Comparison.references equal) offset
  | ifNull isNull offset => test (Comparison.null isNull) offset
  | jump _ offset => proceeding (Execution.branch offset)
  | jumpToSubroutine _ offset => proceeding (Execution.jumpToSubroutine offset)
  | returnFromSubroutine index => proceeding (Execution.returnFromSubroutine index)
  | tableSwitch default low high offsets =>
    proceeding (Execution.tableSwitch default low high offsets)
  | lookupSwitch default pairs => proceeding (Execution.lookupSwitch default pairs)
  | returnValue kind => Execution.returnValue kind
  | returnVoid => return .leave none
  | getStatic index => Execution.getStatic index
  | putStatic index => Execution.putStatic index
  | getField index => proceeding (Execution.getField index)
  | putField index => proceeding (Execution.putField index)
  | invokeVirtual index => Execution.invokeVirtual natives callers index
  | invokeSpecial index => Execution.invokeSpecial natives callers index
  | invokeStatic index => Execution.invokeStatic natives callers index
  | invokeInterface index _ => Execution.invokeVirtual natives callers index
  | invokeDynamic _ => throw (.unsupported "invokedynamic")
  | newObject index => Execution.newObject index
  | newPrimitiveArray tag => proceeding (Execution.newPrimitiveArray tag)
  | newReferenceArray index => proceeding (Execution.newReferenceArray index)
  | newMultiArray index dimensions => proceeding (Execution.newMultiArray index dimensions)
  | arrayLength => proceeding Execution.arrayLength
  | throwException => Execution.throwException
  | checkCast index => proceeding (Execution.checkCast index)
  | instanceOf index => proceeding (Execution.instanceOf index)
  | enterMonitor => proceeding Execution.monitor
  | leaveMonitor => proceeding Execution.monitor

end Instruction

end JavaMachine
