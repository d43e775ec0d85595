import JavaMachine.Code.Instruction
import JavaMachine.Frame.OperandStack

/-!
# Rearranging the operand stack

The instructions that duplicate, drop and swap operands take groups of one or two slots off the
stack and push them again in another order. A group of two slots is one wide value or two narrow
ones, so a wide value is never split.
-/
namespace JavaMachine

namespace StackOperator

open OperandStack

/-- Takes a group of one slot. -/
def takeOne : Change (List Value) := do return [← popCategory1]

/-- Takes a group of two slots, the lower value first. -/
def takeTwo : Change (List Value) := do
  let upper ← OperandStack.pop
  if upper.category = 2 then return [upper]
  let lower ← popCategory1
  return [lower, upper]

def run : StackOperator → Change Unit
  | pop => do let _ ← takeOne
  | pop2 => do let _ ← takeTwo
  | dup => do
    let a ← takeOne
    pushAll (a ++ a)
  | dupX1 => do
    let a ← takeOne
    let b ← takeOne
    pushAll (a ++ b ++ a)
  | dupX2 => do
    let a ← takeOne
    let b ← takeTwo
    pushAll (a ++ b ++ a)
  | dup2 => do
    let a ← takeTwo
    pushAll (a ++ a)
  | dup2X1 => do
    let a ← takeTwo
    let b ← takeOne
    pushAll (a ++ b ++ a)
  | dup2X2 => do
    let a ← takeTwo
    let b ← takeTwo
    pushAll (a ++ b ++ a)
  | swap => do
    let a ← takeOne
    let b ← takeOne
    pushAll (a ++ b)

end StackOperator

end JavaMachine
