import JavaMachine.Code.Instruction
import JavaMachine.Frame.OperandStack

/-!
# Comparisons on the operand stack

A three-way comparison yields -1, 0 or 1. With a floating-point operand that is no number the
operands are unordered, and the comparison yields what the instruction says for that case.
-/
namespace JavaMachine

open OperandStack (Change)

/-- How the first number compares with the second. -/
def threeWay (a b : Int) : Int32 := if a < b then -1 else if a = b then 0 else 1

def Binary32.compareOr (unordered : Int32) (a b : Binary32) : Int32 :=
  if a.isNaN || b.isNaN then unordered else threeWay a.orderKey b.orderKey

def Binary64.compareOr (unordered : Int32) (a b : Binary64) : Int32 :=
  if a.isNaN || b.isNaN then unordered else threeWay a.orderKey b.orderKey

namespace Comparison

/-- What a comparison of unordered operands yields. -/
def unordered (nanIsGreater : Bool) : Int32 := if nanIsGreater then 1 else -1

def longs : Change Unit := do
  let b ← OperandStack.popLong
  let a ← OperandStack.popLong
  OperandStack.push (.int (threeWay a.toInt b.toInt))

def floats (nanIsGreater : Bool) : Change Unit := do
  let b ← OperandStack.popFloat
  let a ← OperandStack.popFloat
  OperandStack.push (.int (a.compareOr (unordered nanIsGreater) b))

def doubles (nanIsGreater : Bool) : Change Unit := do
  let b ← OperandStack.popDouble
  let a ← OperandStack.popDouble
  OperandStack.push (.int (a.compareOr (unordered nanIsGreater) b))

end Comparison

namespace Condition

def holds : Condition → Int32 → Int32 → Bool
  | eq, a, b => a == b
  | ne, a, b => a != b
  | lt, a, b => a < b
  | ge, a, b => b ≤ a
  | gt, a, b => b < a
  | le, a, b => a ≤ b

/-- Tests the operand against zero. -/
def testZero (c : Condition) : Change Bool := do return c.holds (← OperandStack.popInt) 0

def testInts (c : Condition) : Change Bool := do
  let b ← OperandStack.popInt
  let a ← OperandStack.popInt
  return c.holds a b

end Condition

namespace Comparison

/-- Tests whether two references are the same, or differ. -/
def references (equal : Bool) : Change Bool := do
  let b ← OperandStack.popReference
  let a ← OperandStack.popReference
  return (a == b) == equal

/-- Tests whether a reference is null, or is not. -/
def null (isNull : Bool) : Change Bool := do
  return ((← OperandStack.popReference) == .null) == isNull

end Comparison

end JavaMachine
