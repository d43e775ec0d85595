import JavaMachine.Code.Instruction
import JavaMachine.Frame.OperandStack

/-!
# Arithmetic on the operand stack

`int` and `long` arithmetic is exact and then reduced to the width; division and remainder truncate
towards zero and fail for a zero divisor only. Floating-point arithmetic rounds to nearest and
never fails. Of two operands the one pushed last is popped first and stands on the right. None of
these instructions sees anything but the operand stack.
-/
namespace JavaMachine

open OperandStack (Change)

namespace ArithmeticOperator

def onInt : ArithmeticOperator → Int32 → Int32 → Except Error Int32
  | add, a, b => .ok (a + b)
  | sub, a, b => .ok (a - b)
  | mul, a, b => .ok (a * b)
  | div, a, b => if b = 0 then .error .divideByZero else .ok (a / b)
  | rem, a, b => if b = 0 then .error .divideByZero else .ok (a % b)

def onLong : ArithmeticOperator → Int64 → Int64 → Except Error Int64
  | add, a, b => .ok (a + b)
  | sub, a, b => .ok (a - b)
  | mul, a, b => .ok (a * b)
  | div, a, b => if b = 0 then .error .divideByZero else .ok (a / b)
  | rem, a, b => if b = 0 then .error .divideByZero else .ok (a % b)

def onFloat : ArithmeticOperator → Binary32 → Binary32 → Binary32
  | add => .add
  | sub => .sub
  | mul => .mul
  | div => .div
  | rem => .rem

def onDouble : ArithmeticOperator → Binary64 → Binary64 → Binary64
  | add => .add
  | sub => .sub
  | mul => .mul
  | div => .div
  | rem => .rem

/-- Replaces the two operands by the result. -/
def run (op : ArithmeticOperator) : NumericKind → Change Unit
  | .int => do
    let b ← OperandStack.popInt
    let a ← OperandStack.popInt
    OperandStack.push (.int (← ofExcept (op.onInt a b)))
  | .long => do
    let b ← OperandStack.popLong
    let a ← OperandStack.popLong
    OperandStack.push (.long (← ofExcept (op.onLong a b)))
  | .float => do
    let b ← OperandStack.popFloat
    let a ← OperandStack.popFloat
    OperandStack.push (.float (op.onFloat a b))
  | .double => do
    let b ← OperandStack.popDouble
    let a ← OperandStack.popDouble
    OperandStack.push (.double (op.onDouble a b))

end ArithmeticOperator

/-- Replaces the operand by its negation. -/
def NumericKind.negate : NumericKind → Change Unit
  | int => do OperandStack.push (.int (-(← OperandStack.popInt)))
  | long => do OperandStack.push (.long (-(← OperandStack.popLong)))
  | float => do OperandStack.push (.float (← OperandStack.popFloat).neg)
  | double => do OperandStack.push (.double (← OperandStack.popDouble).neg)

namespace ShiftOperator

/-- Shifts an `int` by the low five bits of the amount. -/
def onInt (op : ShiftOperator) (v amount : Int32) : Int32 :=
  let n := amount &&& 0x1f
  match op with
  | left => v <<< n
  | right => v >>> n
  | unsignedRight => (v.toUInt32 >>> n.toUInt32).toInt32

/-- Shifts a `long` by the low six bits of the amount. -/
def onLong (op : ShiftOperator) (v : Int64) (amount : Int32) : Int64 :=
  let n := (amount &&& 0x3f).toInt64
  match op with
  | left => v <<< n
  | right => v >>> n
  | unsignedRight => (v.toUInt64 >>> n.toUInt64).toInt64

def run (op : ShiftOperator) : IntegralKind → Change Unit
  | .int => do
    let amount ← OperandStack.popInt
    let v ← OperandStack.popInt
    OperandStack.push (.int (op.onInt v amount))
  | .long => do
    let amount ← OperandStack.popInt
    let v ← OperandStack.popLong
    OperandStack.push (.long (op.onLong v amount))

end ShiftOperator

namespace BitwiseOperator

def onInt : BitwiseOperator → Int32 → Int32 → Int32
  | and, a, b => a &&& b
  | or, a, b => a ||| b
  | xor, a, b => a ^^^ b

def onLong : BitwiseOperator → Int64 → Int64 → Int64
  | and, a, b => a &&& b
  | or, a, b => a ||| b
  | xor, a, b => a ^^^ b

def run (op : BitwiseOperator) : IntegralKind → Change Unit
  | .int => do
    let b ← OperandStack.popInt
    let a ← OperandStack.popInt
    OperandStack.push (.int (op.onInt a b))
  | .long => do
    let b ← OperandStack.popLong
    let a ← OperandStack.popLong
    OperandStack.push (.long (op.onLong a b))

end BitwiseOperator

/-- Replaces the operand by its conversion. Conversions to integers truncate towards zero and
stop at the bounds of the type; no number becomes zero. -/
def Conversion.run : Conversion → Change Unit
  | intToLong => do OperandStack.push (.long (← OperandStack.popInt).toInt64)
  | intToFloat => do OperandStack.push (.float (.ofInt32 (← OperandStack.popInt)))
  | intToDouble => do OperandStack.push (.double (.ofInt32 (← OperandStack.popInt)))
  | longToInt => do OperandStack.push (.int (← OperandStack.popLong).toInt32)
  | longToFloat => do OperandStack.push (.float (.ofInt64 (← OperandStack.popLong)))
  | longToDouble => do OperandStack.push (.double (.ofInt64 (← OperandStack.popLong)))
  | floatToInt => do OperandStack.push (.int (← OperandStack.popFloat).toInt32)
  | floatToLong => do OperandStack.push (.long (← OperandStack.popFloat).toInt64)
  | floatToDouble => do OperandStack.push (.double (← OperandStack.popFloat).widen)
  | doubleToInt => do OperandStack.push (.int (← OperandStack.popDouble).toInt32)
  | doubleToLong => do OperandStack.push (.long (← OperandStack.popDouble).toInt64)
  | doubleToFloat => do OperandStack.push (.float (.ofBinary64 (← OperandStack.popDouble)))
  | intToByte => do OperandStack.pushScalar (← OperandStack.popScalar .byte)
  | intToChar => do OperandStack.pushScalar (← OperandStack.popScalar .char)
  | intToShort => do OperandStack.pushScalar (← OperandStack.popScalar .short)

end JavaMachine
