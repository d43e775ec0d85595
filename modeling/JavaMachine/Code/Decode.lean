import JavaMachine.Code.Cursor
import JavaMachine.Code.Instruction

/-!
# Decoding

The first byte of an instruction is its opcode. Opcodes of one family are neighbours, ordered by
operation and then by type, so each family is decoded by its distance from the family's first
opcode. Immediate operands follow the opcode; those of the two switches start at a multiple of
four from the start of the code.
-/
namespace JavaMachine

namespace Instruction

open Cursor

/-- The entry of a list that a family is numbered by. -/
def nth {α : Type} [Inhabited α] (entries : List α) (i : Nat) : α := entries.getD i default

def numericKinds : List NumericKind := [.int, .long, .float, .double]

def elementKinds : List ElementKind :=
  [.int, .long, .float, .double, .reference, .byte, .char, .short]

def integralKinds : List IntegralKind := [.int, .long]

def arithmeticOperators : List ArithmeticOperator := [.add, .sub, .mul, .div, .rem]

def shiftOperators : List ShiftOperator := [.left, .right, .unsignedRight]

def bitwiseOperators : List BitwiseOperator := [.and, .or, .xor]

def conditions : List Condition := [.eq, .ne, .lt, .ge, .gt, .le]

def stackOperators : List StackOperator :=
  [.pop, .pop2, .dup, .dupX1, .dupX2, .dup2, .dup2X1, .dup2X2, .swap]

def conversions : List Conversion :=
  [.intToLong, .intToFloat, .intToDouble, .longToInt, .longToFloat, .longToDouble,
    .floatToInt, .floatToLong, .floatToDouble, .doubleToInt, .doubleToLong, .doubleToFloat,
    .intToByte, .intToChar, .intToShort]

/-- The constants without operands, opcodes 0x00 to 0x0f. -/
def plainConstants : List Instruction :=
  [nop, pushNull, pushInt (-1), pushInt 0, pushInt 1, pushInt 2, pushInt 3, pushInt 4, pushInt 5,
    pushLong 0, pushLong 1, pushFloat 0, pushFloat 1, pushFloat 2, pushDouble 0, pushDouble 1]

/-- A 16-bit branch offset. -/
def readOffset : Reading Int32 := do return (← readI16).toInt32

/-- A local variable number of 8 bits. -/
def readIndex : Reading UInt16 := do return (← readU8).toUInt16

def readTableSwitch : Reading Instruction := do
  align
  let default ← readI32
  let low ← readI32
  let high ← readI32
  if high < low then throw (.truncatedInstruction (← get).position)
  let offsets ← readI32s (high.toInt - low.toInt + 1).toNat
  return tableSwitch default low high offsets

/-- Every other number is a key, the one after it the offset of that key. -/
def pairsOf : List Int32 → List (Int32 × Int32)
  | key :: offset :: rest => (key, offset) :: pairsOf rest
  | _ => []

def readLookupSwitch : Reading Instruction := do
  align
  let default ← readI32
  let count ← readI32
  if count < 0 then throw (.truncatedInstruction (← get).position)
  let flat ← readI32s (2 * count.toInt.toNat)
  return lookupSwitch default (pairsOf flat)

/-- The instructions that the `wide` opcode changes have 16-bit operands there. -/
def readWide : Reading Instruction := do
  let opcode ← readU8
  let n := opcode.toNat
  if 0x15 ≤ n ∧ n ≤ 0x19 then
    return load (nth ValueKind.all (n - 0x15)) (← readU16)
  else if 0x36 ≤ n ∧ n ≤ 0x3a then
    return store (nth ValueKind.all (n - 0x36)) (← readU16)
  else if n = 0xa9 then
    return returnFromSubroutine (← readU16)
  else if n = 0x84 then
    let index ← readU16
    return increment index (← readI16)
  else throw (.unknownOpcode opcode)

/-- Constants, opcodes 0x00 to 0x14. -/
def readConstant (n : Nat) : Reading Instruction := do
  if n ≤ 0x0f then return nth plainConstants n
  else if n = 0x10 then return pushInt (← readI8).toInt32
  else if n = 0x11 then return pushInt (← readI16).toInt32
  else if n = 0x12 then return pushConstant (← readU8).toUInt16
  else if n = 0x13 then return pushConstant (← readU16)
  else return pushWideConstant (← readU16)

/-- Loads, opcodes 0x15 to 0x35. -/
def readLoad (n : Nat) : Reading Instruction := do
  if n ≤ 0x19 then return load (nth ValueKind.all (n - 0x15)) (← readIndex)
  else if n ≤ 0x2d then
    return load (nth ValueKind.all ((n - 0x1a) / 4)) (UInt16.ofNat ((n - 0x1a) % 4))
  else return arrayLoad (nth elementKinds (n - 0x2e))

/-- Stores, opcodes 0x36 to 0x56. -/
def readStore (n : Nat) : Reading Instruction := do
  if n ≤ 0x3a then return store (nth ValueKind.all (n - 0x36)) (← readIndex)
  else if n ≤ 0x4e then
    return store (nth ValueKind.all ((n - 0x3b) / 4)) (UInt16.ofNat ((n - 0x3b) % 4))
  else return arrayStore (nth elementKinds (n - 0x4f))

/-- Arithmetic, opcodes 0x60 to 0x84. -/
def readMath (n : Nat) : Reading Instruction := do
  if n ≤ 0x73 then
    return arithmetic (nth arithmeticOperators ((n - 0x60) / 4)) (nth numericKinds ((n - 0x60) % 4))
  else if n ≤ 0x77 then return negate (nth numericKinds (n - 0x74))
  else if n ≤ 0x7d then
    return shift (nth shiftOperators ((n - 0x78) / 2)) (nth integralKinds ((n - 0x78) % 2))
  else if n ≤ 0x83 then
    return bitwise (nth bitwiseOperators ((n - 0x7e) / 2)) (nth integralKinds ((n - 0x7e) % 2))
  else
    let index ← readIndex
    return increment index (← readI8).toInt16

/-- Comparisons, opcodes 0x94 to 0xa6. -/
def readComparison (n : Nat) : Reading Instruction := do
  if n = 0x94 then return compareLong
  else if n ≤ 0x96 then return compareFloat (n == 0x96)
  else if n ≤ 0x98 then return compareDouble (n == 0x98)
  else if n ≤ 0x9e then return ifZero (nth conditions (n - 0x99)) (← readOffset)
  else if n ≤ 0xa4 then return ifInts (nth conditions (n - 0x9f)) (← readOffset)
  else return ifReferences (n == 0xa5) (← readOffset)

/-- Jumps, switches and returns, opcodes 0xa7 to 0xb1. -/
def readControl (n : Nat) : Reading Instruction := do
  if n = 0xa7 then return jump false (← readOffset)
  else if n = 0xa8 then return jumpToSubroutine false (← readOffset)
  else if n = 0xa9 then return returnFromSubroutine (← readIndex)
  else if n = 0xaa then readTableSwitch
  else if n = 0xab then readLookupSwitch
  else if n ≤ 0xb0 then return returnValue (nth ValueKind.all (n - 0xac))
  else return returnVoid

/-- Fields, methods, objects and arrays, opcodes 0xb2 to 0xc3. -/
def readReference (n : Nat) : Reading Instruction := do
  match n with
  | 0xb2 => return getStatic (← readU16)
  | 0xb3 => return putStatic (← readU16)
  | 0xb4 => return getField (← readU16)
  | 0xb5 => return putField (← readU16)
  | 0xb6 => return invokeVirtual (← readU16)
  | 0xb7 => return invokeSpecial (← readU16)
  | 0xb8 => return invokeStatic (← readU16)
  | 0xb9 =>
    let index ← readU16
    let count ← readU8
    let _ ← readU8
    return invokeInterface index count
  | 0xba =>
    let index ← readU16
    let _ ← readU16
    return invokeDynamic index
  | 0xbb => return newObject (← readU16)
  | 0xbc => return newPrimitiveArray (← readU8)
  | 0xbd => return newReferenceArray (← readU16)
  | 0xbe => return arrayLength
  | 0xbf => return throwException
  | 0xc0 => return checkCast (← readU16)
  | 0xc1 => return instanceOf (← readU16)
  | 0xc2 => return enterMonitor
  | _ => return leaveMonitor

/-- Later additions, opcodes 0xc4 to 0xc9. -/
def readExtended (n : Nat) : Reading Instruction := do
  match n with
  | 0xc4 => readWide
  | 0xc5 =>
    let index ← readU16
    return newMultiArray index (← readU8)
  | 0xc6 => return ifNull true (← readOffset)
  | 0xc7 => return ifNull false (← readOffset)
  | 0xc8 => return jump true (← readI32)
  | _ => return jumpToSubroutine true (← readI32)

/-- Reads the operands of the opcode. -/
def readOperands (opcode : UInt8) : Reading Instruction := do
  let n := opcode.toNat
  if n ≤ 0x14 then readConstant n
  else if n ≤ 0x35 then readLoad n
  else if n ≤ 0x56 then readStore n
  else if n ≤ 0x5f then return stack (nth stackOperators (n - 0x57))
  else if n ≤ 0x84 then readMath n
  else if n ≤ 0x93 then return convert (nth conversions (n - 0x85))
  else if n ≤ 0xa6 then readComparison n
  else if n ≤ 0xb1 then readControl n
  else if n ≤ 0xc3 then readReference n
  else if n ≤ 0xc9 then readExtended n
  else throw (.unknownOpcode opcode)

/-- Reads an instruction and gives it with its opcode. -/
def fetch : Reading (UInt8 × Instruction) := do
  let opcode ← readU8
  let instruction ← readOperands opcode
  return (opcode, instruction)

end Instruction

end JavaMachine
