import JavaMachine.Value.Basic

/-!
# Instructions

An instruction with its operands decoded. Instructions that differ only in the type they work on
share a constructor that takes the type, and the short forms of an instruction are the instruction
itself, so that every law about a family is stated once.
-/
namespace JavaMachine

/-- The types that local variables and results are moved by. -/
inductive ValueKind
  | int | long | float | double | reference
  deriving DecidableEq, Repr, Inhabited

/-- The types that arithmetic works on. -/
inductive NumericKind
  | int | long | float | double
  deriving DecidableEq, Repr, Inhabited

/-- The kinds of array elements; `boolean` and `byte` elements share their instructions. -/
inductive ElementKind
  | int | long | float | double | reference | byte | char | short
  deriving DecidableEq, Repr, Inhabited

/-- Whether a bitwise instruction works on `int` or on `long`. -/
inductive IntegralKind
  | int | long
  deriving DecidableEq, Repr, Inhabited

inductive ArithmeticOperator
  | add | sub | mul | div | rem
  deriving DecidableEq, Repr, Inhabited

inductive ShiftOperator
  | left | right | unsignedRight
  deriving DecidableEq, Repr, Inhabited

inductive BitwiseOperator
  | and | or | xor
  deriving DecidableEq, Repr, Inhabited

/-- A relation between an `int` and zero or between two `int`s. -/
inductive Condition
  | eq | ne | lt | ge | gt | le
  deriving DecidableEq, Repr, Inhabited

inductive StackOperator
  | pop | pop2 | dup | dupX1 | dupX2 | dup2 | dup2X1 | dup2X2 | swap
  deriving DecidableEq, Repr, Inhabited

inductive Conversion
  | intToLong | intToFloat | intToDouble
  | longToInt | longToFloat | longToDouble
  | floatToInt | floatToLong | floatToDouble
  | doubleToInt | doubleToLong | doubleToFloat
  | intToByte | intToChar | intToShort
  deriving DecidableEq, Repr, Inhabited

inductive Instruction
  | nop
  | pushNull
  | pushInt (value : Int32)
  | pushLong (value : Fin 2)
  | pushFloat (value : Fin 3)
  | pushDouble (value : Fin 2)
  /-- Push a constant that takes one slot. -/
  | pushConstant (index : UInt16)
  /-- Push a constant that takes two slots. -/
  | pushWideConstant (index : UInt16)
  | load (kind : ValueKind) (index : UInt16)
  | store (kind : ValueKind) (index : UInt16)
  | arrayLoad (kind : ElementKind)
  | arrayStore (kind : ElementKind)
  | stack (operator : StackOperator)
  | arithmetic (operator : ArithmeticOperator) (kind : NumericKind)
  | negate (kind : NumericKind)
  | shift (operator : ShiftOperator) (kind : IntegralKind)
  | bitwise (operator : BitwiseOperator) (kind : IntegralKind)
  | increment (index : UInt16) (amount : Int16)
  | convert (conversion : Conversion)
  | compareLong
  /-- Compare two `float`s; no number counts as greater or as less. -/
  | compareFloat (nanIsGreater : Bool)
  | compareDouble (nanIsGreater : Bool)
  | ifZero (condition : Condition) (offset : Int32)
  | ifInts (condition : Condition) (offset : Int32)
  | ifReferences (equal : Bool) (offset : Int32)
  | ifNull (isNull : Bool) (offset : Int32)
  /-- A jump, in the form with a 16-bit or a 32-bit offset. -/
  | jump (wide : Bool) (offset : Int32)
  | jumpToSubroutine (wide : Bool) (offset : Int32)
  | returnFromSubroutine (index : UInt16)
  | tableSwitch (default low high : Int32) (offsets : List Int32)
  | lookupSwitch (default : Int32) (pairs : List (Int32 × Int32))
  | returnValue (kind : ValueKind)
  | returnVoid
  | getStatic (index : UInt16)
  | putStatic (index : UInt16)
  | getField (index : UInt16)
  | putField (index : UInt16)
  | invokeVirtual (index : UInt16)
  | invokeSpecial (index : UInt16)
  | invokeStatic (index : UInt16)
  | invokeInterface (index : UInt16) (count : UInt8)
  | invokeDynamic (index : UInt16)
  | newObject (index : UInt16)
  | newPrimitiveArray (tag : UInt8)
  | newReferenceArray (index : UInt16)
  | newMultiArray (index : UInt16) (dimensions : UInt8)
  | arrayLength
  | throwException
  | checkCast (index : UInt16)
  | instanceOf (index : UInt16)
  | enterMonitor
  | leaveMonitor
  deriving DecidableEq, Inhabited

namespace ValueKind

def all : List ValueKind := [int, long, float, double, reference]

/-- The kind of value, as failures name it. -/
def name : ValueKind → String
  | int => "int"
  | long => "long"
  | float => "float"
  | double => "double"
  | reference => "reference"

/-- The value, when it is of the kind. -/
def accept? : ValueKind → Value → Option Value
  | int, .int v => some (.int v)
  | long, .long v => some (.long v)
  | float, .float v => some (.float v)
  | double, .double v => some (.double v)
  | reference, .reference r => some (.reference r)
  | _, _ => none

end ValueKind

/-- The families of instructions that diagnostics tell apart. -/
inductive InstructionFamily
  | constant | load | store | stack | math | conversion | comparison | control | reference
  | extended
  deriving DecidableEq, Repr, Inhabited

def Instruction.family : Instruction → InstructionFamily
  | nop | pushNull | pushInt _ | pushLong _ | pushFloat _ | pushDouble _ | pushConstant _
  | pushWideConstant _ => .constant
  | load _ _ | arrayLoad _ => .load
  | store _ _ | arrayStore _ => .store
  | stack _ => .stack
  | arithmetic _ _ | negate _ | shift _ _ | bitwise _ _ | increment _ _ => .math
  | convert _ => .conversion
  | compareLong | compareFloat _ | compareDouble _ | ifZero _ _ | ifInts _ _ | ifReferences _ _ =>
    .comparison
  | jump wide _ | jumpToSubroutine wide _ => if wide then .extended else .control
  | returnFromSubroutine _ | tableSwitch _ _ _ _ | lookupSwitch _ _ | returnValue _
  | returnVoid => .control
  | ifNull _ _ | newMultiArray _ _ => .extended
  | getStatic _ | putStatic _ | getField _ | putField _ | invokeVirtual _ | invokeSpecial _
  | invokeStatic _ | invokeInterface _ _ | invokeDynamic _ | newObject _ | newPrimitiveArray _
  | newReferenceArray _ | arrayLength | throwException | checkCast _ | instanceOf _
  | enterMonitor | leaveMonitor => .reference

/-- The instructions that invoke a method. -/
def Instruction.invokes : Instruction → Bool
  | invokeVirtual _ | invokeSpecial _ | invokeStatic _ | invokeInterface _ _
  | invokeDynamic _ => true
  | _ => false

end JavaMachine
