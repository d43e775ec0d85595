import JavaMachine.Error.Basic
import JavaMachine.Text.Quoted

/-!
# Wording of failures

Diagnostics write a value as its kind and its content in parentheses. A reference is written by
its class and its identity, which only the heap knows; every text below takes a function that
names references.
-/
namespace JavaMachine

/-- A kind and a content in parentheses. -/
def tagged (kind content : String) : String := kind ++ "(" ++ content ++ ")"

def Value.describe (nameOf : Reference → String) : Value → String
  | int v => tagged "Int" (toString v)
  | float v => tagged "Float" (v.text .diagnostic)
  | long v => tagged "Long" (toString v)
  | double v => tagged "Double" (v.text .diagnostic)
  | reference r => tagged "Reference" (nameOf r)
  | returnAddress a => tagged "ReturnAddress" (toString a)

/-- The content of the scalar, without its type. -/
def Scalar.describe : Scalar → String
  | boolean v => toString v
  | byte v => toString v
  | char v => toString v
  | short v => toString v
  | int v => toString v
  | long v => toString v
  | float v => v.text .diagnostic
  | double v => v.text .diagnostic

def NativeValue.describe (nameOf : Reference → String) : NativeValue → String
  | scalar s => tagged s.type.title s.describe
  | reference r => tagged "Reference" (nameOf r)
  | text s => tagged "Str" (Text.quote s)

def Found.describe (nameOf : Reference → String) : Found → String
  | value v => v.describe nameOf
  | reference r => nameOf r
  | native v => v.describe nameOf
  | emptySlot index => "empty slot " ++ toString index
  | arrayOf p => p.title ++ " array"
  | className name => name.text
  | arguments count => toString count ++ " arguments"
  | noResult type => "no value for return type " ++ type.descriptor
  | text s => s

/-- Two lower-case hexadecimal digits. -/
def hexByte (b : UInt8) : String :=
  String.ofList [Nat.digitChar (b.toNat / 16), Nat.digitChar (b.toNat % 16)]

namespace Error

/-- The name of the kind of failure. -/
def kind : Error → String
  | nullPointer => "NullPointer"
  | arrayIndexOutOfBounds _ _ => "ArrayIndexOutOfBounds"
  | negativeArraySize _ => "NegativeArraySize"
  | divideByZero => "ArithmeticDivideByZero"
  | classCast _ _ => "ClassCast"
  | arrayStore _ _ => "ArrayStore"
  | abstractMethod _ _ => "AbstractMethod"
  | stackOverflow _ => "StackOverflow"
  | uncaughtException _ _ => "UncaughtException"
  | operandStackUnderflow => "OperandStackUnderflow"
  | operandStackOverflow _ => "OperandStackOverflow"
  | typeMismatch _ _ => "TypeMismatch"
  | invalidLocalIndex _ _ => "InvalidLocalIndex"
  | unknownOpcode _ => "UnknownOpcode"
  | unknownTypeTag _ => "UnknownTypeTag"
  | truncatedInstruction _ => "TruncatedInstruction"
  | invalidBranchTarget _ _ => "InvalidBranchTarget"
  | malformedDescriptor _ => "MalformedDescriptor"
  | constantPool _ _ => "ConstantPool"
  | classNotFound _ => "ClassNotFound"
  | noSuchMethod _ _ _ => "NoSuchMethod"
  | noSuchField _ _ => "NoSuchField"
  | nativeNotFound _ _ _ => "NativeNotFound"
  | unsupported _ => "Unsupported"
  | io _ => "Io"
  | execution _ _ _ _ => "Execution"
  | fault => "Fault"

def message (nameOf : Reference → String) : Error → String
  | nullPointer => "NullPointerException"
  | arrayIndexOutOfBounds index length =>
    "ArrayIndexOutOfBoundsException: index " ++ toString index ++ " out of bounds for length " ++
      toString length
  | negativeArraySize length => "NegativeArraySizeException: " ++ toString length
  | divideByZero => "ArithmeticException: / by zero"
  | classCast source target =>
    "ClassCastException: " ++ source ++ " cannot be cast to " ++ target
  | arrayStore source target => "ArrayStoreException: " ++ source ++ " into array of " ++ target
  | abstractMethod className name => "AbstractMethodError: " ++ className ++ "." ++ name
  | stackOverflow depth => "StackOverflowError at depth " ++ toString depth
  | uncaughtException className (some text) =>
    "uncaught exception " ++ className ++ ": " ++ text
  | uncaughtException className none => "uncaught exception " ++ className
  | operandStackUnderflow => "operand stack underflow"
  | operandStackOverflow maxStack =>
    "operand stack overflow (max_stack = " ++ toString maxStack ++ ")"
  | typeMismatch expected found =>
    "expected " ++ expected ++ " but found " ++ found.describe nameOf
  | invalidLocalIndex index maxLocals =>
    "invalid local variable index " ++ toString index ++ " (max_locals = " ++
      toString maxLocals ++ ")"
  | unknownOpcode opcode => "unknown or reserved opcode 0x" ++ hexByte opcode
  | unknownTypeTag tag => "unknown array type tag " ++ toString tag
  | truncatedInstruction pc => "truncated instruction at pc " ++ toString pc
  | invalidBranchTarget pc offset =>
    "branch from pc " ++ toString pc ++ " by " ++ toString offset ++ " leaves the method"
  | malformedDescriptor text => "malformed descriptor " ++ Text.quote text
  | constantPool index expected =>
    "constant pool entry " ++ toString index ++ " is not a " ++ expected
  | classNotFound name => "class " ++ name ++ " not found"
  | noSuchMethod className name descriptor =>
    "no method " ++ className ++ "." ++ name ++ descriptor
  | noSuchField className name => "no field " ++ className ++ "." ++ name
  | nativeNotFound className name descriptor =>
    "no native implementation for " ++ className ++ "." ++ name ++ descriptor
  | unsupported what => "unsupported: " ++ what
  | io what => "I/O error: " ++ what
  | execution opcode location backtrace cause =>
    let instruction :=
      match opcode with
      | some code => " (opcode 0x" ++ hexByte code ++ ")"
      | none => ""
    let callers := backtrace.map fun caller => "\n    at " ++ caller.text
    cause.message nameOf ++ instruction ++ " at " ++ location.text ++ String.join callers
  | fault => "position outside its container"

/-- The text of the failure that directly caused this one. -/
def sourceMessage (nameOf : Reference → String) : Error → Option String
  | execution _ _ _ cause => some (cause.message nameOf)
  | io what => some what
  | _ => none

end Error

end JavaMachine
