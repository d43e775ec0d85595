import JavaMachine.Value.Basic

/-!
# Failures

A failure is recorded by its cause; the wording is in `Error.Message`. Guest-visible failures are
those a guest program can be written to expect: each has an exception class, and the machine
raises it as an exception when that class is defined. All others end the run.
-/
namespace JavaMachine

/-- A class, a method and a position in its code. -/
structure Location where
  className : String
  method : String
  pc : Nat
  deriving DecidableEq, Inhabited

def Location.text (l : Location) : String :=
  l.className ++ "." ++ l.method ++ "(pc " ++ toString l.pc ++ ")"

/-- What was found in place of what an operation needs. -/
inductive Found
  | value (v : Value)
  | reference (r : Reference)
  | native (v : NativeValue)
  /-- A local variable that holds nothing. -/
  | emptySlot (index : Nat)
  | arrayOf (p : Primitive)
  | className (name : ClassName)
  /-- The number of arguments of a native method. -/
  | arguments (count : Nat)
  /-- A native method gave nothing for a result of the type. -/
  | noResult (type : FieldType)
  | text (s : String)
  deriving DecidableEq, Inhabited

inductive Error
  | nullPointer
  | arrayIndexOutOfBounds (index : Int32) (length : Nat)
  | negativeArraySize (length : Int32)
  | divideByZero
  | classCast (source target : String)
  | arrayStore (source target : String)
  /-- An invoked method has no body and no native implementation. -/
  | abstractMethod (className name : String)
  | stackOverflow (depth : Nat)
  /-- An exception left the outermost frame. -/
  | uncaughtException (className : String) (message : Option String)
  | operandStackUnderflow
  | operandStackOverflow (maxStack : Nat)
  | typeMismatch (expected : String) (found : Found)
  | invalidLocalIndex (index maxLocals : Nat)
  | unknownOpcode (opcode : UInt8)
  | unknownTypeTag (tag : UInt8)
  | truncatedInstruction (pc : Nat)
  | invalidBranchTarget (pc : Nat) (offset : Int)
  | malformedDescriptor (text : String)
  | constantPool (index : UInt16) (expected : String)
  | classNotFound (name : String)
  | noSuchMethod (className name descriptor : String)
  | noSuchField (className name : String)
  | nativeNotFound (className name descriptor : String)
  | unsupported (what : String)
  | io (what : String)
  /-- A failure with the instruction that met it and the frames alive then, innermost first. -/
  | execution (opcode : Option UInt8) (location : Location) (backtrace : List Location)
      (cause : Error)
  /-- A position computed by the machine itself lay outside its container. -/
  | fault
  deriving DecidableEq, Inhabited

namespace Error

/-- The failure under any execution context. -/
def root : Error → Error
  | execution _ _ _ cause => cause.root
  | e => e

/-- The exception class of a guest-visible failure. -/
def guestClassName (e : Error) : Option String :=
  match e.root with
  | nullPointer => some "java/lang/NullPointerException"
  | arrayIndexOutOfBounds _ _ => some "java/lang/ArrayIndexOutOfBoundsException"
  | negativeArraySize _ => some "java/lang/NegativeArraySizeException"
  | divideByZero => some "java/lang/ArithmeticException"
  | classCast _ _ => some "java/lang/ClassCastException"
  | arrayStore _ _ => some "java/lang/ArrayStoreException"
  | abstractMethod _ _ => some "java/lang/AbstractMethodError"
  | stackOverflow _ => some "java/lang/StackOverflowError"
  | _ => none

def isGuestVisible (e : Error) : Bool :=
  match e.root with
  | uncaughtException _ _ => true
  | e => e.guestClassName.isSome

/-- The message that an exception object carries for the failure. -/
def guestMessage (e : Error) : Option String :=
  match e.root with
  | arrayIndexOutOfBounds index length =>
    some ("Index " ++ toString index ++ " out of bounds for length " ++ toString length)
  | negativeArraySize length => some (toString length)
  | divideByZero => some "/ by zero"
  | classCast source target =>
    some ("class " ++ source ++ " cannot be cast to class " ++ target)
  | arrayStore source _ => some source
  | abstractMethod className name => some (className ++ "." ++ name)
  | _ => none

/-- Whether the failure already carries its context. -/
def hasContext : Error → Bool
  | execution _ _ _ _ => true
  | _ => false

end Error

end JavaMachine
