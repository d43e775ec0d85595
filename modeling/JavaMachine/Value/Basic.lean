import JavaMachine.Descriptor.Basic
import JavaMachine.Number.Decimal

/-!
# Values

Operand stacks and local variables hold a `Value`, in which the types narrower than `int` are
already widened. Fields hold values too. Arrays of primitives and the arguments of native methods
hold a `Scalar`, which keeps its own width. `Scalar.ofInt` is the one place where an `int` is
narrowed to a smaller type, and `Scalar.widen` the one place where it grows again.
-/
namespace JavaMachine

/-- Nothing, or the address of an entity on the heap. Equality is identity of the entity. -/
inductive Reference
  | null
  | entity (address : Nat)
  deriving DecidableEq, Repr, Inhabited

inductive Value
  | int (v : Int32)
  | float (v : Binary32)
  | long (v : Int64)
  | double (v : Binary64)
  | reference (r : Reference)
  /-- The position after a subroutine call, which only a return from the subroutine uses. -/
  | returnAddress (position : Nat)
  deriving DecidableEq, Inhabited

namespace Value

/-- The number of slots the value takes. -/
def category : Value → Nat
  | long _ | double _ => 2
  | _ => 1

/-- The kind of the value, as diagnostics name it. -/
def kind : Value → String
  | int _ => "int"
  | float _ => "float"
  | long _ => "long"
  | double _ => "double"
  | reference _ => "reference"
  | returnAddress _ => "returnAddress"

def int? : Value → Option Int32
  | int v => some v
  | _ => none

def float? : Value → Option Binary32
  | float v => some v
  | _ => none

def long? : Value → Option Int64
  | long v => some v
  | _ => none

def double? : Value → Option Binary64
  | double v => some v
  | _ => none

def reference? : Value → Option Reference
  | reference r => some r
  | _ => none

def returnAddress? : Value → Option Nat
  | returnAddress a => some a
  | _ => none

theorem category_pos (v : Value) : 0 < v.category := by
  cases v <;> simp [category]

theorem category_le_two (v : Value) : v.category ≤ 2 := by
  cases v <;> simp [category]

end Value

/-- A primitive value in its own width. -/
inductive Scalar
  | boolean (v : Bool)
  | byte (v : Int8)
  | char (v : UInt16)
  | short (v : Int16)
  | int (v : Int32)
  | long (v : Int64)
  | float (v : Binary32)
  | double (v : Binary64)
  deriving DecidableEq, Inhabited

namespace Scalar

def type : Scalar → Primitive
  | boolean _ => .boolean
  | byte _ => .byte
  | char _ => .char
  | short _ => .short
  | int _ => .int
  | long _ => .long
  | float _ => .float
  | double _ => .double

/-- What an array element or a field of the type holds before the first assignment. -/
def zero : Primitive → Scalar
  | .boolean => boolean false
  | .byte => byte 0
  | .char => char 0
  | .short => short 0
  | .int => int 0
  | .long => long 0
  | .float => float .zero
  | .double => double .zero

/-- The value as operand stacks hold it. -/
def widen : Scalar → Value
  | boolean v => .int (if v then 1 else 0)
  | byte v => .int v.toInt32
  | char v => .int v.toUInt32.toInt32
  | short v => .int v.toInt32
  | int v => .int v
  | long v => .long v
  | float v => .float v
  | double v => .double v

/-- An `int` as a value of a type that is represented by `int`: the lowest bit of a `boolean`, the
low bits of the other narrow types. -/
def ofInt? (p : Primitive) (v : Int32) : Option Scalar :=
  match p with
  | .boolean => some (boolean (v &&& 1 ≠ 0))
  | .byte => some (byte v.toInt8)
  | .char => some (char v.toUInt32.toUInt16)
  | .short => some (short v.toInt16)
  | .int => some (int v)
  | _ => none

/-- A value of an operand stack as a value of the type, when it is of the type's kind. -/
def ofValue? (p : Primitive) (v : Value) : Option Scalar :=
  match p, v with
  | .long, .long v => some (long v)
  | .float, .float v => some (float v)
  | .double, .double v => some (double v)
  | p, .int v => ofInt? p v
  | _, _ => none

@[simp] theorem type_zero (p : Primitive) : (zero p).type = p := by
  cases p <;> rfl

theorem type_ofInt? {p : Primitive} {v : Int32} {s : Scalar} (h : ofInt? p v = some s) :
    s.type = p := by
  cases p <;> simp only [ofInt?, Option.some.injEq, reduceCtorEq] at h <;> subst h <;> rfl

end Scalar

/-- The kind of value that represents a type on operand stacks. -/
def Primitive.stackKind : Primitive → String
  | .long => "long"
  | .float => "float"
  | .double => "double"
  | _ => "int"

/-- The value a field or array element of the type holds before the first assignment. -/
def FieldType.zero : FieldType → Value
  | primitive p => (Scalar.zero p).widen
  | _ => .reference .null

/-- A value that crosses to or from a native method. -/
inductive NativeValue
  | scalar (s : Scalar)
  | reference (r : Reference)
  /-- Host text, which becomes a fresh guest string on the way back. -/
  | text (s : String)
  deriving DecidableEq, Inhabited

end JavaMachine
