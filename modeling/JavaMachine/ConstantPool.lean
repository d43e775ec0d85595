import JavaMachine.Error.Basic
import JavaMachine.OneIndexed

/-!
# Constant pools

The constants of a class, numbered from one. A `long` or `double` takes two numbers, of which the
second is empty. The numbers that instructions carry have 16 bits.
-/
namespace JavaMachine

structure MethodReference where
  owner : ClassName
  signature : MethodSignature
  deriving DecidableEq, Inhabited

/-- Fields are looked up by name; the type says how their values are handled. -/
structure FieldReference where
  owner : ClassName
  name : String
  type : FieldType
  deriving DecidableEq, Inhabited

inductive Constant
  | int (v : Int32)
  | float (v : Binary32)
  | long (v : Int64)
  | double (v : Binary64)
  | string (text : String)
  | className (name : ClassName)
  | method (r : MethodReference)
  | interfaceMethod (r : MethodReference)
  | field (r : FieldReference)
  deriving DecidableEq, Inhabited

def Constant.isWide : Constant → Bool
  | long _ | double _ => true
  | _ => false

structure ConstantPool where
  slots : OneIndexed (Option Constant)
  deriving DecidableEq, Inhabited

namespace ConstantPool

def empty : ConstantPool := ⟨.empty⟩

def size (p : ConstantPool) : Nat := p.slots.size

def isEmpty (p : ConstantPool) : Bool := p.slots.isEmpty

/-- Appends a constant. Its number comes with the pool. -/
def push (p : ConstantPool) (c : Constant) : UInt16 × ConstantPool :=
  let slots := p.slots.push (some c)
  (UInt16.ofNat slots.size, ⟨if c.isWide then slots.push none else slots⟩)

def ofList (constants : List Constant) : ConstantPool :=
  constants.foldl (fun p c => (p.push c).2) empty

def get? (p : ConstantPool) (index : UInt16) : Option Constant :=
  (p.slots.get? index.toNat).join

def classAt (p : ConstantPool) (index : UInt16) : Except Error ClassName :=
  match p.get? index with
  | some (.className name) => .ok name
  | _ => .error (.constantPool index "class reference")

/-- A method of a class or of an interface. -/
def methodAt (p : ConstantPool) (index : UInt16) : Except Error MethodReference :=
  match p.get? index with
  | some (.method r) | some (.interfaceMethod r) => .ok r
  | _ => .error (.constantPool index "method reference")

def fieldAt (p : ConstantPool) (index : UInt16) : Except Error FieldReference :=
  match p.get? index with
  | some (.field r) => .ok r
  | _ => .error (.constantPool index "field reference")

end ConstantPool

end JavaMachine
