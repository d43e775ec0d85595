import JavaMachine.ConstantPool

/-!
# Classes and methods

A class as it was defined: this part never changes. Whether a class is initialized and what its
static fields hold belongs to the world. Other classes are named by number; a class is numbered
after every class it refers to.
-/
namespace JavaMachine

/-- The number of a class in the order of definition. -/
abbrev ClassId := Nat

/-- A range of code positions, half open, and the handler for exceptions thrown there. -/
structure Handler where
  startPc : UInt16
  endPc : UInt16
  handlerPc : UInt16
  /-- A class constant, or 0 to catch everything. -/
  catchType : UInt16
  deriving DecidableEq, Inhabited

def Handler.covers (h : Handler) (pc : Nat) : Bool := h.startPc.toNat ≤ pc && pc < h.endPc.toNat

structure MethodBody where
  maxStack : UInt16
  maxLocals : UInt16
  code : Array UInt8
  /-- In the order of search. -/
  handlers : List Handler
  deriving DecidableEq, Inhabited

structure Method where
  owner : ClassName
  signature : MethodSignature
  flags : UInt16
  /-- Abstract and native methods have none. -/
  body : Option MethodBody
  deriving DecidableEq, Inhabited

namespace Method

def name (m : Method) : String := m.signature.name

def isPublic (m : Method) : Bool := m.flags &&& 0x0001 ≠ 0

def isPrivate (m : Method) : Bool := m.flags &&& 0x0002 ≠ 0

def isProtected (m : Method) : Bool := m.flags &&& 0x0004 ≠ 0

def isStatic (m : Method) : Bool := m.flags &&& 0x0008 ≠ 0

def isNative (m : Method) : Bool := m.flags &&& 0x0100 ≠ 0

def isAbstract (m : Method) : Bool := m.flags &&& 0x0400 ≠ 0

/-- Visible to the classes of its package only. -/
def isPackagePrivate (m : Method) : Bool := !m.isPublic && !m.isPrivate && !m.isProtected

/-- The slots of the arguments, the receiver's included. -/
def argumentSlots (m : Method) : Nat :=
  m.signature.parameterSlots + if m.isStatic then 0 else 1

def maxLocals (m : Method) : Nat :=
  match m.body with
  | some body => body.maxLocals.toNat
  | none => 0

def code (m : Method) : Array UInt8 :=
  match m.body with
  | some body => body.code
  | none => #[]

def handlers (m : Method) : List Handler :=
  match m.body with
  | some body => body.handlers
  | none => []

end Method

/-- A declared field. -/
structure Field where
  name : String
  type : FieldType
  flags : UInt16
  deriving DecidableEq, Inhabited

def Field.isStatic (f : Field) : Bool := f.flags &&& 0x0008 ≠ 0

structure Class where
  name : ClassName
  flags : UInt16
  superclass : Option ClassId
  interfaces : List ClassId
  /-- The class of the elements of an array class. -/
  component : Option ClassId
  pool : ConstantPool
  fields : List Field
  methods : List Method
  deriving DecidableEq, Inhabited

namespace Class

/-- The flags of a public class whose calls through `super` start at its superclass. -/
def defaultFlags : UInt16 := 0x0021

def isInterface (c : Class) : Bool := c.flags &&& 0x0200 ≠ 0

/-- Whether calls through `super` start their search at the superclass. -/
def hasSuperFlag (c : Class) : Bool := c.flags &&& 0x0020 ≠ 0

/-- The method that the class itself declares with the signature. -/
def method? (c : Class) (s : MethodSignature) : Option Method :=
  c.methods.find? fun m => m.signature = s

def instanceFields (c : Class) : List Field := c.fields.filter fun f => !f.isStatic

def staticFields (c : Class) : List Field := c.fields.filter Field.isStatic

/-- The class of the type's name that stands for a primitive type. -/
def ofPrimitive (p : Primitive) : Class :=
  { name := .scalar p.keyword, flags := 0x0411, superclass := none, interfaces := [],
    component := none, pool := .empty, fields := [], methods := [] }

/-- The array class of a component: public if the component is. -/
def arrayOf (type : FieldType) (component : ClassId) (componentFlags : UInt16)
    (object : ClassId) : Class :=
  { name := .array type, flags := (componentFlags &&& 0x0001) ||| 0x1410,
    superclass := some object, interfaces := [], component := some component, pool := .empty,
    fields := [], methods := [] }

theorem signature_of_method? {c : Class} {s : MethodSignature} {m : Method}
    (h : c.method? s = some m) : m.signature = s := by
  simpa using List.find?_some h

end Class

/-- What a class is defined from. A field declared again with the same name and type, or a method
with the same signature, replaces the earlier one. -/
structure ClassDefinition where
  name : ClassName
  flags : UInt16
  superclass : Option ClassId
  interfaces : List ClassId
  pool : ConstantPool
  fields : List Field
  methods : List (MethodSignature × UInt16 × Option MethodBody)
  deriving Inhabited

namespace ClassDefinition

def ofName (name : ClassName) : ClassDefinition :=
  { name := name, flags := Class.defaultFlags, superclass := none, interfaces := [],
    pool := .empty, fields := [], methods := [] }

/-- The elements whose key no later element has. -/
def keepLast {α κ : Type} [DecidableEq κ] (key : α → κ) : List α → List α
  | [] => []
  | a :: rest =>
    if rest.any fun b => key b = key a then keepLast key rest else a :: keepLast key rest

def toClass (d : ClassDefinition) : Class :=
  let methods := d.methods.map fun m => Method.mk d.name m.1 m.2.1 m.2.2
  { name := d.name, flags := d.flags, superclass := d.superclass, interfaces := d.interfaces,
    component := none, pool := d.pool,
    fields := keepLast (fun f => (f.name, f.type)) d.fields
    methods := keepLast Method.signature methods }

end ClassDefinition

end JavaMachine
