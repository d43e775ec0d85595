import JavaMachine.Error.Message
import JavaMachine.Heap.Entity
import JavaMachine.Text.Utf16
import JavaMachine.World.Console

/-!
# Worlds

A world is everything outside the call stack: the classes, which of them are initialized, the
static fields, the heap, the canonical strings and class objects, the console and the clock.
Defining a class again replaces it under its name; the older class stays in the table, where
objects and subclasses still refer to it.
-/
namespace JavaMachine

structure World where
  classes : ClassTable
  /-- The class that is found under a name. -/
  registry : FiniteMap ClassName ClassId
  /-- The classes that stand for primitive types. -/
  primitives : FiniteMap Primitive ClassId
  /-- The classes whose initialization has begun. -/
  initialized : List ClassId
  statics : FiniteMap (ClassId × String) Value
  heap : Heap
  classObjects : FiniteMap ClassName Reference
  /-- The canonical strings by their text. -/
  strings : FiniteMap String Reference
  console : Console
  /-- Nanoseconds since 1970. -/
  clock : Nat
  deriving DecidableEq

namespace World

/-- An operation on the world that may fail, and then leaves it as it was by that time. -/
abbrev Operation (α : Type) := EStateM Error World α

def empty (console : Console) (clock : Nat) : World :=
  { classes := .empty, registry := .empty, primitives := .empty, initialized := [],
    statics := .empty, heap := .empty, classObjects := .empty, strings := .empty,
    console := console, clock := clock }

/-! ### Classes -/

def isInitialized (w : World) (c : ClassId) : Bool := w.initialized.contains c

def markInitialized (w : World) (c : ClassId) : World :=
  if w.isInitialized c then w else { w with initialized := c :: w.initialized }

/-- The classes from `c` up whose initialization has not begun, outermost first. The walk stops at
the first class whose has, since its superclasses came before it. -/
def uninitialized (w : World) (c : ClassId) : List ClassId :=
  ((w.classes.superclasses c).takeWhile fun k => !w.isInitialized k).reverse

def getStatic? (w : World) (c : ClassId) (name : String) : Option Value :=
  w.statics.get? (c, name)

/-- Writes a static field that the class declares. -/
def putStatic? (w : World) (c : ClassId) (name : String) (v : Value) : Option World :=
  if w.statics.contains (c, name) then some { w with statics := w.statics.insert (c, name) v }
  else none

/-- The class that declares the static field found from a class. -/
def staticOwner? (w : World) (c : ClassId) (name : String) : Option ClassId :=
  (w.classes.fieldOrder c).find? fun k => w.statics.contains (k, name)

/-- Puts a class into the table, registers it under its name and gives its static fields their
defaults. -/
def addClass (w : World) (c : Class) : ClassId × World :=
  let id := w.classes.size
  let statics := c.staticFields.map fun f => ((id, f.name), f.type.zero)
  (id, { w with
    classes := w.classes.push c
    registry := w.registry.insert c.name id
    statics := w.statics.insertAll statics })

def define (w : World) (d : ClassDefinition) : ClassId × World := w.addClass d.toClass

def findClass? (w : World) (name : ClassName) : Option ClassId := w.registry.get? name

/-! ### Entities -/

/-- The class of the entity that a reference leads to. -/
def classOf? (w : World) (r : Reference) : Option ClassId := w.heap.owner? r

def allocate (e : Entity) : Operation Reference := fun w =>
  let (r, heap) := w.heap.allocate e
  .ok r { w with heap := heap }

def modifyEntity (r : Reference) (f : Entity → Entity) : Operation Unit := fun w =>
  .ok () { w with heap := w.heap.modify r f }

/-- A new object whose fields hold their defaults. -/
def newObject (c : ClassId) : Operation Reference := do
  let w ← get
  allocate (.object c (Fields.initial (w.classes.instanceFields c)))

def noSuchField (w : World) (c : ClassId) (name : String) : Error :=
  .noSuchField (w.classes.nameText c) name

/-- The class and the fields of an object. -/
def object? (w : World) (r : Reference) : Option (ClassId × Fields) :=
  match w.heap.get? r with
  | some (.object c fields) => some (c, fields)
  | _ => none

/-- Reads a field of an object by name. -/
def readField (w : World) (c : ClassId) (fields : Fields) (name : String) : Except Error Value :=
  match fields.get? name with
  | some v => .ok v
  | none => .error (w.noSuchField c name)

/-- Writes a field of the object at a reference by name. -/
def writeField (r : Reference) (c : ClassId) (fields : Fields) (name : String) (v : Value) :
    Operation Unit := fun w =>
  if fields.contains name then
    .ok () { w with heap := w.heap.modify r fun _ => .object c (fields.insert name v) }
  else .error (w.noSuchField c name) w

/-! ### Texts -/

/-- The characters of an array of `char`s. -/
def charsText? (w : World) (r : Reference) : Option String :=
  match w.heap.get? r with
  | some (.primitives _ storage) =>
    storage.units?.map fun units => String.ofList (Utf16.decode units)
  | _ => none

/-- The text of a string object, read from its `value` field. -/
def stringText? (w : World) (r : Reference) : Option String :=
  match w.object? r with
  | some (c, fields) =>
    if w.classes.name c = .scalar "java/lang/String" then
      match fields.get? "value" with
      | some (.reference chars) => w.charsText? chars
      | _ => none
    else none
  | none => none

/-- The identity of an entity in hexadecimal digits. -/
def identityText (r : Reference) : String :=
  String.ofList (Nat.toDigits 16 r.identityHash.toInt.toNat)

/-- How diagnostics name what a reference leads to: its class and its identity. -/
def describe (w : World) (r : Reference) : String :=
  match w.classOf? r with
  | some c => w.classes.nameText c ++ "@" ++ identityText r
  | none => "null"

def errorText (w : World) (e : Error) : String := e.message w.describe

end World

end JavaMachine
