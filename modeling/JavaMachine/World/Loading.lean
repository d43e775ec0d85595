import JavaMachine.World.Basic

/-!
# Loading classes

Named classes have to be defined. Array classes and the classes of primitive types are made when
they are first asked for, and need no initialization; an array class is made after its component
class, so that a missing element class is what is reported. Class objects and interned strings are
made once and kept.
-/
namespace JavaMachine

namespace World

def objectName : ClassName := .scalar "java/lang/Object"

def stringName : ClassName := .scalar "java/lang/String"

def classClassName : ClassName := .scalar "java/lang/Class"

/-- The class defined under a name. -/
def loadScalar (name : String) : Operation ClassId := fun w =>
  match w.registry.get? (.scalar name) with
  | some c => .ok c w
  | none => .error (.classNotFound name) w

def primitiveClass (p : Primitive) : Operation ClassId := fun w =>
  match w.primitives.get? p with
  | some c => .ok c w
  | none =>
    let id := w.classes.size
    .ok id { w with
      classes := w.classes.push (Class.ofPrimitive p)
      primitives := w.primitives.insert p id
      initialized := id :: w.initialized }

/-- The class of an array with components of the type. -/
def makeArrayClass (type : FieldType) (component : ClassId) : Operation ClassId := do
  let object ← loadScalar "java/lang/Object"
  let w ← get
  let flags :=
    match w.classes.get? component with
    | some k => k.flags
    | none => 0
  let (id, w) := w.addClass (Class.arrayOf type component flags object)
  set (w.markInitialized id)
  return id

/-- The array class of a component type. -/
def loadArray : FieldType → Operation ClassId
  | .primitive p => do
    match (← get).registry.get? (.array (.primitive p)) with
    | some c => return c
    | none => makeArrayClass (.primitive p) (← primitiveClass p)
  | .object name => do
    match (← get).registry.get? (.array (.object name)) with
    | some c => return c
    | none => makeArrayClass (.object name) (← loadScalar name)
  | .array type => do
    match (← get).registry.get? (.array (.array type)) with
    | some c => return c
    | none => makeArrayClass (.array type) (← loadArray type)

/-- The class with a name. -/
def loadClass : ClassName → Operation ClassId
  | .scalar name => loadScalar name
  | .array type => loadArray type

/-- The class that stands for a type. -/
def typeClass : FieldType → Operation ClassId
  | .primitive p => primitiveClass p
  | .object name => loadScalar name
  | .array type => loadArray type

/-- Makes the class object of a class and keeps it under the name of the class. -/
def makeClassObject (c : ClassId) (component : Option Reference) : Operation Reference := do
  let owner ← loadScalar "java/lang/Class"
  let r ← allocate (.classObject owner c component)
  modify fun w => { w with classObjects := w.classObjects.insert (w.classes.name c) r }
  return r

/-- The class objects along a chain of component classes, that of the first one last. -/
def classObjectOf : List ClassId → Operation (Option Reference)
  | [] => return none
  | c :: components => do
    let w ← get
    match w.classObjects.get? (w.classes.name c) with
    | some r => return some r
    | none => return some (← makeClassObject c (← classObjectOf components))

end World

/-- The class, the class of its components, and so on. -/
def ClassTable.components (t : ClassTable) (c : ClassId) : List ClassId :=
  c ::
    match h : t.component? c with
    | some k =>
      have := component?_lt h
      components t k
    | none => []
termination_by c

namespace World

/-- The class object of a class. -/
def classObject (c : ClassId) : Operation Reference := do
  let w ← get
  match ← classObjectOf (w.classes.components c) with
  | some r => return r
  | none => return .null

/-- A new string object with the given units. -/
def newStringOfUnits (units : List UInt16) : Operation Reference := do
  let owner ← loadScalar "java/lang/String"
  let charsClass ← loadArray (.primitive .char)
  let chars ← allocate (.primitives charsClass (Storage.ofUnits units))
  let w ← get
  let fields := Fields.initial (w.classes.instanceFields owner)
  if fields.contains "value" then
    allocate (.object owner (fields.insert "value" (.reference chars)))
  else throw (w.noSuchField owner "value")

/-- A new string object with the given text. -/
def newString (text : String) : Operation Reference := newStringOfUnits (Utf16.encode text.toList)

/-- The one string object kept for a text. -/
def internString (text : String) : Operation Reference := do
  match (← get).strings.get? text with
  | some r => return r
  | none =>
    let r ← newString text
    modify fun w => { w with strings := w.strings.insert text r }
    return r

end World

end JavaMachine
