import JavaMachine.World.Loading

/-!
# The first classes

The classes that the machine itself relies on. They are initialized from the start, and the two
standard streams are in place.
-/
namespace JavaMachine

namespace Bootstrap

def publicFlag : UInt16 := 0x0001

def privateFlag : UInt16 := 0x0002

def staticFlag : UInt16 := 0x0008

def finalFlag : UInt16 := 0x0010

def nativeFlag : UInt16 := 0x0101

def staticNativeFlag : UInt16 := 0x0109

def privateStaticNativeFlag : UInt16 := 0x010B

def objectType : FieldType := .object "java/lang/Object"

def stringType : FieldType := .object "java/lang/String"

def classType : FieldType := .object "java/lang/Class"

def charArrayType : FieldType := .array (.primitive .char)

def streamType : FieldType := .object "java/io/PrintStream"

/-- A method without a body. -/
def native (name : String) (parameters : List FieldType) (result : Option FieldType)
    (flags : UInt16) : MethodSignature × UInt16 × Option MethodBody :=
  (⟨name, parameters, result⟩, flags, none)

/-- The root of the hierarchy, with a constructor that only returns. -/
def object : ClassDefinition :=
  { ClassDefinition.ofName (.scalar "java/lang/Object") with
    methods := [
      (⟨"<init>", [], none⟩, publicFlag, some ⟨0, 1, #[0xb1], []⟩),
      native "registerNatives" [] none privateStaticNativeFlag,
      native "hashCode" [] (some (.primitive .int)) nativeFlag,
      native "getClass" [] (some classType) nativeFlag] }

def string (object : ClassId) : ClassDefinition :=
  { ClassDefinition.ofName (.scalar "java/lang/String") with
    superclass := some object
    fields := [⟨"value", charArrayType, privateFlag ||| finalFlag⟩]
    methods := [native "intern" [] (some stringType) nativeFlag] }

def classClass (object : ClassId) : ClassDefinition :=
  { ClassDefinition.ofName (.scalar "java/lang/Class") with
    superclass := some object
    methods := [native "getComponentType" [] (some classType) nativeFlag] }

/-- The types that streams print. -/
def printable : List FieldType :=
  [.primitive .boolean, .primitive .char, .primitive .int, .primitive .long, .primitive .float,
    .primitive .double, charArrayType, stringType, objectType]

def printStream (object : ClassId) : ClassDefinition :=
  { ClassDefinition.ofName (.scalar "java/io/PrintStream") with
    superclass := some object
    fields := [⟨"fd", .primitive .int, privateFlag⟩]
    methods := native "println" [] none nativeFlag ::
      printable.flatMap fun t => [native "print" [t] none nativeFlag,
        native "println" [t] none nativeFlag] }

def system (object : ClassId) : ClassDefinition :=
  { ClassDefinition.ofName (.scalar "java/lang/System") with
    superclass := some object
    fields := [⟨"out", streamType, publicFlag ||| staticFlag⟩,
      ⟨"err", streamType, publicFlag ||| staticFlag⟩]
    methods := [
      native "registerNatives" [] none privateStaticNativeFlag,
      native "arraycopy" [objectType, .primitive .int, objectType, .primitive .int,
        .primitive .int] none staticNativeFlag,
      native "identityHashCode" [objectType] (some (.primitive .int)) staticNativeFlag,
      native "currentTimeMillis" [] (some (.primitive .long)) staticNativeFlag,
      native "nanoTime" [] (some (.primitive .long)) staticNativeFlag] }

end Bootstrap

namespace World

/-- Defines a class and gives its number. -/
def defineClass (d : ClassDefinition) : Operation ClassId := fun w =>
  let (id, w) := w.define d
  .ok id w

/-- A stream object for a descriptor. -/
def newStream (owner : ClassId) (descriptor : Int32) : Operation Reference := do
  let w ← get
  let fields := Fields.initial (w.classes.instanceFields owner)
  allocate (.object owner (fields.insert "fd" (.int descriptor)))

def bootstrap : Operation Unit := do
  let object ← defineClass Bootstrap.object
  let _ ← defineClass (Bootstrap.string object)
  let _ ← defineClass (Bootstrap.classClass object)
  let printStream ← defineClass (Bootstrap.printStream object)
  let system ← defineClass (Bootstrap.system object)
  let out ← newStream printStream 1
  let err ← newStream printStream 2
  modify fun w => { w with
    statics := (w.statics.insert (system, "out") (.reference out)).insert (system, "err")
      (.reference err)
    initialized := (List.range w.classes.size) }

/-- The world before any program is loaded. -/
def start (console : Console) (clock : Nat) : World :=
  match bootstrap (empty console clock) with
  | .ok _ w => w
  | .error _ w => w

end World

end JavaMachine
