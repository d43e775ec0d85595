import JavaMachine.Frame.Basic
import JavaMachine.Native.Registry
import JavaMachine.World.Element

/-!
# Hooks

Native behaviours that need more than their arguments: the console, the frames alive, the insides
of arrays. A hook is chosen by class and name ahead of the registry.
-/
namespace JavaMachine

inductive Hook
  /-- Write an argument to a stream, with or without a line feed. -/
  | print (newline : Bool)
  | arrayCopy
  /-- Record the frames alive in a throwable. -/
  | fillInStackTrace
  | getComponentType
  deriving DecidableEq, Repr, Inhabited

namespace World

/-! ### Printed texts -/

def identityString (w : World) (r : Reference) : String :=
  match w.classOf? r with
  | some c => (w.classes.name c).dotted ++ "@" ++ identityText r
  | none => "null@" ++ identityText r

/-- The text of a class object: what the class is, and its name. -/
def classText (w : World) (c : ClassId) : String :=
  let name := w.classes.name c
  if w.classes.isInterface c then "interface " ++ name.dotted
  else if (w.classes.superclass? c).isNone ∧ name ≠ objectName ∧ ¬name.isArray then name.dotted
  else "class " ++ name.dotted

/-- How a reference is printed: strings and arrays of `char`s by their characters. -/
def referenceText (w : World) (r : Reference) : String :=
  match w.stringText? r with
  | some text => text
  | none =>
    match w.heap.get? r with
    | none => "null"
    | some (.primitives _ _) => (w.charsText? r).getD (w.identityString r)
    | some (.classObject _ c _) => w.classText c
    | some _ => w.identityString r

/-- How a value is printed. -/
def printText (w : World) : NativeValue → String
  | .scalar (.boolean v) => toString v
  | .scalar (.byte v) => toString v
  | .scalar (.char v) => String.ofList (Utf16.decode [v])
  | .scalar (.short v) => toString v
  | .scalar (.int v) => toString v
  | .scalar (.long v) => toString v
  | .scalar (.float v) => v.text .guest
  | .scalar (.double v) => v.text .guest
  | .text s => s
  | .reference r => w.referenceText r

/-- The descriptor of a stream object. -/
def streamDescriptor (w : World) (r : Reference) : Except Error Int32 :=
  match w.heap.get? r with
  | none => .error .nullPointer
  | some (.object c fields) => do
    match ← w.readField c fields "fd" with
    | .int descriptor => .ok descriptor
    | v => .error (.typeMismatch "int" (.value v))
  | some _ => .error (.typeMismatch "print stream" (.reference r))

def writeConsole (descriptor : Int32) (text : String) : Operation Unit := fun w =>
  match w.console.write descriptor text with
  | .ok console => .ok () { w with console := console }
  | .error e => .error e w

/-! ### Copying between arrays -/

def incompatibleArrays (w : World) (source target : Reference) : Error :=
  .arrayStore (w.dottedClass source) (w.dottedClass target)

/-- The greatest `int`. -/
def maxInt : Int := 2147483647

/-- Checks that a range lies in an array and gives its start. -/
def checkRange (position length : Int32) (size : Nat) : Except Error Nat :=
  let last := position.toInt + length.toInt
  if position.toInt < 0 then .error (.arrayIndexOutOfBounds position size)
  else if (size : Int) < last then
    .error (.arrayIndexOutOfBounds (Int32.ofInt (min last maxInt)) size)
  else .ok position.toInt.toNat

/-- The starts of the two ranges of a copy. -/
def checkRanges (sourcePosition : Int32) (sourceSize : Nat) (targetPosition : Int32)
    (targetSize : Nat) (length : Int32) : Except Error (Nat × Nat) := do
  if length.toInt < 0 then throw (.arrayIndexOutOfBounds length sourceSize)
  let start ← checkRange sourcePosition length sourceSize
  let position ← checkRange targetPosition length targetSize
  return (start, position)

/-- Copies a range of one array into another, which may be the same. The range is read as a whole
first. Copying references stops at the first one that does not fit the target. -/
def arrayCopy (source : Reference) (sourcePosition : Int32) (target : Reference)
    (targetPosition : Int32) (length : Int32) : Operation Unit := do
  let w ← get
  match w.heap.get? source, w.heap.get? target with
  | none, _ | _, none => throw .nullPointer
  | some (.primitives _ s), some (.primitives _ t) =>
    if s.type = t.type then
      let (start, position) ←
        ofExcept (checkRanges sourcePosition s.size targetPosition t.size length)
      modifyEntity target (.overwriteScalars position (s.extract start length.toInt.toNat))
    else throw (w.incompatibleArrays source target)
  | some (.references _ s), some (.references c t) =>
    let (start, position) ←
      ofExcept (checkRanges sourcePosition s.size targetPosition t.size length)
    let range := (s.extract start (start + length.toInt.toNat)).toList
    let fitting := range.takeWhile (w.storable c)
    modifyEntity target (.overwriteReferences position fitting)
    match range.drop fitting.length with
    | [] => return ()
    | misfit :: _ =>
      let w ← get
      throw (.arrayStore (w.dottedClass misfit) (w.classes.name c).dotted)
  | some _, some _ => throw (w.incompatibleArrays source target)

/-! ### Stack traces -/

/-- The class and method of a frame. -/
def traceText (w : World) (f : Frame) : String :=
  (w.classes.name f.owner).dotted ++ "." ++ f.method.name

def newStrings : List String → Operation (List Reference)
  | [] => return []
  | text :: rest => do
    let r ← newString text
    return r :: (← newStrings rest)

/-- Records the frames, innermost first, in the `stackTrace` field of a throwable, if it has
one. -/
def fillInStackTrace (frames : List Frame) (throwable : Reference) : Operation Unit := do
  let w ← get
  match w.object? throwable with
  | some (c, fields) =>
    if fields.contains "stackTrace" then
      let elements ← newStrings (frames.map w.traceText)
      let arrayClass ← loadArray (.object "java/lang/String")
      let trace ← allocate (.references arrayClass elements.toArray)
      writeField throwable c fields "stackTrace" (.reference trace)
  | none => return ()

end World

namespace Hook

/-- The name of the hook in diagnostics. -/
def text : Hook → String
  | print newline => "Print \x7b newline: " ++ toString newline ++ " \x7d"
  | arrayCopy => "ArrayCopy"
  | fillInStackTrace => "FillInStackTrace"
  | getComponentType => "GetComponentType"

/-- The forms of the method that records a stack trace. -/
def stackTraceDescriptors : List String := ["()Ljava/lang/Throwable;", "(I)Ljava/lang/Throwable;"]

/-- The hook for a method, if it has one. -/
def select? (className : String) (s : MethodSignature) : Option Hook :=
  if className = "java/io/PrintStream" ∧ s.name = "print" then some (print false)
  else if className = "java/io/PrintStream" ∧ s.name = "println" then some (print true)
  else if className = "java/lang/System" ∧ s.name = "arraycopy" then some arrayCopy
  else if className = "java/lang/Class" ∧ s.name = "getComponentType" then some getComponentType
  else if className = "java/lang/Throwable" ∧ s.name = "fillInStackTrace" ∧
      s.descriptor ∈ stackTraceDescriptors then some fillInStackTrace
  else none

/-- The argument at a position, read in a way. -/
def read {α : Type} (arguments : List NativeValue) (index : Nat)
    (as : NativeValue → Except Error α) : World.Operation α :=
  ofExcept ((nativeArgument arguments index).bind as)

/-- Runs the hook. `frames` are the frames alive at the call, innermost first. -/
def run (h : Hook) (frames : List Frame) (arguments : List NativeValue) :
    World.Operation (Option NativeValue) := do
  match h with
  | print newline =>
    let stream ← read arguments 0 NativeValue.asReference
    let w ← get
    let descriptor ← ofExcept (w.streamDescriptor stream)
    let text :=
      match arguments[1]? with
      | some v => w.printText v
      | none => ""
    World.writeConsole descriptor (if newline then text ++ "\n" else text)
    return none
  | arrayCopy =>
    let source ← read arguments 0 NativeValue.asReference
    let sourcePosition ← read arguments 1 NativeValue.asInt
    let target ← read arguments 2 NativeValue.asReference
    let targetPosition ← read arguments 3 NativeValue.asInt
    let length ← read arguments 4 NativeValue.asInt
    World.arrayCopy source sourcePosition target targetPosition length
    return none
  | fillInStackTrace =>
    let throwable ← read arguments 0 NativeValue.asReference
    World.fillInStackTrace frames throwable
    return some (.reference throwable)
  | getComponentType =>
    let r ← read arguments 0 NativeValue.asReference
    match (← get).heap.get? r with
    | some (.classObject _ _ component) => return some (.reference (component.getD .null))
    | _ => throw (.typeMismatch "class object" (.reference r))

end Hook

end JavaMachine
