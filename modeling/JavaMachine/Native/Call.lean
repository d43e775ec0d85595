import JavaMachine.Native.Hook

/-!
# Calling native methods

The arguments of a native method lie in local variables as a bytecode callee would find them. They
are read by the descriptor, handed to a hook or to the registered implementation, and the result
is widened for the operand stack of the caller. The native method itself has no frame.
-/
namespace JavaMachine

/-- Whether every method of the class goes through the native bridge. -/
def ClassTable.isHooked (t : ClassTable) (c : ClassId) : Bool :=
  t.name c == .scalar "java/io/PrintStream"

/-- Whether a method is run by the native bridge. -/
def ClassTable.isBridged (t : ClassTable) (c : ClassId) (m : Method) : Bool :=
  m.isNative || t.isHooked c

namespace NativeCall

/-- The argument of the type at an index of the local variables. -/
def argument (locals : LocalVariables) (index : Nat) : FieldType → Except Error NativeValue
  | .primitive p => do return .scalar (← locals.getScalar p index)
  | _ => do return .reference (← locals.getReference index)

/-- The arguments of the types, one after the other from an index on. -/
def parameters (locals : LocalVariables) : Nat → List FieldType → Except Error (List NativeValue)
  | _, [] => .ok []
  | index, t :: rest => do
    let v ← argument locals index t
    return v :: (← parameters locals (index + t.category) rest)

/-- The arguments of a method in the order of declaration, the receiver first. -/
def arguments (m : Method) (locals : LocalVariables) : Except Error (List NativeValue) := do
  if m.isStatic then parameters locals 0 m.signature.parameters
  else
    let receiver ← locals.getReference 0
    return .reference receiver :: (← parameters locals 1 m.signature.parameters)

/-- The result of a native method as the caller's operand stack takes it. -/
def result (type : Option FieldType) (v : Option NativeValue) : World.Operation (Option Value) :=
  match type, v with
  | none, _ => return none
  | some _, some (.scalar s) => return some s.widen
  | some _, some (.reference r) => return some (.reference r)
  | some _, some (.text s) => return some (.reference (← World.newString s))
  | some t, none => throw (.typeMismatch "native result" (.noResult t))

/-- Runs the implementation of a method of a class on arguments. -/
def perform (natives : NativeRegistry) (frames : List Frame) (c : ClassId) (m : Method)
    (arguments : List NativeValue) : World.Operation (Option NativeValue) := do
  let className := (← get).classes.nameText c
  match Hook.select? className m.signature with
  | some hook => hook.run frames arguments
  | none =>
    match natives.lookup? className m.name m.signature.descriptor with
    | some implementation => implementation arguments
    | none => throw (.nativeNotFound className m.name m.signature.descriptor)

/-- Calls a native method of a class. `frames` are the frames alive, innermost first. -/
def run (natives : NativeRegistry) (frames : List Frame) (c : ClassId) (m : Method)
    (values : List Value) : World.Operation (Option Value) := do
  let locals ← ofExcept (LocalVariables.ofArguments m.argumentSlots values)
  let arguments ← ofExcept (arguments m locals)
  let v ← perform natives frames c m arguments
  result m.signature.result v

end NativeCall

end JavaMachine
