import JavaMachine.World.Loading

/-!
# Native methods

A native method takes the arguments of a call in the order of declaration, the receiver first, and
may give a result. Methods are registered under the class, the name and the descriptor; a later
registration replaces an earlier one.
-/
namespace JavaMachine

namespace NativeValue

/-- The scalar, when it is of the type. -/
def asScalar (p : Primitive) (v : NativeValue) : Except Error Scalar :=
  match v with
  | scalar s =>
    if s.type = p then .ok s else .error (.typeMismatch ("native " ++ p.keyword) (.native v))
  | _ => .error (.typeMismatch ("native " ++ p.keyword) (.native v))

def asInt (v : NativeValue) : Except Error Int32 :=
  match v with
  | scalar (.int i) => .ok i
  | _ => .error (.typeMismatch "native int" (.native v))

def asLong (v : NativeValue) : Except Error Int64 :=
  match v with
  | scalar (.long i) => .ok i
  | _ => .error (.typeMismatch "native long" (.native v))

def asFloat (v : NativeValue) : Except Error Binary32 :=
  match v with
  | scalar (.float x) => .ok x
  | _ => .error (.typeMismatch "native float" (.native v))

def asDouble (v : NativeValue) : Except Error Binary64 :=
  match v with
  | scalar (.double x) => .ok x
  | _ => .error (.typeMismatch "native double" (.native v))

def asReference (v : NativeValue) : Except Error Reference :=
  match v with
  | reference r => .ok r
  | _ => .error (.typeMismatch "native reference" (.native v))

end NativeValue

/-- The argument at a position. -/
def nativeArgument (arguments : List NativeValue) (index : Nat) : Except Error NativeValue :=
  match arguments[index]? with
  | some v => .ok v
  | none => .error (.typeMismatch "native argument" (.arguments arguments.length))

abbrev NativeMethod := List NativeValue → World.Operation (Option NativeValue)

structure NativeKey where
  className : String
  name : String
  descriptor : String
  deriving DecidableEq, Inhabited

structure NativeRegistry where
  methods : FiniteMap NativeKey NativeMethod

namespace NativeRegistry

def empty : NativeRegistry := ⟨.empty⟩

def size (r : NativeRegistry) : Nat := r.methods.size

def isEmpty (r : NativeRegistry) : Bool := r.methods.isEmpty

def register (r : NativeRegistry) (className name descriptor : String) (m : NativeMethod) :
    NativeRegistry :=
  ⟨r.methods.insert ⟨className, name, descriptor⟩ m⟩

def lookup? (r : NativeRegistry) (className name descriptor : String) : Option NativeMethod :=
  r.methods.get? ⟨className, name, descriptor⟩

end NativeRegistry

end JavaMachine
