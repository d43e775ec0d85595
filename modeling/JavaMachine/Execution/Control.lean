import JavaMachine.Execution.Variable

/-!
# Jumps, subroutines, switches and returns

Every jump goes to an offset from its own instruction, and only into the code. A switch finds the
offset for its key first; a table is the list of the offsets of consecutive keys.
-/
namespace JavaMachine

namespace Execution

/-- Calls a subroutine of the same method: the position after the call goes on the stack. -/
def jumpToSubroutine (offset : Int32) : Execution Unit := do
  let frame := (← get).frame
  let target ← ofExcept (frame.branchTarget offset)
  onStack (OperandStack.push (.returnAddress frame.nextPc))
  setNextPc target

def returnFromSubroutine (index : UInt16) : Execution Unit := do
  let position ← ofExcept ((← get).frame.locals.getReturnAddress index.toNat)
  setNextPc position

/-- The offset that a table gives for a key between its bounds. -/
def tableOffset (default low high : Int32) (offsets : List Int32) (key : Int32) :
    Except Error Int32 :=
  if key < low ∨ high < key then .ok default
  else
    match offsets[(key.toInt - low.toInt).toNat]? with
    | some offset => .ok offset
    | none => .error .fault

/-- The offset of the first pair with the key. -/
def pairOffset (default : Int32) (pairs : List (Int32 × Int32)) (key : Int32) : Int32 :=
  (pairs.lookup key).getD default

def tableSwitch (default low high : Int32) (offsets : List Int32) : Execution Unit := do
  let key ← onStack OperandStack.popInt
  branch (← ofExcept (tableOffset default low high offsets key))

def lookupSwitch (default : Int32) (pairs : List (Int32 × Int32)) : Execution Unit := do
  let key ← onStack OperandStack.popInt
  branch (pairOffset default pairs key)

/-- A result reduced to the declared type, for the types narrower than `int`. -/
def narrowResult (type : Option FieldType) (v : Value) : Value :=
  match type, v with
  | some (.primitive p), .int i =>
    match Scalar.ofInt? p i with
    | some s => s.widen
    | none => .int i
  | _, v => v

/-- Leaves the frame with a value of the kind. -/
def returnValue (kind : ValueKind) : Execution Action := do
  let v ← onStack (popKind kind)
  return .leave (some (narrowResult (← get).frame.method.signature.result v))

end Execution

end JavaMachine
