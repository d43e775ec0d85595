import JavaMachine.Execution.Basic

/-!
# Local variable instructions

Loads and stores move one value between the local variables and the operand stack and check its
kind. A stored reference may also be the position that a subroutine call left on the stack; it can
be loaded again only by returning from the subroutine.
-/
namespace JavaMachine

namespace Execution

/-- Pops a value of the kind. -/
def popKind (kind : ValueKind) : OperandStack.Change Value :=
  OperandStack.popAs kind.name kind.accept?

/-- The values that a store of the kind takes. -/
def storable (kind : ValueKind) (v : Value) : Option Value :=
  match kind, v with
  | .reference, .returnAddress position => some (.returnAddress position)
  | _, _ => kind.accept? v

/-- What a store of the kind expects. -/
def storableName : ValueKind → String
  | .reference => "reference or returnAddress"
  | kind => kind.name

/-- Writes a local variable. -/
def setLocal (index : UInt16) (v : Value) : Execution Unit := do
  let a ← get
  let locals ← ofExcept (a.frame.locals.set index.toNat v)
  set { a with frame := { a.frame with locals := locals } }

def load (kind : ValueKind) (index : UInt16) : Execution Unit := do
  let v ← ofExcept ((← get).frame.locals.getAs index.toNat kind.name kind.accept?)
  onStack (OperandStack.push v)

def store (kind : ValueKind) (index : UInt16) : Execution Unit := do
  let v ← onStack (OperandStack.popAs (storableName kind) (storable kind))
  setLocal index v

/-- Adds to an `int` variable; the sum wraps around. -/
def increment (index : UInt16) (amount : Int16) : Execution Unit := do
  let v ← ofExcept ((← get).frame.locals.getInt index.toNat)
  setLocal index (.int (v + amount.toInt32))

end Execution

end JavaMachine
