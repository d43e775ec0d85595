import JavaMachine.Execution.Basic

/-!
# Class initialization

A class is initialized after its superclasses, before its first instance, static access or static
call. An instruction that needs an initialized class either finds it so, or gives way to the first
initializer that has to run and is executed again afterwards, on the same operands. A class without
an initializer is initialized on the spot.
-/
namespace JavaMachine

/-- The signature of class initializers. -/
def MethodSignature.initializer : MethodSignature := ⟨"<clinit>", [], none⟩

namespace World

/-- Marks classes initialized up to the first one that declares an initializer, and gives that. -/
def nextInitializer : List ClassId → Operation (Option (ClassId × Method))
  | [] => return none
  | c :: rest => do
    match (← get).classes.declared? .initializer c with
    | some m => return some (c, m)
    | none =>
      modify fun w => w.markInitialized c
      nextInitializer rest

end World

namespace Execution

/-- Begins the initialization of a class, if it has not begun. The current instruction comes again
if there is an initializer to run first. -/
def beginInitialization (c : ClassId) : Execution (Option Frame) := do
  let pending := (← get).world.uninitialized c
  match ← onWorld (World.nextInitializer pending) with
  | none => return none
  | some (k, m) =>
    let a ← get
    let initializer ← ofExcept (Frame.ofLocals a.world.classes k m (.empty m.maxLocals))
    setNextPc a.frame.pc
    return some initializer

/-- Executes the rest of an instruction once a class is initialized. -/
def whenInitialized (c : ClassId) (rest : Execution Action) : Execution Action := do
  match ← beginInitialization c with
  | some initializer => return .prepare initializer
  | none => rest

end Execution

end JavaMachine
