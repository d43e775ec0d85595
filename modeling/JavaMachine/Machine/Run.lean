import JavaMachine.Machine.Exception

/-!
# Running

A machine repeats one cycle: decode the instruction at the position of the executing frame, execute
it, and carry out what it asks for. A failure on the way becomes an exception where it can, and ends
the run where it cannot. Runs go on until only the frames are left that were there before. The
number of cycles is bounded by an argument; a run that needs more has no outcome, and with a larger
bound every outcome stays the same.
-/
namespace JavaMachine

namespace Machine

/-- What a run comes to. There is none if the run does not end within its cycles. -/
abbrev Outcome (α : Type) := Option (EStateM.Result Error Machine α)

/-- Goes on after a run that ended without failure. -/
def Outcome.andThen {α β : Type} (x : Outcome α) (f : α → Machine → Outcome β) : Outcome β :=
  match x with
  | none => none
  | some (.ok a m) => f a m
  | some (.error e m) => some (.error e m)

/-- Decodes and executes the instruction at the position of the executing frame. The opcode is
known once the instruction is decoded. -/
def step : Machine → Option UInt8 × EStateM.Result Error Machine Action
  | ⟨world, [], natives, maxCallDepth⟩ =>
    (none, .ok (.leave none) ⟨world, [], natives, maxCallDepth⟩)
  | ⟨world, frame :: callers, natives, maxCallDepth⟩ =>
    match Activation.fetch ⟨frame, world⟩ with
    | .error e => (none, .error e ⟨world, frame :: callers, natives, maxCallDepth⟩)
    | .ok (opcode, instruction, activation) =>
      match instruction.execute natives callers activation with
      | .ok action ⟨frame, world⟩ =>
        (some opcode, .ok action ⟨world, frame :: callers, natives, maxCallDepth⟩)
      | .error e ⟨frame, world⟩ =>
        (some opcode, .error e ⟨world, frame :: callers, natives, maxCallDepth⟩)

/-- Moves the executing frame on. -/
def proceed (m : Machine) : Machine :=
  match m.frames with
  | [] => m
  | f :: callers => { m with frames := f.advance :: callers }

/-- Gives up the executing frame. Its value goes to the caller, or out of the run if the caller is
not above the base. -/
def leave (base : Nat) (result : Option Value) : Transition (Option Value) := fun m =>
  match m.frames.tail with
  | [] => .ok result { m with frames := [] }
  | caller :: below =>
    if below.length < base then .ok result { m with frames := caller :: below }
    else
      let caller := caller.advance
      match result with
      | none => .ok none { m with frames := caller :: below }
      | some v =>
        match OperandStack.push v caller.stack with
        | .ok _ stack => .ok none { m with frames := { caller with stack := stack } :: below }
        | .error e stack => .error e { m with frames := { caller with stack := stack } :: below }

/-- Carries out what an instruction asked for, and gives the value that leaves the run. -/
def perform (base : Nat) : Action → Transition (Option Value)
  | .proceed => do
    modify proceed
    return none
  | .call callee => do
    pushFrame callee
    return none
  | .prepare initializer => do
    pushFrame initializer
    modify fun m => { m with world := m.world.markInitialized initializer.owner }
    return none
  | .leave result => leave base result
  | .raise exception => do
    unwind base exception
    return none

/-- Raises a failure as an exception, or else ends the run with it. -/
def handleFailure (base : Nat) (opcode : Option UInt8) (e : Error) : Transition Unit := do
  if e.hasContext then
    modify (truncate base)
    throw e
  match ← onWorld (World.exceptionFor e) with
  | some exception => unwind base exception
  | none =>
    let e := e.inContext opcode (← get).locations
    modify (truncate base)
    throw e

/-- One instruction with all its consequences. -/
def cycle (base : Nat) (m : Machine) : EStateM.Result Error Machine (Option Value) :=
  let (opcode, outcome) := step m
  let outcome :=
    match outcome with
    | .ok action m => perform base action m
    | .error e m => .error e m
  match outcome with
  | .ok v m => .ok v m
  | .error e m =>
    match handleFailure base opcode e m with
    | .ok _ m => .ok none m
    | .error e m => .error e m

/-- Runs until only `base` frames are left. `result` is the value that has left the run. -/
def runAbove (base : Nat) : Nat → Option Value → Machine → Outcome (Option Value)
  | 0, _, _ => none
  | bound + 1, result, m =>
    if m.depth ≤ base then some (.ok result m)
    else
      match cycle base m with
      | .ok v m => runAbove base bound v m
      | .error e m => some (.error e m)

/-- Runs until no frames are left, and gives the value of the outermost one. -/
def run (bound : Nat) (m : Machine) : Outcome (Option Value) := runAbove 0 bound none m

/-- Puts the frame of an initializer in place and marks its class initialized. -/
def enterInitializer (c : ClassId) (initializer : Method) : Transition Unit := do
  enter c initializer []
  modify fun m => { m with world := m.world.markInitialized c }

/-- Initializes the classes one after the other, whatever the initializers before do. -/
def initializeAll (bound : Nat) : List ClassId → Machine → Outcome Unit
  | [], m => some (.ok () m)
  | c :: rest, m =>
    match m.world.classes.declared? .initializer c with
    | none => initializeAll bound rest { m with world := m.world.markInitialized c }
    | some initializer =>
      Outcome.andThen (some (enterInitializer c initializer m)) fun _ entered =>
        (runAbove m.depth bound none entered).andThen fun _ m => initializeAll bound rest m

/-- Calls a native method directly, on the frames that are alive. -/
def callNative (c : ClassId) (method : Method) (arguments : List Value) :
    Transition (Option Value) := do
  let m ← get
  onWorld (NativeCall.run m.natives m.frames c method arguments)

/-- Initializes a class and runs one of its methods, above the frames that are alive, to its end.
The receiver comes first among the arguments. -/
def invoke (bound : Nat) (c : ClassId) (method : Method) (arguments : List Value) (m : Machine) :
    Outcome (Option Value) :=
  (initializeAll bound (m.world.uninitialized c) m).andThen fun _ m =>
    if m.world.classes.isBridged c method then some (callNative c method arguments m)
    else
      Outcome.andThen (some (enter c method arguments m)) fun _ entered =>
        runAbove m.depth bound none entered

end Machine

end JavaMachine
