import JavaMachine.Execution.Execute

/-!
# Machines

A machine is a call stack over a world. The frame on top is the executing one, and its position is
the position of the machine. The number of frames is limited.
-/
namespace JavaMachine

structure Machine where
  world : World
  /-- The call stack, the executing frame first. -/
  frames : List Frame
  natives : NativeRegistry
  maxCallDepth : Nat

namespace Machine

/-- A change of the machine that may fail, and then leaves it as it was by that time. -/
abbrev Transition (α : Type) := EStateM Error Machine α

def defaultCallDepth : Nat := 1024

/-- A machine without frames. -/
def start (world : World) (natives : NativeRegistry) (maxCallDepth : Nat) : Machine :=
  ⟨world, [], natives, maxCallDepth⟩

def depth (m : Machine) : Nat := m.frames.length

/-- The position of the executing frame. -/
def pc? (m : Machine) : Option Nat := m.frames.head?.map Frame.pc

/-- Where the frames are, the executing one first. -/
def locations (m : Machine) : List Location := m.frames.map (Frame.location m.world.classes)

/-- Operates on the world. -/
def onWorld {α : Type} (x : World.Operation α) : Transition α :=
  fun ⟨world, frames, natives, maxCallDepth⟩ =>
    match x world with
    | .ok a world => .ok a ⟨world, frames, natives, maxCallDepth⟩
    | .error e world => .error e ⟨world, frames, natives, maxCallDepth⟩

def pushFrame (f : Frame) : Transition Unit := fun m =>
  if m.maxCallDepth ≤ m.depth then .error (.stackOverflow m.depth) m
  else .ok () { m with frames := f :: m.frames }

/-- Calls a method that has a body. -/
def enter (c : ClassId) (method : Method) (arguments : List Value) : Transition Unit := do
  let f ← ofExcept (Frame.ofArguments (← get).world.classes c method arguments)
  pushFrame f

/-- Gives up all but the `base` outermost frames. -/
def truncate (base : Nat) (m : Machine) : Machine :=
  { m with frames := m.frames.drop (m.depth - base) }

theorem depth_truncate (base : Nat) (m : Machine) :
    (m.truncate base).depth = min base m.depth := by
  simp only [truncate, depth, List.length_drop]
  omega

end Machine

end JavaMachine
