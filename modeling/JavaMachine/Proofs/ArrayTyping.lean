import JavaMachine.Proofs.HeapTyping
import JavaMachine.Proofs.Reachability

/-!
# Arrays are well typed

Whatever a machine executes, the arrays on its heap hold what their classes say, and keep their
classes and lengths. Stores through a wider type, copies that stop in the middle, arrays of arrays
and stack traces are all changes that preserve typed heaps, and so they do when they fail. The
registered native methods, and whatever changes the world between calls, are taken to do the same.
-/
namespace JavaMachine

namespace Machine

variable {m₀ m m' : Machine}

theorem preserves_of_comesAfter (respects : m.natives.Respects World.Preserves)
    (after : ComesAfter World.Preserves m m') :
    m'.natives = m.natives ∧ m.world.Preserves m'.world :=
  (invariant_of_tolerated World.tolerated_preserves World.preserves_markInitialized respects
    m.world).comesAfter ⟨rfl, refl_of World.Preserves m.world⟩ after

/-- In every machine that is reached over defined classes from a typed heap, the heap is typed, and
from then on every entity keeps its class and every array its length. -/
theorem arrays_wellTyped (defined : m₀.world.Defined) (typed : m₀.world.HeapTyped)
    (respects : m₀.natives.Respects World.Preserves)
    (reachable : Reachable World.Preserves m₀ m) :
    m.world.HeapTyped ∧ ∀ m', ComesAfter World.Preserves m m' →
      ∀ r e, m.world.heap.get? r = some e →
        ∃ e', m'.world.heap.get? r = some e' ∧ e.SameShape e' := by
  obtain ⟨natives, preserves⟩ := preserves_of_comesAfter respects reachable.comesAfter
  have sound := (preserves ⟨defined.named, typed⟩).1
  refine ⟨sound.typed, fun m' after => ?_⟩
  obtain ⟨-, preserves'⟩ := preserves_of_comesAfter (natives ▸ respects) after
  exact (preserves' sound).2.kept

/-! A method that makes an array of its class and stores an instance in it. -/

def filling : Method :=
  { owner := .scalar "Leaf"
    signature := ⟨"fill", [], some (.array (.object "Leaf"))⟩
    flags := Bootstrap.publicFlag ||| Bootstrap.staticFlag
    body := some ⟨4, 0, #[0x04, 0xbd, 0, 1, 0x59, 0x03, 0xbb, 0, 1, 0x53, 0xb0], []⟩ }

def fillingProgram : List ClassDefinition :=
  [{ ClassDefinition.ofName filling.owner with
      superclass := some 0
      pool := .ofList [.className filling.owner]
      methods := [(filling.signature, filling.flags, filling.body)] }]

def fillingMachine : Machine :=
  start (World.ofProgram .working 0 fillingProgram) .standard defaultCallDepth

theorem fillingProgram_names : ∀ d ∈ fillingProgram, d.name.isArray = false := by decide

set_option maxRecDepth 100000 in
theorem invoke_filling :
    (invoke 10 5 filling [] fillingMachine).map
      (fun r => ((endState r).world.heap.get? (.entity 2))) =
        some (some (.references 6 #[.entity 3])) := by
  decide +kernel

theorem arrays_wellTyped_filling :
    ∃ r, invoke 10 5 filling [] fillingMachine = some r ∧ (endState r).world.HeapTyped ∧
      (endState r).world.heap.get? (.entity 2) = some (.references 6 #[.entity 3]) := by
  obtain ⟨r, ended, array⟩ := Option.map_eq_some_iff.1 invoke_filling
  have defined : fillingMachine.world.Defined :=
    World.defined_ofProgram .working 0 fillingProgram_names
  obtain ⟨typed, -⟩ := arrays_wellTyped defined
    (World.heapTyped_ofProgram .working 0 fillingProgram_names)
    (NativeRegistry.respects_standard World.tolerated_preserves) (.between (.called .start ended))
  exact ⟨r, ended, typed, array⟩

end Machine

end JavaMachine
