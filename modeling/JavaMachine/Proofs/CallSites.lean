import JavaMachine.Proofs.SuperCalls

/-!
# Independence of the call site

What a virtual call runs is chosen by the class of the receiver and the signature. The method that
its reference resolves to matters only if it is visible in its package alone, and which instruction
makes the call does not matter at all.
-/
namespace JavaMachine

namespace ClassTable

variable {n : Nat} {t t' : ClassTable} {s : MethodSignature} {m m' : Method} {c k : ClassId}

/-! ### Selection in tables that agree -/

theorem overriding?_of_visible (visible : m.isPackagePrivate = false) :
    t.overriding? m k =
      (t.declared? m.signature k).filter fun d => !d.isPrivate && !d.isStatic := by
  simp [overriding?, visible]

variable (agree : Agree n t t') (below : c < n) (signature : m'.signature = m.signature)
  (visible : m.isPackagePrivate = false) (visible' : m'.isPackagePrivate = false)
include agree below signature visible visible'

theorem Agree.dispatch_eq : t'.dispatch c m' = t.dispatch c m := by
  unfold dispatch
  rw [agree.superclasses_eq below]
  apply Descending.findSome?_congr
  intro k above
  rw [overriding?_of_visible visible, overriding?_of_visible visible', signature,
    agree.declared?_eq (Nat.lt_of_le_of_lt (le_of_mem_superclasses above) below)]

theorem Agree.select_eq : t'.select c m' s = t.select c m s := by
  unfold select
  rw [agree.dispatch_eq below signature visible visible', agree.findMethod_eq below]

omit agree below signature visible visible' in
theorem le_of_select {d : Method} (selected : t.select c m s = some (k, d)) : k ≤ c := by
  unfold select at selected
  split at selected
  · rename_i found dispatched
    cases selected
    obtain ⟨dispatched, -⟩ := Option.filter_eq_some_iff.1 dispatched
    exact le_of_mem_superclasses (findSome?_eq_some_iff_firstIn.1 dispatched).2.mem
  · exact le_of_findMethod (Option.filter_eq_some_iff.1 selected).1

end ClassTable

inductive Instruction.CallsVirtually (index : UInt16) : Instruction → Prop
  | invokeVirtual : CallsVirtually index (.invokeVirtual index)
  | invokeInterface (count : UInt8) : CallsVirtually index (.invokeInterface index count)

theorem World.SameContents.classOf?_eq {w w' : World} (h : w.SameContents w') (r : Reference) :
    w'.classOf? r = w.classOf? r := by
  unfold classOf?
  rw [h.heap]

theorem World.SameContents.receiverClass_eq {w w' : World} (h : w.SameContents w')
    (arguments : List Value) : w'.receiverClass arguments = w.receiverClass arguments := by
  unfold receiverClass
  rw [funext h.classOf?_eq]

namespace VirtualCall

open Execution

variable {i j : UInt16} {a b : Activation} {natives : NativeRegistry} {callers : List Frame}

theorem execute_eq (natives : NativeRegistry) (callers : List Frame) {p : Instruction}
    (calls : p.CallsVirtually i) (call : VirtualCall i a) :
    p.execute natives callers a = call.run natives callers call.selected := by
  cases calls with
  | invokeVirtual => exact call.invokeVirtual_eq
  | invokeInterface count => exact call.invokeVirtual_eq

/-- Two calls, wherever they are made, on the same receiver and arguments. Their references have one
signature and resolve to methods that are visible in other packages too. -/
structure SameCall (call : VirtualCall i a) (call' : VirtualCall j b) : Prop where
  world : b.world = a.world
  stack : b.frame.stack = a.frame.stack
  signature : call'.reference.signature = call.reference.signature
  visible : call.resolved.isPackagePrivate = false
  visible' : call'.resolved.isPackagePrivate = false
  /-- The class of the receiver is in the table. -/
  known : call.receiver < a.world.classes.size

theorem keepsClasses (call : VirtualCall i a) : a.world.KeepsClasses call.world := by
  have kept := World.keeps_loadClass World.tolerated_keepsClasses.loading call.reference.owner
    a.world
  rwa [call.loads] at kept

theorem sameContents (call : VirtualCall i a) : a.world.SameContents call.world :=
  World.sameContents_of_loadClass call.loads

theorem signature_resolved (call : VirtualCall i a) :
    call.resolved.signature = call.reference.signature :=
  ClassTable.signature_of_declared? (ClassTable.declared_of_resolveMethod call.resolves)

namespace SameCall

variable {call : VirtualCall i a} {call' : VirtualCall j b} (same : call.SameCall call')
include same

theorem popped_eq : call'.arguments = call.arguments ∧ call'.stack = call.stack := by
  have pops := call'.pops
  rw [same.signature, same.stack, call.pops] at pops
  rw [EStateM.Result.ok.injEq] at pops
  exact ⟨pops.1.symm, pops.2.symm⟩

theorem receiver_eq : call'.receiver = call.receiver := by
  have receives := call'.receives
  rw [same.popped_eq.1, call'.sameContents.receiverClass_eq, same.world,
    ← call.sameContents.receiverClass_eq, call.receives] at receives
  exact (Except.ok.inj receives).symm

/-- The two tables that the calls end up with have all classes up to the receiver's in common. -/
theorem agree : ClassTable.Agree a.world.classes.size call.world.classes call'.world.classes := by
  have agree := call'.keepsClasses.agree
  rw [same.world] at agree
  intro c below
  rw [agree c below, call.keepsClasses.agree c below]

theorem selected_eq : call'.selected = call.selected := by
  unfold selected
  rw [same.receiver_eq, same.signature]
  refine same.agree.select_eq same.known ?_ same.visible same.visible'
  rw [call'.signature_resolved, call.signature_resolved, same.signature]

theorem nameText_receiver_eq :
    call'.world.classes.nameText call'.receiver = call.world.classes.nameText call.receiver := by
  unfold ClassTable.nameText
  rw [same.receiver_eq, same.agree.name_eq same.known]

theorem isBridged_eq {k : ClassId} {m : Method} (selected : call.selected = some (k, m)) :
    call'.world.classes.isBridged k m = call.world.classes.isBridged k m := by
  have below := Nat.lt_of_le_of_lt (ClassTable.le_of_select selected) same.known
  unfold ClassTable.isBridged ClassTable.isHooked
  rw [same.agree.name_eq below]

theorem ofArguments_eq {k : ClassId} {m : Method} (selected : call.selected = some (k, m)) :
    Frame.ofArguments call'.world.classes k m call.arguments =
      Frame.ofArguments call.world.classes k m call.arguments := by
  have below := Nat.lt_of_le_of_lt (ClassTable.le_of_select selected) same.known
  unfold Frame.ofArguments Frame.ofLocals ClassTable.nameText
  rw [same.agree.name_eq below]

end SameCall

/-- Virtual dispatch does not depend on the call site. Whatever classes or interfaces two references
name, and whether they are called by `invokevirtual` or `invokeinterface`: on the same receiver and
arguments the calls run the same method of the same class, or both report that it is abstract, and
they leave the same operands. A method with bytecode gets the same frame, and from one frame, if
no class has to be made, the calls have the same outcome altogether. -/
theorem execute_of_sameCall (natives : NativeRegistry) (callers : List Frame) {p q : Instruction}
    (hp : p.CallsVirtually i) (hq : q.CallsVirtually j) (call : VirtualCall i a)
    (call' : VirtualCall j b) (same : call.SameCall call') :
    call'.selected = call.selected ∧ call'.arguments = call.arguments ∧
      call'.chooses.frame.stack = call.chooses.frame.stack ∧
      (call.selected = none → ∃ e,
        e = .abstractMethod (call.world.classes.nameText call.receiver)
          call.reference.signature.name ∧
        p.execute natives callers a = .error e call.chooses ∧
        q.execute natives callers b = .error e call'.chooses) ∧
      (∀ k m, call.selected = some (k, m) →
        p.execute natives callers a = invoke natives callers k m call.arguments call.chooses ∧
        q.execute natives callers b = invoke natives callers k m call.arguments call'.chooses ∧
        (call.world.classes.isBridged k m = false → ∃ made,
          p.execute natives callers a = asking call.chooses made ∧
          q.execute natives callers b = asking call'.chooses made)) ∧
      (b.frame = a.frame → call'.world = call.world →
        q.execute natives callers b = p.execute natives callers a) := by
  have first := execute_eq natives callers hp call
  have second := execute_eq natives callers hq call'
  rw [same.selected_eq] at second
  refine ⟨same.selected_eq, same.popped_eq.1, same.popped_eq.2, fun none => ?abstract,
    fun k m selected => ?runs, fun frame world => ?outcome⟩
  case abstract =>
    rw [none] at first second
    refine ⟨_, rfl, first, ?_⟩
    rw [second, run, same.nameText_receiver_eq, same.signature]
  case runs =>
    rw [selected] at first second
    rw [run, same.popped_eq.1] at second
    refine ⟨first, second, fun own => ⟨Frame.ofArguments call.world.classes k m call.arguments, ?_⟩⟩
    rw [first, second]
    constructor
    · exact invoke_of_bytecode own
    · rw [← same.ofArguments_eq selected]
      exact invoke_of_bytecode ((same.isBridged_eq selected).trans own)
  case outcome =>
    have chooses : call'.chooses = call.chooses := by
      unfold VirtualCall.chooses
      rw [frame, world, same.popped_eq.2]
    rw [first, second]
    cases call.selected with
    | none => rw [run, run, chooses, same.nameText_receiver_eq, same.signature]
    | some target => rw [run, run, chooses, same.popped_eq.1]

/-! A method that is called by a reference to an abstract class and by one to an interface. The
class of the receiver extends the one and implements the other. -/

def shapeMethod : Method := ⟨.scalar "Shape", called, 0x0401, none⟩

def figureMethod : Method := ⟨.scalar "Figure", called, 0x0401, none⟩

def twofoldProgram : List ClassDefinition :=
  [{ SpecialCall.declaring shapeMethod 0 with flags := 0x0601 },
    { SpecialCall.declaring figureMethod 0 with flags := 0x0421 },
    { SpecialCall.declaring (SpecialCall.answering "Circle" 7) 6 with interfaces := [5] },
    { SpecialCall.declaring invoking 0 with
      pool := .ofList [.method ⟨.scalar "Figure", called⟩,
        .interfaceMethod ⟨.scalar "Shape", called⟩] }]

def twofoldInstance : Reference × Heap :=
  (World.ofProgram .working 0 twofoldProgram).heap.allocate (.object 7 .empty)

def twofoldActivation : Activation where
  frame := ⟨8, invoking, 3, 8, .empty 0, ⟨[.reference twofoldInstance.1], 1, 1⟩⟩
  world := { World.ofProgram .working 0 twofoldProgram with heap := twofoldInstance.2 }

theorem findMethod_twofold :
    twofoldActivation.world.classes.findMethod 5 called = some (5, shapeMethod) ∧
      twofoldActivation.world.classes.findMethod 6 called = some (6, figureMethod) := by
  have root : twofoldActivation.world.classes.superclass? 0 = none := rfl
  have shape : twofoldActivation.world.classes.superclass? 5 = some 0 := rfl
  have figure : twofoldActivation.world.classes.superclass? 6 = some 0 := rfl
  unfold ClassTable.findMethod
  rw [ClassTable.superclasses_of_some shape, ClassTable.superclasses_of_some figure,
    ClassTable.superclasses_of_none root]
  exact ⟨rfl, rfl⟩

def callOfFigure : VirtualCall 1 twofoldActivation where
  reference := ⟨.scalar "Figure", called⟩
  refers := rfl
  referred := 6
  world := twofoldActivation.world
  loads := rfl
  declarer := 6
  resolved := figureMethod
  resolves := by
    unfold ClassTable.resolveMethod
    rw [findMethod_twofold.2]
  arguments := [.reference twofoldInstance.1]
  stack := .empty 1
  pops := rfl
  receiver := 7
  receives := rfl

def callOfShape : VirtualCall 2 twofoldActivation where
  reference := ⟨.scalar "Shape", called⟩
  refers := rfl
  referred := 5
  world := twofoldActivation.world
  loads := rfl
  declarer := 5
  resolved := shapeMethod
  resolves := by
    unfold ClassTable.resolveMethod
    rw [findMethod_twofold.1]
  arguments := [.reference twofoldInstance.1]
  stack := .empty 1
  pops := rfl
  receiver := 7
  receives := rfl

theorem sameCall_twofold : callOfFigure.SameCall callOfShape where
  world := rfl
  stack := rfl
  signature := rfl
  visible := by decide
  visible' := by decide
  known := by decide

theorem execute_of_sameCall_twofold :
    callOfShape.selected = callOfFigure.selected ∧
      (Instruction.invokeInterface 2 1).execute .standard [] twofoldActivation =
        (Instruction.invokeVirtual 1).execute .standard [] twofoldActivation := by
  obtain ⟨selected, -, -, -, -, outcome⟩ := execute_of_sameCall .standard [] .invokeVirtual
    (.invokeInterface 1) callOfFigure callOfShape sameCall_twofold
  exact ⟨selected, outcome rfl rfl⟩

end VirtualCall

end JavaMachine
