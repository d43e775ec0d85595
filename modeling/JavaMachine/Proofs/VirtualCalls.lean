import JavaMachine.Proofs.MethodOwners
import JavaMachine.Proofs.MethodSelection

/-!
# Virtual calls

Which method a virtual call runs, compared with the one that should answer it.
-/
namespace JavaMachine

/-- A virtual call that has come to the choice of the method: what its reference is and resolves
to, with the class that declares it, and what the arguments and the class of the receiver are. -/
structure VirtualCall (index : UInt16) (a : Activation) where
  reference : MethodReference
  refers : (a.world.classes.pool a.frame.owner).methodAt index = .ok reference
  referred : ClassId
  world : World
  loads : World.loadClass reference.owner a.world = .ok referred world
  declarer : ClassId
  resolved : Method
  resolves : world.classes.resolveMethod referred reference = .ok (declarer, resolved)
  arguments : List Value
  stack : OperandStack
  pops : OperandStack.popArguments reference.signature.parameters true a.frame.stack =
    .ok arguments stack
  receiver : ClassId
  receives : world.receiverClass arguments = .ok receiver

namespace VirtualCall

open Execution

variable {index : UInt16} {a : Activation} {natives : NativeRegistry} {callers : List Frame}

/-- The activation with the class loaded and the arguments taken off the stack. -/
def chooses (call : VirtualCall index a) : Activation :=
  ⟨{ a.frame with stack := call.stack }, call.world⟩

def run (call : VirtualCall index a) (natives : NativeRegistry) (callers : List Frame) :
    Option (ClassId × Method) → EStateM.Result Error Activation Action
  | some (k, m) => invoke natives callers k m call.arguments call.chooses
  | none => .error (.abstractMethod (call.world.classes.nameText call.receiver)
      call.reference.signature.name) call.chooses

variable (call : VirtualCall index a)

/-- The method that the call runs. -/
def selected : Option (ClassId × Method) :=
  call.world.classes.select call.receiver call.resolved call.reference.signature

theorem invokeVirtual_eq :
    invokeVirtual natives callers index a = call.run natives callers call.selected := by
  have popped : onStack (OperandStack.popArguments call.reference.signature.parameters true)
      ⟨a.frame, call.world⟩ = .ok call.arguments call.chooses :=
    onStack_eq_ok.2 ⟨call.stack, call.pops, rfl⟩
  have held : (ofExcept (call.chooses.world.receiverClass call.arguments) : Execution ClassId)
      call.chooses = .ok call.receiver call.chooses :=
    ofExcept_eq_ok.2 ⟨call.receives, rfl⟩
  unfold invokeVirtual
  rw [bind_of_ok (methodReference_eq_ok.2 ⟨call.refers, rfl⟩),
    bind_of_ok (onWorld_eq_ok.2 ⟨call.world, call.loads, rfl⟩), get_bind,
    bind_of_ok (ofExcept_eq_ok.2 ⟨call.resolves, rfl⟩)]
  dsimp only
  rw [bind_of_ok popped, get_bind, bind_of_ok held]
  have chosen : call.chooses.world.classes.select call.receiver call.resolved
      call.reference.signature = call.selected := rfl
  rw [chosen]
  cases call.selected <;> rfl

theorem isVirtual (owns : call.world.classes.OwnsMethods)
    (own : call.resolved.isPrivate = false) (virtual : call.resolved.isStatic = false) :
    call.world.classes.IsVirtual call.reference.signature call.declarer call.resolved where
  declared := ClassTable.declared_of_resolveMethod call.resolves
  owner := owns.owner_eq (ClassTable.declared_of_resolveMethod call.resolves)
  isPrivate := own
  isStatic := virtual

/-- The declarations that matter to the call, each with its class. -/
structure Candidates (call : VirtualCall index a) where
  /-- The first one that is the resolved method or overrides it. -/
  answer : ClassId × Method
  first : ClassTable.FirstIn (call.world.classes.superclasses call.receiver)
    (call.world.classes.Answers call.reference.signature call.declarer) answer.1
  declared : call.world.classes.declared? call.reference.signature answer.1 = some answer.2
  /-- The one that dispatch finds. -/
  found : ClassId × Method
  dispatched : call.world.classes.dispatch call.receiver call.resolved = some found
  nearest : ClassId × Method
  closest : call.world.classes.firstDeclared call.reference.signature
    (call.world.classes.superclasses call.receiver) = some nearest

theorem exists_candidates
    (h : call.world.classes.IsVirtual call.reference.signature call.declarer call.resolved)
    (inherits : call.declarer ∈ call.world.classes.superclasses call.receiver) :
    Nonempty call.Candidates := by
  obtain ⟨k, first⟩ := ClassTable.exists_firstIn
    (P := call.world.classes.Answers call.reference.signature call.declarer) inherits (.inl rfl)
  obtain ⟨d, declared, -, -⟩ := h.answers_declared first.choose_spec.choose_spec.2.1
  obtain ⟨k₁, d₁, dispatched⟩ := h.exists_dispatch inherits
  obtain ⟨k₂, d₂, closest⟩ := h.exists_firstDeclared inherits
  exact ⟨(k, d), first, declared, (k₁, d₁), dispatched, (k₂, d₂), closest⟩

/-- Which method a virtual call on an instance of the class runs: what dispatch finds, which is
the resolved method or overrides it, or the nearest declaration of the signature if that is
abstract. It is the declaration that should answer exactly if this overrides the resolved method
without another one in between, and if, where dispatch finds an abstract method, no other method is
nearer. -/
theorem invokeVirtual_selects_iff (natives : NativeRegistry) (callers : List Frame)
    (owns : a.world.classes.OwnsMethods) (own : call.resolved.isPrivate = false)
    (virtual : call.resolved.isStatic = false)
    (inherits : call.declarer ∈ call.world.classes.superclasses call.receiver) :
    Nonempty call.Candidates ∧ ∀ c : call.Candidates,
      invokeVirtual natives callers index a = call.run natives callers call.selected ∧
      call.selected = (if c.found.2.isAbstract then ClassTable.unlessAbstract c.nearest
        else some c.found) ∧
      (call.world.classes.Answers call.reference.signature call.declarer c.found.1 ∧
        c.found.2.isPrivate = false ∧ c.found.2.isStatic = false) ∧
      (call.selected = ClassTable.unlessAbstract c.answer ↔
        (c.found.2.isAbstract = false → c.answer.1 = call.declarer ∨
          call.world.classes.OverridesDirectly call.reference.signature c.answer.1
            call.declarer) ∧
        (c.found.2.isAbstract = true → c.nearest.2.isAbstract = false →
          call.world.classes.Answers call.reference.signature call.declarer c.nearest.1) ∧
        (c.found.2.isAbstract = true → c.nearest.2.isAbstract = true →
          c.answer.2.isAbstract = true)) := by
  have kept := World.keeps_loadClass World.tolerated_ownsMethods.loading call.reference.owner
    a.world
  rw [call.loads] at kept
  have h := call.isVirtual (kept owns) own virtual
  refine ⟨call.exists_candidates h inherits, fun c => ⟨call.invokeVirtual_eq, ?_, ?_, ?_⟩⟩
  · exact ClassTable.select_eq c.dispatched c.closest
  · exact h.answers_of_dispatch inherits c.dispatched
  · exact h.select_eq_iff inherits c.first c.declared c.dispatched c.closest

/-! A method that calls a method on an instance of a subclass of the abstract class that declares
it. The subclass declares a method of the same signature, with flags of its own. -/

def called : MethodSignature := ⟨"m", [], some (.primitive .int)⟩

def seven (flags : UInt16) : Method :=
  { owner := .scalar "Sub"
    signature := called
    flags := flags
    body := some ⟨1, 1, #[0x10, 0x07, 0xac], []⟩ }

def calling : Method :=
  { owner := .scalar "Main"
    signature := ⟨"run", [], some (.primitive .int)⟩
    flags := Bootstrap.publicFlag ||| Bootstrap.staticFlag
    body := some ⟨1, 0, #[0xbb, 0x00, 0x01, 0xb6, 0x00, 0x02, 0xac], []⟩ }

def callingProgram (flags : UInt16) : List ClassDefinition :=
  [{ ClassDefinition.ofName (.scalar "Base") with
      flags := 0x0421
      superclass := some 0
      methods := [(called, 0x0401, none)] },
    { ClassDefinition.ofName (seven flags).owner with
      superclass := some 5
      methods := [(called, flags, (seven flags).body)] },
    { ClassDefinition.ofName calling.owner with
      superclass := some 0
      pool := .ofList [.className (.scalar "Sub"), .method ⟨.scalar "Base", called⟩]
      methods := [(calling.signature, calling.flags, calling.body)] }]

def instanceOfSub (flags : UInt16) : Reference × Heap :=
  (World.ofProgram .working 0 (callingProgram flags)).heap.allocate (.object 6 .empty)

def callingActivation (flags : UInt16) : Activation where
  frame := ⟨7, calling, 3, 6, .empty 0, ⟨[.reference (instanceOfSub flags).1], 1, 1⟩⟩
  world := { World.ofProgram .working 0 (callingProgram flags) with
    heap := (instanceOfSub flags).2 }

theorem superclasses_calling (flags : UInt16) :
    (callingActivation flags).world.classes.superclasses 6 = [6, 5, 0] ∧
      (callingActivation flags).world.classes.superclasses 5 = [5, 0] := by
  have sub : (callingActivation flags).world.classes.superclass? 6 = some 5 := rfl
  have base : (callingActivation flags).world.classes.superclass? 5 = some 0 := rfl
  have root : (callingActivation flags).world.classes.superclass? 0 = none := rfl
  rw [ClassTable.superclasses_of_some sub, ClassTable.superclasses_of_some base,
    ClassTable.superclasses_of_none root]
  exact ⟨rfl, rfl⟩

def missing : Method := ⟨.scalar "Base", called, 0x0401, none⟩

theorem findMethod_calling (flags : UInt16) :
    (callingActivation flags).world.classes.findMethod 5 called = some (5, missing) := by
  unfold ClassTable.findMethod
  rw [(superclasses_calling flags).2]
  rfl

def callOf (flags : UInt16) : VirtualCall 2 (callingActivation flags) where
  reference := ⟨.scalar "Base", called⟩
  refers := rfl
  referred := 5
  world := (callingActivation flags).world
  loads := rfl
  declarer := 5
  resolved := missing
  resolves := by
    unfold ClassTable.resolveMethod
    rw [findMethod_calling]
  arguments := [.reference (instanceOfSub flags).1]
  stack := .empty 1
  pops := rfl
  receiver := 6
  receives := rfl

theorem ownsMethods_calling (flags : UInt16) :
    (callingActivation flags).world.classes.OwnsMethods :=
  Machine.ownsMethods_of_reachable .working 0 (callingProgram flags)
    (NativeRegistry.respects_standard World.tolerated_ownsMethods) Machine.defaultCallDepth
    (.between (.changed .start id))

theorem inherits_calling (flags : UInt16) :
    (callOf flags).declarer ∈
      (callOf flags).world.classes.superclasses (callOf flags).receiver := by
  change 5 ∈ (callingActivation flags).world.classes.superclasses 6
  rw [(superclasses_calling flags).1]
  simp

theorem nearest_calling (flags : UInt16) :
    (callOf flags).world.classes.firstDeclared called
      ((callOf flags).world.classes.superclasses (callOf flags).receiver) =
        some (6, seven flags) := by
  change ClassTable.firstDeclared (callingActivation flags).world.classes called
    ((callingActivation flags).world.classes.superclasses 6) = _
  rw [(superclasses_calling flags).1]
  rfl

theorem overridesDirectly_public :
    (callOf 1).world.classes.OverridesDirectly called 6 5 where
  above := inherits_calling 1
  other := by decide
  declared := ⟨seven 1, missing, rfl, rfl, rfl, rfl, .inl rfl⟩

/-- Where the subclass overrides the abstract method. -/
def overriding : (callOf 1).Candidates where
  answer := (6, seven 1)
  first := ⟨[], [5, 0], (superclasses_calling 1).1, .inr (.single overridesDirectly_public),
    by simp⟩
  declared := rfl
  found := (6, seven 1)
  dispatched := by
    unfold ClassTable.dispatch
    change List.findSome? _ ((callingActivation 1).world.classes.superclasses 6) = _
    rw [(superclasses_calling 1).1]
    rfl
  nearest := (6, seven 1)
  closest := nearest_calling 1

theorem invokeVirtual_selects_overriding :
    invokeVirtual .standard [] 2 (callingActivation 1) =
        (callOf 1).run .standard [] (callOf 1).selected ∧
      (callOf 1).selected = ClassTable.unlessAbstract (6, seven 1) := by
  obtain ⟨-, selects⟩ := (callOf 1).invokeVirtual_selects_iff .standard []
    (ownsMethods_calling 1) rfl rfl (inherits_calling 1)
  obtain ⟨runs, -, -, iff⟩ := selects overriding
  refine ⟨runs, iff.2 ⟨fun _ => .inr overridesDirectly_public, fun abstract => ?_,
    fun abstract => ?_⟩⟩ <;> cases abstract

theorem selected_private : (callOf 2).selected = some (6, seven 2) := by
  have dispatched : (callOf 2).world.classes.dispatch 6 missing = some (5, missing) := by
    unfold ClassTable.dispatch
    change List.findSome? _ ((callingActivation 2).world.classes.superclasses 6) = _
    rw [(superclasses_calling 2).1]
    rfl
  exact ClassTable.select_eq dispatched (nearest_calling 2)

/-- The abstract method is what should answer the call, but a private method of the subclass
runs. -/
theorem invokeVirtual_runs_private :
    ¬ ∀ natives callers index a (call : VirtualCall index a), a.world.classes.OwnsMethods →
      call.resolved.isPrivate = false → call.resolved.isStatic = false →
      call.world.classes.isInterface call.declarer = false →
      call.declarer ∈ call.world.classes.superclasses call.receiver → ∀ k d,
      ClassTable.FirstIn (call.world.classes.superclasses call.receiver)
        (call.world.classes.Answers call.reference.signature call.declarer) k →
      call.world.classes.declared? call.reference.signature k = some d →
      invokeVirtual natives callers index a =
        call.run natives callers (ClassTable.unlessAbstract (k, d)) := by
  intro answers
  have hidden : ¬ (callOf 2).world.classes.Answers called 5 6 := by
    rintro (same | overrides)
    · cases same
    · obtain ⟨d, hd, own, -⟩ := overrides.declared
      cases hd
      cases own
  have first : ClassTable.FirstIn ((callOf 2).world.classes.superclasses 6)
      ((callOf 2).world.classes.Answers called 5) 5 :=
    ⟨[6], [0], (superclasses_calling 2).1, .inl rfl, by simpa using hidden⟩
  have failed := answers .standard [] 2 (callingActivation 2) (callOf 2) (ownsMethods_calling 2)
    rfl rfl rfl (inherits_calling 2) 5 missing first rfl
  rw [invokeVirtual_eq, selected_private] at failed
  cases failed

end VirtualCall

end JavaMachine
