import JavaMachine.Proofs.DefaultMethods
import JavaMachine.Proofs.StableResolution

/-!
# Calls through `super`

A special call has its method before it takes the arguments, so it cannot depend on the receiver: it
looks the signature up from the class that its reference names or, if it is a call through `super`,
from the direct superclass of the executing class. All that a lookup finds is in the class where it
starts or above, and a call through `super` never comes back to the class that makes it.
-/
namespace JavaMachine

namespace ClassTable

variable {t : ClassTable} {s : MethodSignature} {m : Method} {b c d k p : ClassId}

/-! ### What a lookup finds -/

/-- A lookup finds the first declaration on the way up, or if there is none the first one in the
order of the interfaces. -/
theorem findMethod_eq_some_iff :
    t.findMethod c s = some (k, m) ↔ t.declared? s k = some m ∧
      (FirstIn (t.superclasses c) (t.Declares s) k ∨
        (∀ b ∈ t.superclasses c, ¬ t.Declares s b) ∧
          FirstIn (t.interfaceOrder c) (t.Declares s) k) := by
  cases inherited : t.firstDeclared s (t.superclasses c) with
  | some found =>
    obtain ⟨k', m'⟩ := found
    obtain ⟨declared, first⟩ := findSome?_eq_some_iff_firstIn.1 inherited
    rw [findMethod, inherited]
    constructor
    · rintro ⟨⟩
      exact ⟨declared, .inl first⟩
    · rintro ⟨here, first' | ⟨bare, -⟩⟩
      · cases first.unique first'
        cases declared.symm.trans here
        rfl
      · exact absurd first.holds (bare k' first.mem)
  | none =>
    have bare : ∀ b ∈ t.superclasses c, ¬ t.Declares s b := by
      intro b member declares
      have missed := List.findSome?_eq_none_iff.1 inherited b member
      simp only [Option.map_eq_none_iff] at missed
      simp [Declares, missed] at declares
    rw [findMethod, inherited]
    refine firstDeclared_interfaceOrder_iff.trans (and_congr_right fun _ => ?_)
    constructor
    · exact fun first => .inr ⟨bare, first⟩
    · rintro (first | ⟨-, first⟩)
      · exact absurd first.holds (bare k first.mem)
      · exact first

theorem le_of_findMethod (found : t.findMethod c s = some (k, m)) : k ≤ c := by
  obtain ⟨-, first | ⟨-, first⟩⟩ := findMethod_eq_some_iff.1 found
  · exact le_of_mem_superclasses first.mem
  · exact le_of_mem_interfaceOrder first.mem

/-! ### Where the lookup starts -/

/-- A call from class `c` to a method of class `d` is one through `super`: the method is no
constructor and the class no interface, and the executing class, which has the flag for it, is below
a class of that name. -/
structure IsSuperCall (t : ClassTable) (c d : ClassId) (s : MethodSignature) : Prop where
  ordinary : s.name ≠ "<init>"
  concrete : t.isInterface d = false
  flagged : (t.get? c).any Class.hasSuperFlag = true
  above : ∃ k ∈ (t.superclasses c).tail, t.name k = t.name d

theorem tail_superclasses (up : t.superclass? c = some p) :
    (t.superclasses c).tail = t.superclasses p := by
  rw [superclasses_of_some up, List.tail_cons]

theorem superTarget?_eq_some_iff :
    t.superTarget? c d s = some p ↔ t.superclass? c = some p ∧ t.IsSuperCall c d s := by
  have descends : t.isDescendant p d = true ↔ ∃ k ∈ t.superclasses p, t.name k = t.name d := by
    simp [isDescendant, sameName]
  unfold superTarget?
  constructor
  · intro start
    split at start
    · rename_i allowed
      obtain ⟨up, below⟩ := Option.filter_eq_some_iff.1 start
      obtain ⟨ordinary, concrete, flagged⟩ := allowed
      refine ⟨up, ordinary, by simpa using concrete, flagged, ?_⟩
      rw [tail_superclasses up]
      exact descends.1 below
    · cases start
  · rintro ⟨up, ordinary, concrete, flagged, above⟩
    rw [tail_superclasses up] at above
    rw [if_pos ⟨ordinary, by simp [concrete], flagged⟩]
    exact Option.filter_eq_some_iff.2 ⟨up, descends.2 above⟩

theorem IsSuperCall.exists_superclass (h : t.IsSuperCall c d s) :
    ∃ p, t.superclass? c = some p := by
  obtain ⟨k, member, -⟩ := h.above
  cases up : t.superclass? c with
  | some p => exact ⟨p, rfl⟩
  | none =>
    rw [superclasses_of_none up] at member
    cases member

/-- The method that a special call from class `c` to a method of class `d` finds. -/
def special (t : ClassTable) (c d : ClassId) (s : MethodSignature) : Option (ClassId × Method) :=
  t.findMethod ((t.superTarget? c d s).getD d) s

theorem special_of_superCall (h : t.IsSuperCall c d s) (up : t.superclass? c = some p) :
    t.special c d s = t.findMethod p s := by
  rw [special, superTarget?_eq_some_iff.2 ⟨up, h⟩]
  rfl

theorem special_of_firstIn (h : t.IsSuperCall c d s) (up : t.superclass? c = some p)
    (first : FirstIn (t.superclasses p) (t.Declares s) k) :
    ∃ m, t.declared? s k = some m ∧ t.special c d s = some (k, m) := by
  obtain ⟨m, declared⟩ := Option.isSome_iff_exists.1 first.holds
  refine ⟨m, declared, ?_⟩
  rw [special_of_superCall h up]
  exact findMethod_eq_some_iff.2 ⟨declared, .inl first⟩

theorem special_of_not_superCall (h : ¬ t.IsSuperCall c d s) :
    t.special c d s = t.findMethod d s := by
  cases start : t.superTarget? c d s with
  | none => rw [special, start, Option.getD_none]
  | some p => exact absurd (superTarget?_eq_some_iff.1 start).2 h

/-- What is found through `super` is neither in the class that makes the call nor below. -/
theorem not_mem_superclasses_of_findMethod (up : t.superclass? c = some p)
    (found : t.findMethod p s = some (k, m)) : c ∉ t.superclasses k := by
  intro below
  have lower := Nat.lt_of_le_of_lt (le_of_findMethod found) (superclass?_lt up)
  exact absurd (le_of_mem_superclasses below) (Nat.not_le.2 lower)

end ClassTable

/-! ### Errors -/

def Error.IsNoSuchMethod (e : Error) : Prop := ∃ className name descriptor,
  e = .noSuchMethod className name descriptor

namespace OperandStack

theorem fails_popAs {α : Type} (expected : String) (read? : Value → Option α) :
    Fails (¬ Error.IsNoSuchMethod ·) (popAs expected read?) := by
  unfold popAs
  refine .bind (fun s e s' failed => ?_) fun v => ?_
  · unfold pop at failed
    split at failed <;> cases failed
    rintro ⟨_, _, _, ⟨⟩⟩
  · split
    · exact .pure _
    · exact .throw (by rintro ⟨_, _, _, ⟨⟩⟩)

theorem fails_popTyped (type : FieldType) : Fails (¬ Error.IsNoSuchMethod ·) (popTyped type) := by
  cases type <;> exact .bind (fails_popAs _ _) fun _ => .pure _

theorem fails_popParameters (parameters : List FieldType) :
    ∀ popped, Fails (¬ Error.IsNoSuchMethod ·) (popParameters parameters popped) := by
  induction parameters with
  | nil => exact fun popped => .pure popped
  | cons t earlier ih => exact fun popped => .bind (fails_popTyped t) fun v => ih _

theorem fails_popArguments (parameters : List FieldType) :
    Fails (¬ Error.IsNoSuchMethod ·) (popArguments parameters true) := by
  unfold popArguments
  refine .bind (fails_popParameters _ _) fun arguments => ?_
  exact .bind (fails_popAs _ _) fun _ => .pure _

end OperandStack

theorem LocalVariables.not_isNoSuchMethod_of_setAll {l : LocalVariables} {index : Nat}
    {values : List Value} {e : Error} (failed : l.setAll index values = .error e) :
    ¬ e.IsNoSuchMethod := by
  induction values generalizing l index with
  | nil => cases failed
  | cons v rest ih =>
    unfold setAll at failed
    cases written : l.set index v with
    | ok l' =>
      rw [written] at failed
      exact ih failed
    | error e' =>
      rw [written] at failed
      cases failed
      unfold set at written
      split at written
      · cases written
        rintro ⟨_, _, _, ⟨⟩⟩
      · split at written
        · cases written
          rintro ⟨_, _, _, ⟨⟩⟩
        · cases written

theorem Frame.not_isNoSuchMethod_of_ofArguments {t : ClassTable} {c : ClassId} {m : Method}
    {arguments : List Value} {e : Error} (failed : ofArguments t c m arguments = .error e) :
    ¬ e.IsNoSuchMethod := by
  unfold ofArguments at failed
  cases made : LocalVariables.ofArguments m.maxLocals arguments with
  | error e' =>
    rw [made] at failed
    cases failed
    exact LocalVariables.not_isNoSuchMethod_of_setAll made
  | ok locals =>
    rw [made] at failed
    change ofLocals t c m locals = .error e at failed
    unfold ofLocals at failed
    split at failed
    · cases failed
    · split at failed <;> cases failed <;> rintro ⟨_, _, _, ⟨⟩⟩

namespace Execution

variable {natives : NativeRegistry} {callers : List Frame} {a a' : Activation} {k : ClassId}
  {m : Method} {arguments : List Value} {e : Error}

/-- No search for a method fails in the invocation of one, unless a native method does so. -/
theorem invoke_eq_error (failed : invoke natives callers k m arguments a = .error e a') :
    ¬ e.IsNoSuchMethod ∨ a.world.classes.isBridged k m = true ∧ ∃ w,
      NativeCall.run natives (a.frame :: callers) k m arguments a.world = .error e w ∧
      a' = ⟨a.frame, w⟩ := by
  cases bridged : a.world.classes.isBridged k m with
  | true =>
    rw [invoke_of_bridged bridged] at failed
    rcases bind_eq_error.1 failed with ran | ⟨v, a₁, -, later⟩
    · exact .inr ⟨rfl, onWorld_eq_error.1 ran⟩
    · cases v with
      | none => cases later
      | some v =>
        rcases bind_eq_error.1 later with pushed | ⟨_, a₂, -, done⟩
        · obtain ⟨stack, refused, -⟩ := onStack_eq_error.1 pushed
          simp only [OperandStack.push] at refused
          split at refused <;> cases refused
          exact .inl (by rintro ⟨_, _, _, ⟨⟩⟩)
        · cases done
  | false =>
    rw [invoke_of_bytecode bridged] at failed
    cases made : Frame.ofArguments a.world.classes k m arguments with
    | ok callee =>
      rw [made] at failed
      cases failed
    | error e' =>
      rw [made] at failed
      cases failed
      exact .inl (Frame.not_isNoSuchMethod_of_ofArguments made)

/-- Takes the arguments of a call, and hands control to the method if there is a receiver. -/
def handOver (natives : NativeRegistry) (callers : List Frame) (s : MethodSignature) (k : ClassId)
    (m : Method) : Execution Action := do
  let arguments ← onStack (OperandStack.popArguments s.parameters true)
  let _ ← ofExcept ((← get).world.receiverClass arguments)
  invoke natives callers k m arguments

end Execution

/-! ### Calls -/

/-- A special call whose class is loaded: what its reference is and names. -/
structure SpecialCall (index : UInt16) (a : Activation) where
  reference : MethodReference
  refers : (a.world.classes.pool a.frame.owner).methodAt index = .ok reference
  referred : ClassId
  world : World
  loads : World.loadClass reference.owner a.world = .ok referred world

namespace SpecialCall

open Execution

variable {index : UInt16} {a a' : Activation} {natives : NativeRegistry} {callers : List Frame}

def found (call : SpecialCall index a) : Option (ClassId × Method) :=
  call.world.classes.special a.frame.owner call.referred call.reference.signature

variable (call : SpecialCall index a)

theorem invokeSpecial_eq :
    invokeSpecial natives callers index a =
      match call.found with
      | some (k, m) => handOver natives callers call.reference.signature k m ⟨a.frame, call.world⟩
      | none => .error call.reference.missing ⟨a.frame, call.world⟩ := by
  unfold invokeSpecial
  rw [bind_of_ok (methodReference_eq_ok.2 ⟨call.refers, rfl⟩),
    bind_of_ok (onWorld_eq_ok.2 ⟨call.world, call.loads, rfl⟩), get_bind]
  dsimp only
  unfold ClassTable.resolveMethod
  have found : call.world.classes.findMethod ((call.world.classes.superTarget? a.frame.owner
      call.referred call.reference.signature).getD call.referred) call.reference.signature =
      call.found := rfl
  rw [found]
  cases call.found <;> rfl

theorem invokeSpecial_of_none (missing : call.found = none) :
    invokeSpecial natives callers index a = .error (.noSuchMethod call.reference.owner.text
      call.reference.signature.name call.reference.signature.descriptor) ⟨a.frame, call.world⟩ := by
  rw [call.invokeSpecial_eq, missing]
  rfl

/-- The call has arguments, with a receiver among them, above the rest of the stack. -/
structure Passes (arguments : List Value) (stack : OperandStack) : Prop where
  pops : OperandStack.popArguments call.reference.signature.parameters true a.frame.stack =
    .ok arguments stack
  receives : ∃ receiver, call.world.receiverClass arguments = .ok receiver

/-- The activation with the class loaded and the arguments taken off the stack. -/
def chooses (stack : OperandStack) : Activation := ⟨{ a.frame with stack := stack }, call.world⟩

/-- A native method that is called fails itself. -/
structure NativeFails (natives : NativeRegistry) (callers : List Frame) (k : ClassId) (m : Method)
    (e : Error) (a' : Activation) : Prop where
  bridged : call.world.classes.isBridged k m = true
  fails : ∃ arguments stack w, call.Passes arguments stack ∧
    NativeCall.run natives ((call.chooses stack).frame :: callers) k m arguments call.world =
      .error e w ∧ a' = ⟨(call.chooses stack).frame, w⟩

variable {call} {k : ClassId} {m : Method} {arguments : List Value} {stack : OperandStack}
  {e : Error}

theorem Passes.handOver_eq (passes : call.Passes arguments stack) :
    handOver natives callers call.reference.signature k m ⟨a.frame, call.world⟩ =
      invoke natives callers k m arguments (call.chooses stack) := by
  obtain ⟨receiver, receives⟩ := passes.receives
  have held : (ofExcept ((call.chooses stack).world.receiverClass arguments) : Execution ClassId)
      (call.chooses stack) = .ok receiver (call.chooses stack) := ofExcept_eq_ok.2 ⟨receives, rfl⟩
  have popped : onStack (OperandStack.popArguments call.reference.signature.parameters true)
      ⟨a.frame, call.world⟩ = .ok arguments (call.chooses stack) :=
    onStack_eq_ok.2 ⟨stack, passes.pops, rfl⟩
  unfold handOver
  rw [bind_of_ok popped, get_bind, bind_of_ok held]

theorem Passes.invokeSpecial_eq (passes : call.Passes arguments stack)
    (found : call.found = some (k, m)) :
    invokeSpecial natives callers index a =
      invoke natives callers k m arguments (call.chooses stack) := by
  rw [call.invokeSpecial_eq, found]
  exact passes.handOver_eq

theorem passes_of_handOver {action : Action}
    (done : handOver natives callers call.reference.signature k m ⟨a.frame, call.world⟩ =
      .ok action a') :
    ∃ arguments stack, call.Passes arguments stack ∧
      invoke natives callers k m arguments (call.chooses stack) = .ok action a' := by
  obtain ⟨arguments, a₁, popped, done⟩ := bind_eq_ok.1 done
  obtain ⟨stack, pops, rfl⟩ := onStack_eq_ok.1 popped
  obtain ⟨_, _, ⟨⟩, done⟩ := bind_eq_ok.1 done
  obtain ⟨receiver, a₂, held, done⟩ := bind_eq_ok.1 done
  obtain ⟨receives, rfl⟩ := ofExcept_eq_ok.1 held
  exact ⟨arguments, stack, ⟨pops, receiver, receives⟩, done⟩

theorem handOver_eq_error
    (failed : handOver natives callers call.reference.signature k m ⟨a.frame, call.world⟩ =
      .error e a') : ¬ e.IsNoSuchMethod ∨ call.NativeFails natives callers k m e a' := by
  rcases bind_eq_error.1 failed with popping | ⟨arguments, a₁, popped, failed⟩
  · obtain ⟨stack, popping, -⟩ := onStack_eq_error.1 popping
    exact .inl (OperandStack.fails_popArguments _ _ _ _ popping)
  obtain ⟨stack, pops, rfl⟩ := onStack_eq_ok.1 popped
  rw [get_bind] at failed
  cases receives : call.world.receiverClass arguments with
  | error e' =>
    have unheld : e = .nullPointer := by
      change (ofExcept (call.world.receiverClass arguments) >>= _ : Execution Action)
        (call.chooses stack) = _ at failed
      rw [receives] at failed
      unfold World.receiverClass at receives
      split at receives <;> cases receives
      cases failed
      rfl
    subst unheld
    exact .inl (by rintro ⟨_, _, _, ⟨⟩⟩)
  | ok receiver =>
    have passes : call.Passes arguments stack := ⟨pops, receiver, receives⟩
    rw [bind_of_ok (ofExcept_eq_ok.2 ⟨receives, rfl⟩)] at failed
    refine (invoke_eq_error failed).imp_right ?_
    rintro ⟨bridged, w, ran, rfl⟩
    exact ⟨bridged, arguments, stack, w, passes, ran, rfl⟩

theorem NativeFails.handOver_eq (fails : call.NativeFails natives callers k m e a') :
    handOver natives callers call.reference.signature k m ⟨a.frame, call.world⟩ = .error e a' := by
  obtain ⟨arguments, stack, w, passes, ran, rfl⟩ := fails.fails
  rw [passes.handOver_eq, invoke_of_bridged fails.bridged]
  exact bind_of_error (onWorld_eq_error.2 ⟨w, ran, rfl⟩)

theorem found_of_eq_call {callee : Frame}
    (done : invokeSpecial natives callers index a = .ok (.call callee) a') :
    call.found = some (callee.owner, callee.method) := by
  rw [call.invokeSpecial_eq] at done
  cases found : call.found with
  | none =>
    rw [found] at done
    cases done
  | some target =>
    rw [found] at done
    obtain ⟨arguments, stack, -, ran⟩ := passes_of_handOver done
    have begins := Frame.begins_of_ofArguments (invoke_eq_call ran)
    rw [begins.owner, begins.method]

/-- A call reports that there is no such method if it finds none, or if a native method that it runs
does. -/
theorem invokeSpecial_eq_noSuchMethod_iff {className name descriptor : String} :
    invokeSpecial natives callers index a =
      .error (.noSuchMethod className name descriptor) a' ↔
    (call.found = none ∧ className = call.reference.owner.text ∧
      name = call.reference.signature.name ∧
      descriptor = call.reference.signature.descriptor ∧ a' = ⟨a.frame, call.world⟩) ∨
    ∃ k m, call.found = some (k, m) ∧
      call.NativeFails natives callers k m (.noSuchMethod className name descriptor) a' := by
  constructor
  · intro failed
    cases found : call.found with
    | none =>
      rw [call.invokeSpecial_of_none found] at failed
      cases failed
      exact .inl ⟨rfl, rfl, rfl, rfl, rfl⟩
    | some target =>
      rw [call.invokeSpecial_eq, found] at failed
      have missing : Error.IsNoSuchMethod (.noSuchMethod className name descriptor) :=
        ⟨className, name, descriptor, rfl⟩
      have fails := (handOver_eq_error failed).resolve_left (not_not_intro missing)
      exact .inr ⟨target.1, target.2, rfl, fails⟩
  · rintro (⟨missing, rfl, rfl, rfl, rfl⟩ | ⟨k, m, found, fails⟩)
    · exact call.invokeSpecial_of_none missing
    · rw [call.invokeSpecial_eq, found]
      exact fails.handOver_eq

/-- Which method a special call runs. It is found from the executing class `c`, the class `d` and
the signature of the reference, before any argument is looked at. A call through `super` finds what
the direct superclass of `c` has or inherits, nearest first, and never what `c` or a class below it
declares. Every other call finds what `d` has or inherits. The method found runs on every receiver,
and if there is none, the call reports the class, name and descriptor that it was to have. Nothing
else reports that, unless a native method that runs does. -/
theorem execute_special (natives : NativeRegistry) (callers : List Frame) (t : ClassTable)
    (c d : ClassId) (s : MethodSignature) :
    (t.IsSuperCall c d s → ∃ p, t.superclass? c = some p ∧ t.special c d s = t.findMethod p s ∧
      (∀ k, ClassTable.FirstIn (t.superclasses p) (t.Declares s) k →
        ∃ m, t.declared? s k = some m ∧ t.special c d s = some (k, m)) ∧
      ∀ k m, t.special c d s = some (k, m) → c ∉ t.superclasses k) ∧
    (¬ t.IsSuperCall c d s → t.special c d s = t.findMethod d s) ∧
    ∀ index a (call : SpecialCall index a), call.world.classes = t → a.frame.owner = c →
      call.referred = d → call.reference.signature = s →
      let executed := (Instruction.invokeSpecial index).execute natives callers a
      (∀ k m, t.special c d s = some (k, m) → ∀ arguments stack, call.Passes arguments stack →
        executed = invoke natives callers k m arguments (call.chooses stack)) ∧
      (t.special c d s = none → executed =
        .error (.noSuchMethod call.reference.owner.text s.name s.descriptor)
          ⟨a.frame, call.world⟩) ∧
      (∀ callee a', executed = .ok (.call callee) a' →
        t.special c d s = some (callee.owner, callee.method)) ∧
      ∀ className name descriptor a',
        executed = .error (.noSuchMethod className name descriptor) a' ↔
          (t.special c d s = none ∧ className = call.reference.owner.text ∧ name = s.name ∧
            descriptor = s.descriptor ∧ a' = ⟨a.frame, call.world⟩) ∨
          ∃ k m, t.special c d s = some (k, m) ∧
            call.NativeFails natives callers k m (.noSuchMethod className name descriptor) a' := by
  refine ⟨?through, ClassTable.special_of_not_superCall, ?runs⟩
  case through =>
    intro superCall
    obtain ⟨p, up⟩ := superCall.exists_superclass
    have same := ClassTable.special_of_superCall superCall up
    refine ⟨p, up, same, fun k first => ClassTable.special_of_firstIn superCall up first, ?_⟩
    intro k m found
    exact ClassTable.not_mem_superclasses_of_findMethod up (same.symm.trans found)
  case runs =>
    rintro index a call rfl rfl rfl rfl
    exact ⟨fun k m found arguments stack passes => passes.invokeSpecial_eq found,
      call.invokeSpecial_of_none, fun callee a' done => found_of_eq_call done,
      fun className name descriptor a' => invokeSpecial_eq_noSuchMethod_iff⟩

/-! A method that calls the one it overrides through `super`, by a reference to the class at the
top. The class between declares the method too, and the call is made on an instance of a
subclass. Another reference is to a method that no class declares. -/

def answering (owner : String) (n : UInt8) : Method :=
  { owner := .scalar owner
    signature := VirtualCall.called
    flags := Bootstrap.publicFlag
    body := some ⟨1, 1, #[0x10, n, 0xac], []⟩ }

def deferring : Method :=
  { answering "Derived" 0 with body := some ⟨1, 1, #[0x2a, 0xb7, 0x00, 0x01, 0xac], []⟩ }

def declaring (m : Method) (superclass : ClassId) : ClassDefinition :=
  { ClassDefinition.ofName m.owner with
    flags := 0x0021
    superclass := some superclass
    methods := [(m.signature, m.flags, m.body)] }

def absent : MethodSignature := ⟨"absent", [.primitive .int], some (.object "java/lang/String")⟩

def layeredProgram : List ClassDefinition :=
  [declaring (answering "app/Base" 1) 0, declaring (answering "Middle" 2) 5,
    { declaring deferring 6 with
      pool := .ofList [.method ⟨.scalar "app/Base", VirtualCall.called⟩,
        .method ⟨.scalar "app/Base", absent⟩] },
    declaring (answering "Leaf" 4) 7]

def instanceOfLeaf : Reference × Heap :=
  (World.ofProgram .working 0 layeredProgram).heap.allocate (.object 8 .empty)

def deferringActivation : Activation where
  frame := ⟨7, deferring, 1, 4, ⟨#[some (.reference instanceOfLeaf.1)]⟩,
    ⟨[.reference instanceOfLeaf.1], 1, 1⟩⟩
  world := { World.ofProgram .working 0 layeredProgram with heap := instanceOfLeaf.2 }

def callOfBase : SpecialCall 1 deferringActivation where
  reference := ⟨.scalar "app/Base", VirtualCall.called⟩
  refers := rfl
  referred := 5
  world := deferringActivation.world
  loads := rfl

def callOfAbsent : SpecialCall 2 deferringActivation where
  reference := ⟨.scalar "app/Base", absent⟩
  refers := rfl
  referred := 5
  world := deferringActivation.world
  loads := rfl

set_option maxRecDepth 100000 in
theorem special_absent : deferringActivation.world.classes.special 7 5 absent = none := by
  apply Option.isNone_iff_eq_none.1
  decide +kernel

theorem superclasses_layered :
    deferringActivation.world.classes.superclasses 7 = [7, 6, 5, 0] ∧
      deferringActivation.world.classes.superclasses 6 = [6, 5, 0] := by
  have derived : deferringActivation.world.classes.superclass? 7 = some 6 := rfl
  have middle : deferringActivation.world.classes.superclass? 6 = some 5 := rfl
  have base : deferringActivation.world.classes.superclass? 5 = some 0 := rfl
  have root : deferringActivation.world.classes.superclass? 0 = none := rfl
  rw [ClassTable.superclasses_of_some derived, ClassTable.superclasses_of_some middle,
    ClassTable.superclasses_of_some base, ClassTable.superclasses_of_none root]
  exact ⟨rfl, rfl⟩

theorem isSuperCall_layered :
    deferringActivation.world.classes.IsSuperCall 7 5 VirtualCall.called where
  ordinary := by decide
  concrete := rfl
  flagged := by decide
  above := by
    rw [superclasses_layered.1]
    exact ⟨5, by simp, rfl⟩

set_option maxRecDepth 100000 in
theorem isBytecode_middle :
    (callOfBase.chooses (.empty 1)).world.classes.isBridged 6 (answering "Middle" 2) = false := by
  decide +kernel

theorem execute_special_layered :
    (∃ callee, (Instruction.invokeSpecial 1).execute .standard [] deferringActivation =
        .ok (.call callee) (callOfBase.chooses (.empty 1)) ∧
      (callee.owner, callee.method) = (6, answering "Middle" 2)) ∧
    (Instruction.invokeSpecial 2).execute .standard [] deferringActivation =
      .error (.noSuchMethod "app/Base" "absent" "(I)Ljava/lang/String;") deferringActivation := by
  constructor
  · obtain ⟨through, -, runs⟩ := execute_special .standard [] deferringActivation.world.classes 7 5
      VirtualCall.called
    obtain ⟨p, up, -, nearest, -⟩ := through isSuperCall_layered
    cases up
    have first : ClassTable.FirstIn (deferringActivation.world.classes.superclasses 6)
        (deferringActivation.world.classes.Declares VirtualCall.called) 6 :=
      ⟨[], [5, 0], superclasses_layered.2, rfl, by simp⟩
    obtain ⟨m, declared, found⟩ := nearest 6 first
    obtain rfl : answering "Middle" 2 = m := Option.some.inj declared
    obtain ⟨executes, -, asks, -⟩ := runs 1 deferringActivation callOfBase rfl rfl rfl rfl
    have ran := executes _ _ found [.reference instanceOfLeaf.1] (.empty 1) ⟨rfl, 8, rfl⟩
    rw [invoke_of_bytecode isBytecode_middle] at ran
    refine ⟨_, ran.trans rfl, ?_⟩
    exact Option.some.inj ((asks _ _ (ran.trans rfl)).symm.trans found)
  · obtain ⟨-, -, runs⟩ := execute_special .standard [] deferringActivation.world.classes 7 5 absent
    obtain ⟨-, misses, -⟩ := runs 2 deferringActivation callOfAbsent rfl rfl rfl rfl
    have owner : callOfAbsent.reference.owner.text = "app/Base" := by decide +kernel
    have descriptor : absent.descriptor = "(I)Ljava/lang/String;" := by decide +kernel
    rw [misses special_absent, owner, descriptor]
    rfl

end SpecialCall

end JavaMachine
