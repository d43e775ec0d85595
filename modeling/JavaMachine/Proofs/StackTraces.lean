import JavaMachine.Proofs.CallSites
import JavaMachine.Proofs.Narrowing
import JavaMachine.Proofs.NewStrings

/-!
# Stack traces

The native method of throwables that records the frames alive has no frame of its own. By an
instruction it is called while the executing frame stands apart from its callers; from outside, the
frames are all together. In both cases it records one string for each frame, the innermost first,
and writes into nothing but the field for them.
-/
namespace JavaMachine

namespace World

variable {w w₁ w' : World} {r x throwable : Reference} {c : ClassId} {fields : Fields}
  {texts : List String} {units : List UInt16}

/-! ### Recording -/

/-- The array at the reference is one of strings that have the texts, one after the other. -/
def Lists (w : World) (trace : Reference) (texts : List String) : Prop :=
  ∃ c elements, w.heap.get? trace = some (.references c elements) ∧
    w.classes.name c = .array (.object "java/lang/String") ∧
    elements.toList.map w.stringText? = texts.map some

/-- What it does to a world to record the texts in a throwable. -/
structure Records (texts : List String) (throwable : Reference) (w w' : World) : Prop where
  /-- The field gets a new array with exactly the texts. -/
  listed : (w.slot? (.ofObject throwable "stackTrace")).isSome = true → ∃ trace,
    w'.slot? (.ofObject throwable "stackTrace") = some (.reference trace) ∧
      w.heap.get? trace = none ∧ w'.Lists trace texts
  /-- Without the field nothing is stored. -/
  unlisted : w.slot? (.ofObject throwable "stackTrace") = none → w'.heap = w.heap
  fields : ∀ name, name ≠ "stackTrace" →
    w'.slot? (.ofObject throwable name) = w.slot? (.ofObject throwable name)
  others : ∀ r e, r ≠ throwable → w.heap.get? r = some e → w'.heap.get? r = some e
  statics : w'.statics = w.statics

theorem Records.of_sameContents (h : w₁.Records texts throwable w')
    (same : w.SameContents w₁) : w.Records texts throwable w' where
  listed := by
    rw [← same.slot?_eq, ← same.heap]
    exact h.listed
  unlisted := by
    rw [← same.slot?_eq, ← same.heap]
    exact h.unlisted
  fields name other := (h.fields name other).trans (same.slot?_eq _)
  others := by
    rw [← same.heap]
    exact h.others
  statics := h.statics.trans same.statics

theorem Spells.of_other (h : w.Spells x units) (other : x ≠ r)
    (here : w.object? r = some (c, fields)) (f : Entity → Entity) :
    (endState (modifyEntity r f w)).Spells x units := by
  obtain ⟨k, held, chars, k', storage, object, named, value, array, read⟩ := h
  have apart : chars ≠ r := by
    rintro rfl
    rw [get?_of_object? here] at array
    cases array
  have kept {y : Reference} (distinct : y ≠ r) :
      (endState (modifyEntity r f w)).heap.get? y = w.heap.get? y :=
    (Heap.get?_modify w.heap r y f).trans (if_neg distinct)
  exact ⟨k, held, chars, k', storage, (kept other).trans object, named, value,
    (kept apart).trans array, read⟩

theorem spells_of_others {strings : List Reference}
    (spell : List.Forall₂ (fun x text => w.Spells x (Utf16.encode text.toList)) strings texts)
    (others : ∀ x ∈ strings, x ≠ r) (here : w.object? r = some (c, fields))
    (f : Entity → Entity) :
    List.Forall₂ (fun x text => (endState (modifyEntity r f w)).Spells x
      (Utf16.encode text.toList)) strings texts := by
  induction spell with
  | nil => exact .nil
  | cons spelt _ ih =>
    obtain ⟨other, later⟩ := List.forall_mem_cons.1 others
    exact .cons (spelt.of_other other here f) (ih later)

theorem texts_of_spells {strings : List Reference}
    (spell : List.Forall₂ (fun r text => w.Spells r (Utf16.encode text.toList)) strings texts) :
    strings.map w.stringText? = texts.map some := by
  induction spell with
  | nil => rfl
  | cons spelt _ ih => rw [List.map_cons, List.map_cons, spelt.text, ih]

section Writing

variable {trace : Reference} {k : ClassId} {strings : List Reference}

/-- What is there once the strings and their array have been made, and the field written. -/
theorem records_of_written (here : w.object? throwable = some (c, fields))
    (extended : w.Extends w₁) (new : w.heap.get? trace = none)
    (array : w₁.heap.get? trace = some (.references k strings.toArray))
    (named : w₁.classes.name k = .array (.object "java/lang/String"))
    (fresh : ∀ r ∈ strings, w.heap.get? r = none)
    (spell : List.Forall₂ (fun r text => w₁.Spells r (Utf16.encode text.toList)) strings texts)
    (written : writeField throwable c fields "stackTrace" (.reference trace) w₁ = .ok () w') :
    w.Records texts throwable w' := by
  have here₁ := extended.object? here
  have slot := slot?_writeField here₁ written
  have object := object?_writeField here₁ written
  obtain ⟨declared, after⟩ := writeField_eq_ok written
  have apart {r : Reference} (new : w.heap.get? r = none) : r ≠ throwable := by
    rintro rfl
    exact nomatch new.symm.trans (get?_of_object? here)
  have kept {r : Reference} (other : r ≠ throwable) : w'.heap.get? r = w₁.heap.get? r := by
    rw [after]
    exact (Heap.get?_modify w₁.heap throwable r _).trans (if_neg other)
  have classes : w'.classes = w₁.classes := by rw [after]; rfl
  have statics : w'.statics = w₁.statics := by rw [after]; rfl
  have spell' := spells_of_others spell (fun r member => apart (fresh r member)) here₁
    fun _ => .object c (fields.insert "stackTrace" (.reference trace))
  rw [← after] at spell'
  constructor
  case listed =>
    intro _
    refine ⟨trace, slot, new, k, _, (kept (apart new)).trans array, ?_, texts_of_spells spell'⟩
    rw [classes, named]
  case unlisted =>
    intro missing
    rw [slot?_ofObject here] at missing
    rw [FiniteMap.contains, missing] at declared
    cases declared
  case fields =>
    intro name other
    rw [slot?_ofObject object, slot?_ofObject here]
    exact FiniteMap.get?_insert_ne fields other _
  case others =>
    intro r e other found
    exact (kept other).trans (extended.entities.entities r e found)
  case statics => exact statics.trans extended.entities.statics

end Writing

theorem records_of_missing (missing : w.slot? (.ofObject throwable "stackTrace") = none) :
    w.Records texts throwable w where
  listed there := by
    rw [missing] at there
    cases there
  unlisted _ := rfl
  fields _ _ := rfl
  others _ _ _ := id
  statics := rfl

def CanTrace (w : World) (throwable : Reference) : Prop :=
  (w.slot? (.ofObject throwable "stackTrace")).isSome = true → w.MakesStrings

/-- The texts of the frames are recorded in a throwable that has the field, and nothing is done to
any other. -/
theorem exists_fillInStackTrace (frames : List Frame) (able : w.CanTrace throwable) :
    ∃ w', fillInStackTrace frames throwable w = .ok () w' ∧
      w.Records (frames.map w.traceText) throwable w' := by
  unfold fillInStackTrace
  rw [get_bind]
  cases here : w.object? throwable with
  | none => exact ⟨w, rfl, records_of_missing (by simp [slot?, here])⟩
  | some o =>
    obtain ⟨c, fields⟩ := o
    dsimp only
    split
    next declared =>
      have makes := able (by rwa [slot?_ofObject here])
      obtain ⟨strings, w₁, made, extends₁, fresh, spell₁⟩ :=
        exists_newStrings makes (frames.map w.traceText)
      obtain ⟨k, w₂, loaded, extends₂, named⟩ :=
        exists_stringArrayClass (makes.extends extends₁)
      obtain ⟨trace, w₃, placed, extends₃, new, array, classes⟩ :=
        w₂.exists_allocate (.references k strings.toArray)
      obtain ⟨w', written⟩ : ∃ w',
          writeField throwable c fields "stackTrace" (.reference trace) w₃ = .ok () w' :=
        ⟨_, if_pos declared⟩
      refine ⟨w', ?_, ?_⟩
      · rw [bind_of_ok made, bind_of_ok loaded, bind_of_ok placed, written]
      · have before := trans_of Extends extends₁ extends₂
        exact records_of_written here (trans_of Extends before extends₃) (before.fresh new) array
          (by rw [classes, named]) fresh
          (spell₁.imp fun r text => extends₃.strings.spells r _ ∘ extends₂.strings.spells r _)
          written
    next undeclared =>
      refine ⟨w, rfl, records_of_missing ?_⟩
      rw [slot?_ofObject here]
      simpa [FiniteMap.contains] using undeclared

end World

/-! ### The native method -/

/-- The native method of throwables that records the frames alive. In one of its forms it takes a
number, which it does not use. -/
structure ClassTable.IsFillInStackTrace (t : ClassTable) (c : ClassId) (m : Method) : Prop where
  owner : t.nameText c = "java/lang/Throwable"
  name : m.signature.name = "fillInStackTrace"
  parameters : m.signature.parameters = [] ∨ m.signature.parameters = [.primitive .int]
  result : m.signature.result = some (.object "java/lang/Throwable")
  isNative : m.isNative = true
  isStatic : m.isStatic = false

namespace ClassTable.IsFillInStackTrace

variable {t : ClassTable} {c : ClassId} {m : Method} {throwable : Reference} {rest : List Value}
  (h : t.IsFillInStackTrace c m)
include h

theorem isBridged_eq : t.isBridged c m = true := by
  unfold isBridged
  rw [h.isNative, Bool.true_or]

theorem descriptor_mem : m.signature.descriptor ∈ Hook.stackTraceDescriptors := by
  unfold MethodSignature.descriptor MethodSignature.descriptorChars
  rw [h.result]
  rcases h.parameters with none | number
  · rw [none]
    decide
  · rw [number]
    decide

theorem select?_eq : Hook.select? (t.nameText c) m.signature = some .fillInStackTrace := by
  simp [Hook.select?, h.owner, h.name, h.descriptor_mem]

theorem exists_arguments (throwable : Reference)
    (represent : Value.RepresentAll rest m.signature.parameters) :
    ∃ locals further,
      LocalVariables.ofArguments m.argumentSlots (.reference throwable :: rest) = .ok locals ∧
        NativeCall.arguments m locals = .ok (.reference throwable :: further) := by
  unfold Method.argumentSlots MethodSignature.parameterSlots NativeCall.arguments
  rw [h.isStatic]
  rcases h.parameters with none | number
  · rw [none] at represent ⊢
    cases represent
    exact ⟨_, _, rfl, rfl⟩
  · rw [number] at represent ⊢
    obtain _ | ⟨first, ⟨⟩⟩ := represent
    cases first
    exact ⟨_, _, rfl, rfl⟩

theorem run_eq {w : World} (here : w.classes = t) (natives : NativeRegistry) (frames : List Frame)
    (represent : Value.RepresentAll rest m.signature.parameters) :
    NativeCall.run natives frames c m (.reference throwable :: rest) w =
      (World.fillInStackTrace frames throwable >>= fun _ =>
        pure (some (.reference throwable))) w := by
  obtain ⟨locals, further, laid, read⟩ := h.exists_arguments throwable represent
  unfold NativeCall.run
  rw [bind_of_ok (ofExcept_eq_ok.2 ⟨laid, rfl⟩), bind_of_ok (ofExcept_eq_ok.2 ⟨read, rfl⟩)]
  unfold NativeCall.perform
  rw [bind_assoc, get_bind, here]
  dsimp only
  rw [h.select?_eq, h.result]
  change ((World.fillInStackTrace frames throwable >>= fun _ =>
    pure (some (NativeValue.reference throwable))) >>= NativeCall.result _) w = _
  rw [bind_assoc]
  rfl

end ClassTable.IsFillInStackTrace

/-! ### Calls by an instruction -/

namespace OperandStack

variable {s s' : OperandStack} {parameters : List FieldType} {arguments : List Value}

/-- A receiver lies below the arguments, and what is left of the stack lies below the receiver. -/
theorem WellFormed.receiver_of_popArguments (h : s.WellFormed)
    (popped : popArguments parameters true s = .ok arguments s') :
    ∃ upper r rest, arguments = .reference r :: rest ∧ Value.RepresentAll rest parameters ∧
      s.values = upper ++ .reference r :: s'.values ∧ s'.WellFormed ∧ s'.maxStack = s.maxStack := by
  have moves := (takes_popArguments parameters true).moves (A := fun _ => True) s
  have evolves := moves.relates Moves.evolves
  rw [popped] at evolves
  obtain ⟨taken, s₁, first, later⟩ := bind_eq_ok.1 popped
  obtain ⟨upper, above, represent, rfl⟩ := reduced_of_popParameters first
  obtain ⟨r, s₂, second, done⟩ := bind_eq_ok.1 later
  cases done
  obtain ⟨u, below, read⟩ := popAs_eq_ok second
  cases u <;> cases read
  refine ⟨upper, r, _, rfl, ?_, by rw [above, below], h.evolves evolves, evolves.maxStack⟩
  rw [List.append_nil]
  exact represent.reverse_reduceAll

theorem WellFormed.push_receiver (h : s.WellFormed)
    (popped : popArguments parameters true s = .ok arguments s') (r : Reference) :
    OperandStack.push (.reference r) s' =
      .ok () (s'.withValues (.reference r :: s'.values)) := by
  obtain ⟨upper, r', rest, -, -, values, below, limit⟩ := h.receiver_of_popArguments popped
  have fits := h.size_le
  rw [h.size_eq, values, slots_append, slots_cons] at fits
  refine push_of_fits below ?_
  rw [slots_cons, limit]
  have same : (Value.reference r).category = (Value.reference r').category := rfl
  omega

end OperandStack

/-- The instruction comes to the method of the class with the arguments, as a call of the method
that the class of the receiver has or of the one that the reference itself finds. -/
inductive Instruction.ComesTo (a : Activation) :
    Instruction → ClassId → Method → List Value → Activation → Prop
  | virtual {index : UInt16} {i : Instruction} (calls : i.CallsVirtually index)
      (call : VirtualCall index a) {k : ClassId} {m : Method}
      (selected : call.selected = some (k, m)) : ComesTo a i k m call.arguments call.chooses
  | special {index : UInt16} (call : SpecialCall index a) {k : ClassId} {m : Method}
      {arguments : List Value} {stack : OperandStack} (found : call.found = some (k, m))
      (passes : call.Passes arguments stack) :
      ComesTo a (.invokeSpecial index) k m arguments (call.chooses stack)

namespace Instruction.ComesTo

variable {a b : Activation} {i : Instruction} {k : ClassId} {m : Method} {arguments : List Value}

theorem execute_eq (h : i.ComesTo a k m arguments b) (natives : NativeRegistry)
    (callers : List Frame) :
    i.execute natives callers a = Execution.invoke natives callers k m arguments b := by
  cases h with
  | virtual calls call selected =>
    rw [VirtualCall.execute_eq natives callers calls call, selected]
    rfl
  | special call found passes => exact passes.invokeSpecial_eq found

/-- Only operands are taken, and only the class that the reference names is loaded. -/
theorem taken (h : i.ComesTo a k m arguments b) :
    (∃ stack, OperandStack.popArguments m.signature.parameters true a.frame.stack =
      .ok arguments stack ∧ b.frame = { a.frame with stack := stack }) ∧
    a.world.Extends b.world ∧ a.world.SameContents b.world := by
  cases h with
  | virtual calls call selected =>
    have same := ClassTable.signature_of_select call.signature_resolved selected
    refine ⟨⟨call.stack, ?_, rfl⟩, World.extends_loadClass call.loads, call.sameContents⟩
    rw [same, call.pops]
  | @special _ call k m arguments stack found passes =>
    have same := ClassTable.signature_of_declared? (ClassTable.declared_of_findMethod found)
    refine ⟨⟨stack, ?_, rfl⟩, World.extends_loadClass call.loads,
      World.sameContents_of_loadClass call.loads⟩
    rw [same, passes.pops]

end Instruction.ComesTo

namespace World

variable {w w₁ w' : World} {throwable : Reference}

theorem CanTrace.loaded (able : w.CanTrace throwable) (extended : w.Extends w₁)
    (same : w.SameContents w₁) : w₁.CanTrace throwable := by
  intro declared
  rw [same.slot?_eq] at declared
  exact (able declared).extends extended

theorem traceText_eq {f : Frame} (known : f.owner < w.classes.size) (later : w.KeepsClasses w') :
    w'.traceText f = w.traceText f := by
  unfold traceText
  rw [later.agree.name_eq known]

end World

namespace Instruction.ComesTo

variable {a b : Activation} {i : Instruction} {k : ClassId} {m : Method} {arguments : List Value}
  {throwable : Reference}

/-- The executing frame is recorded above its callers. It goes on with the throwable in place of the
arguments. -/
theorem execute_records (h : i.ComesTo a k m (.reference throwable :: arguments) b)
    (native : b.world.classes.IsFillInStackTrace k m) (natives : NativeRegistry)
    (callers : List Frame) (wellFormed : a.frame.stack.WellFormed)
    (known : ∀ f ∈ a.frame :: callers, f.owner < a.world.classes.size)
    (able : a.world.CanTrace throwable) :
    ∃ stack w', OperandStack.popArguments m.signature.parameters true a.frame.stack =
        .ok (.reference throwable :: arguments) stack ∧
      i.execute natives callers a = .ok .proceed ⟨{ a.frame with
        stack := stack.withValues (.reference throwable :: stack.values) }, w'⟩ ∧
      a.world.Records ((a.frame :: callers).map a.world.traceText) throwable w' := by
  obtain ⟨⟨stack, popped, frame⟩, extended, same⟩ := h.taken
  obtain ⟨-, r, rest, cons, represent, -⟩ := wellFormed.receiver_of_popArguments popped
  cases cons
  obtain ⟨w', recorded, records⟩ := World.exists_fillInStackTrace (b.frame :: callers)
    (able.loaded extended same)
  have ran : NativeCall.run natives (b.frame :: callers) k m (.reference throwable :: arguments)
      b.world = .ok (some (.reference throwable)) w' := by
    rw [native.run_eq rfl natives _ represent, bind_of_ok recorded]
    rfl
  have texts : (b.frame :: callers).map b.world.traceText =
      (a.frame :: callers).map a.world.traceText := by
    rw [List.map_cons, List.map_cons, frame]
    congr 1
    · exact World.traceText_eq (f := { a.frame with stack := stack })
        (known a.frame List.mem_cons_self) extended.classes
    · refine List.map_congr_left fun f member => ?_
      exact World.traceText_eq (known f (List.mem_cons_of_mem _ member)) extended.classes
  rw [texts] at records
  refine ⟨stack, w', popped, ?_, records.of_sameContents same⟩
  rw [h.execute_eq, Execution.invoke_of_bridged native.isBridged_eq,
    bind_of_ok (Execution.onWorld_eq_ok.2 ⟨w', ran, rfl⟩)]
  have pushed : OperandStack.push (.reference throwable) b.frame.stack =
      .ok () (stack.withValues (.reference throwable :: stack.values)) := by
    rw [frame]
    exact wellFormed.push_receiver popped throwable
  have placed : Execution.onStack (OperandStack.push (.reference throwable)) ⟨b.frame, w'⟩ =
      .ok () _ := Execution.onStack_eq_ok.2 ⟨_, pushed, rfl⟩
  refine (bind_of_ok placed).trans ?_
  rw [frame]
  rfl

end Instruction.ComesTo

/-! ### Both ways of calling -/

namespace Machine

variable {m m₁ : Machine} {f : Frame} {callers : List Frame} {throwable : Reference}

theorem cycle_of_proceed {opcode : UInt8} {i : Instruction} {a b : Activation}
    (frames : m.frames = f :: callers)
    (fetched : Activation.fetch ⟨f, m.world⟩ = .ok (opcode, i, a))
    (executed : i.execute m.natives callers a = .ok .proceed b) (base : Nat) :
    cycle base m = .ok none
      { m with world := b.world, frames := b.frame.advance :: callers } := by
  obtain ⟨e, failed, -⟩ | ⟨opcode', i', a', again, stepped⟩ := step_eq frames
  · cases fetched.symm.trans failed
  · cases fetched.symm.trans again
    apply cycle_eq_ok_of_attempt
    unfold attempt
    rw [stepped, executed]
    rfl

theorem invoke_of_bridged {bound : Nat} {c : ClassId} {method : Method} {arguments : List Value}
    {v : Option Value} {w : World}
    (initialized : initializeAll bound (m.world.uninitialized c) m = some (.ok () m₁))
    (bridged : m₁.world.classes.isBridged c method = true)
    (ran : NativeCall.run m₁.natives m₁.frames c method arguments m₁.world = .ok v w) :
    invoke bound c method arguments m = some (.ok v { m₁ with world := w }) := by
  unfold invoke
  rw [initialized]
  refine (if_pos bridged).trans (congrArg some ?_)
  change onWorld (NativeCall.run m₁.natives m₁.frames c method arguments) m₁ = _
  unfold onWorld
  dsimp only
  rw [ran]

/-- The instruction of the executing frame is about to call the native method on a throwable. -/
structure TraceCall (m : Machine) (throwable : Reference) where
  frame : Frame
  callers : List Frame
  frames : m.frames = frame :: callers
  opcode : UInt8
  instruction : Instruction
  activation : Activation
  fetched : Activation.fetch ⟨frame, m.world⟩ = .ok (opcode, instruction, activation)
  owner : ClassId
  method : Method
  arguments : List Value
  chosen : Activation
  comes : instruction.ComesTo activation owner method (.reference throwable :: arguments) chosen
  native : chosen.world.classes.IsFillInStackTrace owner method
  wellFormed : frame.stack.WellFormed
  /-- The classes of the frames are in the table. -/
  known : ∀ f ∈ m.frames, f.owner < m.world.classes.size
  able : m.world.CanTrace throwable

/-- The native method is called on a throwable from outside, and its class has been initialized
above the frames that are alive. -/
structure TraceInvocation (bound : Nat) (m : Machine) (throwable : Reference) where
  owner : ClassId
  method : Method
  arguments : List Value
  initialized : Machine
  initializes :
    initializeAll bound (m.world.uninitialized owner) m = some (.ok () initialized)
  native : initialized.world.classes.IsFillInStackTrace owner method
  represent : Value.RepresentAll arguments method.signature.parameters
  able : initialized.world.CanTrace throwable

theorem TraceCall.cycle_records (call : m.TraceCall throwable) (base : Nat) :
    ∃ stack m', OperandStack.popArguments call.method.signature.parameters true call.frame.stack =
        .ok (.reference throwable :: call.arguments) stack ∧
      cycle base m = .ok none m' ∧
      m'.frames = Frame.advance { call.activation.frame with
        stack := stack.withValues (.reference throwable :: stack.values) } :: call.callers ∧
      m.world.Records (m.frames.map m.world.traceText) throwable m'.world := by
  obtain ⟨frame, callers, frames, opcode, i, a, fetched, k, method, arguments, b, comes, native,
    wellFormed, known, able⟩ := call
  dsimp only
  obtain ⟨cursor, -, rfl⟩ := fetch_eq_ok fetched
  rw [frames] at known ⊢
  obtain ⟨stack, w', popped, executed, records⟩ := comes.execute_records native m.natives callers
    wellFormed (List.forall_mem_cons.2 (List.forall_mem_cons.1 known)) able
  exact ⟨stack, _, popped, cycle_of_proceed frames fetched executed base, rfl, records⟩

theorem TraceInvocation.invoke_records {bound : Nat} (call : TraceInvocation bound m throwable) :
    ∃ m', invoke bound call.owner call.method (.reference throwable :: call.arguments) m =
        some (.ok (some (.reference throwable)) m') ∧ m'.frames = m.frames ∧
      call.initialized.world.Records (m.frames.map call.initialized.world.traceText) throwable
        m'.world := by
  have frames := (initialization_of_eq call.initializes).frames_eq rfl
  obtain ⟨w', recorded, records⟩ :=
    World.exists_fillInStackTrace call.initialized.frames call.able
  refine ⟨{ call.initialized with world := w' }, ?_, frames, ?_⟩
  · refine invoke_of_bridged call.initializes call.native.isBridged_eq ?_
    rw [call.native.run_eq rfl _ _ call.represent, bind_of_ok recorded]
    rfl
  · rwa [frames] at records

/-- Stack traces are complete. Whether an instruction of the executing frame calls the native method
on a throwable or it is called from outside, the frames alive are recorded, with the class and the
method of each, the innermost first. The throwable is given back: in place of the arguments on the
stack of the frame, or as the result. -/
theorem stackTrace_complete (m : Machine) (throwable : Reference) :
    (∀ (call : m.TraceCall throwable) (base : Nat), ∃ stack m',
      OperandStack.popArguments call.method.signature.parameters true call.frame.stack =
        .ok (.reference throwable :: call.arguments) stack ∧
      cycle base m = .ok none m' ∧
      m'.frames = Frame.advance { call.activation.frame with
        stack := stack.withValues (.reference throwable :: stack.values) } :: call.callers ∧
      m.world.Records (m.frames.map m.world.traceText) throwable m'.world) ∧
    ∀ (bound : Nat) (call : TraceInvocation bound m throwable), ∃ m',
      invoke bound call.owner call.method (.reference throwable :: call.arguments) m =
        some (.ok (some (.reference throwable)) m') ∧ m'.frames = m.frames ∧
      call.initialized.world.Records (m.frames.map call.initialized.world.traceText) throwable
        m'.world :=
  ⟨fun call base => call.cycle_records base, fun _ call => call.invoke_records⟩

/-! A method that has been called by another calls the native one. -/

def recording : Method where
  owner := .scalar "java/lang/Throwable"
  signature := ⟨"fillInStackTrace", [], some (.object "java/lang/Throwable")⟩
  flags := Bootstrap.nativeFlag
  body := none

def failing (name : String) : Method where
  owner := .scalar "app/Main"
  signature := ⟨name, [], none⟩
  flags := Bootstrap.staticFlag
  body := some ⟨1, 0, #[0xb7, 0, 1, 0xb1], []⟩

def failingProgram : List ClassDefinition :=
  [{ SpecialCall.declaring recording 0 with
      fields := [⟨"stackTrace", .object "java/lang/Object", 0⟩] },
    { SpecialCall.declaring (failing "fail") 0 with
      pool := .ofList [.method ⟨recording.owner, recording.signature⟩] }]

def failingWorld : World :=
  { World.ofProgram .working 0 failingProgram with
    heap := ⟨#[.object 5 ⟨[("stackTrace", .reference .null)]⟩]⟩
    initialized := [5] }

def failingFrame (name : String) : Frame :=
  ⟨6, failing name, 0, 0, .empty 0, ⟨[.reference (.entity 0)], 1, 1⟩⟩

def failingMachine : Machine where
  world := failingWorld
  frames := [failingFrame "fail", failingFrame "main"]
  natives := .standard
  maxCallDepth := 2

theorem canTrace_failing : failingWorld.CanTrace (.entity 0) := by
  have strings : (World.ofProgram .working 0 failingProgram).MakesStrings :=
    World.makesStrings_ofProgram .working 0 (by decide)
  exact fun _ => strings.of_same ⟨rfl, rfl, rfl⟩

theorem isFillInStackTrace_recording :
    failingWorld.classes.IsFillInStackTrace 5 recording where
  owner := rfl
  name := rfl
  parameters := .inl rfl
  result := rfl
  isNative := by decide
  isStatic := by decide

def failingActivation : Activation where
  frame := { failingFrame "fail" with nextPc := 3 }
  world := failingWorld

def callOfRecording : SpecialCall 1 failingActivation where
  reference := ⟨recording.owner, recording.signature⟩
  refers := rfl
  referred := 5
  world := failingWorld
  loads := rfl

theorem found_recording : callOfRecording.found = some (5, recording) := by
  have ordinary : ¬ failingWorld.classes.IsSuperCall 6 5 recording.signature := by
    rintro ⟨-, -, -, k, member, named⟩
    have up : failingWorld.classes.superclass? 6 = some 0 := rfl
    have root : failingWorld.classes.superclass? 0 = none := rfl
    rw [ClassTable.tail_superclasses up, ClassTable.superclasses_of_none root] at member
    cases List.mem_singleton.1 member
    exact absurd named (by decide)
  refine (ClassTable.special_of_not_superCall ordinary).trans ?_
  exact ClassTable.findMethod_of_declared rfl

def failingCall : failingMachine.TraceCall (.entity 0) where
  frame := failingFrame "fail"
  callers := [failingFrame "main"]
  frames := rfl
  opcode := 0xb7
  instruction := .invokeSpecial 1
  activation := failingActivation
  fetched := rfl
  owner := 5
  method := recording
  arguments := []
  chosen := callOfRecording.chooses (.empty 1)
  comes := .special callOfRecording found_recording ⟨rfl, 5, rfl⟩
  native := isFillInStackTrace_recording
  wellFormed := ⟨rfl, Nat.le_refl 1⟩
  known := by decide
  able := canTrace_failing

def failingInvocation : TraceInvocation 0 failingMachine (.entity 0) where
  owner := 5
  method := recording
  arguments := []
  initialized := failingMachine
  initializes := by
    rw [World.uninitialized_of_begun rfl]
    rfl
  native := isFillInStackTrace_recording
  represent := .nil
  able := canTrace_failing

theorem stackTrace_complete_failing :
    (∃ m', cycle 0 failingMachine = .ok none m' ∧
      failingWorld.Records ["app.Main.fail", "app.Main.main"] (.entity 0) m'.world) ∧
    ∃ m', invoke 0 5 recording [.reference (.entity 0)] failingMachine =
        some (.ok (some (.reference (.entity 0))) m') ∧
      failingWorld.Records ["app.Main.fail", "app.Main.main"] (.entity 0) m'.world := by
  have texts : failingMachine.frames.map failingWorld.traceText =
      ["app.Main.fail", "app.Main.main"] := by
    decide +kernel
  obtain ⟨byInstruction, fromOutside⟩ := stackTrace_complete failingMachine (.entity 0)
  obtain ⟨stack, m', -, done, -, records⟩ := byInstruction failingCall 0
  obtain ⟨m'', returned, -, records'⟩ := fromOutside 0 failingInvocation
  rw [show failingMachine.world = failingWorld from rfl, texts] at records
  rw [show failingInvocation.initialized.world = failingWorld from rfl, texts] at records'
  exact ⟨⟨m', done, records⟩, m'', returned, records'⟩

end Machine

end JavaMachine
