import JavaMachine.Proofs.WellFormedFrames

/-!
# What frames hand over to each other

A frame hands arguments to its callee and a result to its caller. Both are taken from the operand
stack by their type, so neither is ever a return address, and a frame begins without any.
-/
namespace JavaMachine

namespace OperandStack

theorem gives_popParameters (parameters : List FieldType) :
    ∀ popped : List Value, (∀ v ∈ popped, v.IsPlain) →
      Gives (∀ v ∈ ·, Value.IsPlain v) (popParameters parameters popped) := by
  induction parameters with
  | nil => exact fun popped plain => .pure plain
  | cons t earlier ih =>
    exact fun popped plain => (gives_popTyped t).bind_of fun v front =>
      ih (v :: popped) (List.forall_mem_cons.2 ⟨front, plain⟩)

theorem gives_popArguments (parameters : List FieldType) (hasReceiver : Bool) :
    Gives (∀ v ∈ ·, Value.IsPlain v) (popArguments parameters hasReceiver) := by
  unfold popArguments
  refine (gives_popParameters parameters.reverse [] (by simp)).bind_of fun arguments plain => ?_
  split
  · exact .bind fun receiver =>
      .pure (List.forall_mem_cons.2 ⟨Value.isPlain_reference receiver, plain⟩)
  · exact .pure plain

end OperandStack

namespace LocalVariables

variable {A : Nat → Prop} {l l' : LocalVariables}

theorem holds_empty (maxLocals : Nat) : (empty maxLocals).Holds A := by
  intro index v found
  simp [empty, Array.getElem?_replicate] at found

theorem Holds.set (h : l.Holds A) {index : Nat} {v : Value} (within : v.Within A)
    (hs : l.set index v = .ok l') : l'.Holds A := by
  obtain ⟨fits, rfl⟩ := set_eq_ok_iff.1 hs
  intro j u found
  have bound : j < l.size := by
    have := (Array.getElem?_eq_some_iff.1 found).1
    rwa [← size, size_write] at this
  rw [getElem?_write l index v bound] at found
  split at found
  · cases found
    exact within
  · split at found
    · cases found
    · exact h j u found

theorem Holds.setAll {values : List Value} (h : l.Holds A) (within : ∀ v ∈ values, v.Within A) :
    ∀ {index : Nat}, l.setAll index values = .ok l' → l'.Holds A := by
  induction values generalizing l with
  | nil =>
    intro index hs
    cases hs
    exact h
  | cons v rest ih =>
    intro index hs
    obtain ⟨front, rest⟩ := List.forall_mem_cons.1 within
    unfold LocalVariables.setAll at hs
    cases first : l.set index v with
    | error e =>
      rw [first] at hs
      cases hs
    | ok l₁ =>
      rw [first] at hs
      exact ih (h.set front first) rest hs

end LocalVariables

namespace Frame

def IsPlain (f : Frame) : Prop := f.Holds fun _ => False

theorem isPlain_of_ofArguments {t : ClassTable} {c : ClassId} {m : Method} {arguments : List Value}
    {f : Frame} (plain : ∀ v ∈ arguments, v.IsPlain) (made : ofArguments t c m arguments = .ok f) :
    f.IsPlain := by
  obtain ⟨locals, body, laid, -, rfl⟩ := ofArguments_eq_ok made
  have held : locals.Holds fun _ => False :=
    (LocalVariables.holds_empty m.maxLocals).setAll (fun v member => (plain v member).within) laid
  have empty : (OperandStack.empty body.maxStack.toNat).Holds fun _ => False := by
    simp [OperandStack.Holds, OperandStack.empty]
  exact ⟨empty, held⟩

end Frame

def Action.IsPlain : Action → Prop
  | .call callee => callee.IsPlain
  | .prepare initializer => initializer.IsPlain
  | .leave result => ∀ v ∈ result, v.IsPlain
  | _ => True

namespace Execution

variable {natives : NativeRegistry} {callers : List Frame}

theorem gives_onStack {α : Type} {P : α → Prop} {x : OperandStack.Change α} (hx : Gives P x) :
    Gives P (onStack x) := by
  intro a v a' h
  obtain ⟨stack, given, -⟩ := onStack_eq_ok.1 h
  exact hx a.frame.stack v stack given

theorem gives_proceeding_isPlain (x : Execution Unit) : Gives Action.IsPlain (proceeding x) :=
  .bind fun _ => .pure trivial

/-- Initializers have no arguments. -/
theorem gives_beginInitialization (c : ClassId) :
    Gives (∀ f ∈ ·, Frame.IsPlain f) (beginInitialization c) := by
  unfold beginInitialization
  refine .bind fun a => .bind fun next => ?_
  cases next with
  | none => exact .pure fun _ member => nomatch member
  | some found =>
    obtain ⟨k, m⟩ := found
    refine .bind fun a => .bind_ofExcept fun f made => .bind fun _ => .pure fun f' member => ?_
    cases member
    have begun : Frame.ofArguments a.world.classes k m [] = .ok f := made
    exact Frame.isPlain_of_ofArguments (by simp) begun

theorem gives_whenInitialized {c : ClassId} {rest : Execution Action}
    (hrest : Gives Action.IsPlain rest) : Gives Action.IsPlain (whenInitialized c rest) := by
  unfold whenInitialized
  refine (gives_beginInitialization c).bind_of fun initializer plain => ?_
  cases initializer with
  | none => exact hrest
  | some f => exact .pure (plain f rfl)

theorem gives_invoke (c : ClassId) (m : Method) {arguments : List Value}
    (plain : ∀ v ∈ arguments, v.IsPlain) :
    Gives Action.IsPlain (invoke natives callers c m arguments) := by
  unfold invoke
  refine .bind fun a => ?_
  split
  · refine .bind fun v => ?_
    split
    · exact .bind fun _ => .pure trivial
    · exact .pure trivial
  · exact .bind_ofExcept fun callee made => .pure (Frame.isPlain_of_ofArguments plain made)

theorem gives_invokeVirtual (index : UInt16) :
    Gives Action.IsPlain (invokeVirtual natives callers index) := by
  unfold invokeVirtual
  refine .bind fun r => .bind fun c => .bind fun a => .bind fun resolved => ?_
  refine (gives_onStack (OperandStack.gives_popArguments _ _)).bind_of fun arguments plain => ?_
  refine .bind fun a => .bind fun receiver => ?_
  split
  · exact gives_invoke _ _ plain
  · exact .throw _

theorem gives_invokeSpecial (index : UInt16) :
    Gives Action.IsPlain (invokeSpecial natives callers index) := by
  unfold invokeSpecial
  refine .bind fun r => .bind fun c => .bind fun a => .bind fun found => ?_
  refine (gives_onStack (OperandStack.gives_popArguments _ _)).bind_of fun arguments plain => ?_
  exact .bind fun a => .bind fun receiver => gives_invoke _ _ plain

theorem gives_invokeStatic (index : UInt16) :
    Gives Action.IsPlain (invokeStatic natives callers index) := by
  unfold invokeStatic
  refine .bind fun r => .bind fun c => .bind fun a => .bind fun found => gives_whenInitialized ?_
  refine (gives_onStack (OperandStack.gives_popArguments _ _)).bind_of fun arguments plain => ?_
  exact gives_invoke _ _ plain

theorem isPlain_narrowResult (type : Option FieldType) {v : Value} (plain : v.IsPlain) :
    (narrowResult type v).IsPlain := by
  unfold narrowResult
  split
  · split
    · exact Value.isPlain_widen _
    · exact Value.isPlain_int _
  · exact plain

theorem gives_returnValue (kind : ValueKind) : Gives Action.IsPlain (returnValue kind) := by
  unfold returnValue
  intro a action a' h
  obtain ⟨v, a₁, popped, h⟩ := bind_eq_ok.1 h
  obtain ⟨stack, popped, -⟩ := onStack_eq_ok.1 popped
  obtain ⟨w, -, accepted⟩ := OperandStack.popAs_eq_ok popped
  obtain ⟨a₂, a₃, -, h⟩ := bind_eq_ok.1 h
  cases h
  intro result given
  cases given
  exact isPlain_narrowResult _ (isPlain_of_accept? accepted)

end Execution

open Execution in
/-- Whatever an instruction hands over is no return address. -/
theorem Instruction.gives_execute (natives : NativeRegistry) (callers : List Frame)
    (i : Instruction) : Gives Action.IsPlain (i.execute natives callers) := by
  cases i with
  | getStatic index =>
    refine .bind fun r => .bind fun c => gives_whenInitialized (.bind fun a => ?_)
    split
    · exact .bind fun _ => .pure trivial
    · exact .throw _
  | putStatic index =>
    exact .bind fun r => .bind fun c => gives_whenInitialized
      (.bind fun v => .bind fun _ => .pure trivial)
  | newObject index =>
    exact .bind fun pool => .bind fun name => .bind fun c => gives_whenInitialized
      (.bind fun r => .bind fun _ => .pure trivial)
  | invokeVirtual index => exact gives_invokeVirtual index
  | invokeSpecial index => exact gives_invokeSpecial index
  | invokeStatic index => exact gives_invokeStatic index
  | invokeInterface index _ => exact gives_invokeVirtual index
  | invokeDynamic => exact .throw _
  | returnVoid => exact .pure fun _ member => nomatch member
  | returnValue kind => exact gives_returnValue kind
  | throwException => exact .bind fun r => .pure trivial
  | _ => exact gives_proceeding_isPlain _

end JavaMachine
