import JavaMachine.Proofs.DefaultMethods
import JavaMachine.Proofs.ElementAccess
import JavaMachine.Proofs.FieldAccesses

/-!
# Narrowing

A number of a type narrower than `int` is an `int` on operand stacks and in local variables, where
it may have left its type. It is brought back wherever the type is named: in arguments and results,
in fields and arrays, and on the way to native methods. The conversions are written apart from each
other, and here they are shown to be the same, so that what has crossed one of these boundaries
crosses all others of its type unchanged.
-/
namespace JavaMachine

namespace Primitive

/-- The types whose numbers are `int`s on the operand stack without being all of them. -/
inductive IsNarrow : Primitive → Prop
  | boolean : IsNarrow .boolean
  | byte : IsNarrow .byte
  | char : IsNarrow .char
  | short : IsNarrow .short

def InRange : Primitive → Int32 → Prop
  | boolean, v => 0 ≤ v.toInt ∧ v.toInt < 2
  | byte, v => -2 ^ 7 ≤ v.toInt ∧ v.toInt < 2 ^ 7
  | char, v => 0 ≤ v.toInt ∧ v.toInt < 2 ^ 16
  | short, v => -2 ^ 15 ≤ v.toInt ∧ v.toInt < 2 ^ 15
  | _, _ => True

variable {p : Primitive} {v : Int32}

theorem inRange_reduce (p : Primitive) (v : Int32) : p.InRange (p.reduce v) := by
  cases p <;> simp only [InRange, reduce]
  case boolean | char => rw [toInt_ofInt_of_fits] <;> omega
  case byte | short => rw [toInt_ofInt_of_fits] <;> simp only [Int.bmod] <;> omega

/-- Reduction leaves the numbers of the type alone, and only these. -/
theorem reduce_eq_self_iff : p.reduce v = v ↔ p.InRange v := by
  constructor
  · intro same
    rw [← same]
    exact p.inRange_reduce v
  · intro inside
    rw [← Int32.toInt_inj]
    cases p <;> simp only [InRange] at inside <;> simp only [reduce]
    case boolean | char => rw [toInt_ofInt_of_fits] <;> omega
    case byte | short => rw [toInt_ofInt_of_fits] <;> simp only [Int.bmod] <;> omega

end Primitive

/-! ### Arguments -/

theorem Value.represents_of_ofValue? {p : Primitive} {u : Value} {e : Scalar}
    (read : Scalar.ofValue? p u = some e) : u.Represents (.primitive p) := by
  cases u <;> cases p <;> cases read <;> constructor

/-- Values that lie on a stack from the last one down are passed in order. -/
theorem Value.RepresentAll.reverse_reduceAll {types : List FieldType} {values : List Value}
    (h : Value.RepresentAll values types.reverse) :
    Value.RepresentAll (FieldType.reduceAll types.reverse values).reverse types := by
  have reduced := List.forall₂_reverse_iff.2 h.reduceAll
  rwa [List.reverse_reverse] at reduced

namespace OperandStack

variable {s s' : OperandStack} {type : FieldType} {v : Value}

theorem reduced_of_popTyped (h : popTyped type s = .ok v s') :
    ∃ u, s.values = u :: s'.values ∧ u.Represents type ∧ v = type.reduce u := by
  cases type with
  | primitive p =>
    obtain ⟨e, s₁, popped, h⟩ := bind_eq_ok.1 h
    cases h
    obtain ⟨u, values, read⟩ := popAs_eq_ok popped
    have represents := Value.represents_of_ofValue? read
    obtain ⟨e', read', -, widened⟩ := represents.ofValue?
    cases read.symm.trans read'
    exact ⟨u, values, represents, widened⟩
  | object _ | array _ =>
    obtain ⟨r, s₁, popped, h⟩ := bind_eq_ok.1 h
    cases h
    obtain ⟨u, values, read⟩ := popAs_eq_ok popped
    cases u <;> cases read
    refine ⟨_, values, ?_, rfl⟩
    constructor

theorem reduced_of_popParameters {types : List FieldType} {popped result : List Value}
    (h : popParameters types popped s = .ok result s') :
    ∃ values, s.values = values ++ s'.values ∧ Value.RepresentAll values types ∧
      result = (FieldType.reduceAll types values).reverse ++ popped := by
  induction types generalizing s popped with
  | nil =>
    cases h
    exact ⟨[], rfl, .nil, rfl⟩
  | cons t rest ih =>
    obtain ⟨v, s₁, first, h⟩ := bind_eq_ok.1 h
    obtain ⟨u, top, represents, rfl⟩ := reduced_of_popTyped first
    obtain ⟨values, below, represent, rfl⟩ := ih h
    refine ⟨u :: values, by rw [top, below]; rfl, .cons represents represent, ?_⟩
    simp [FieldType.reduceAll]

/-- The argument at a position comes from where it lies on the stack, reduced to its type. The
receiver, if there is one, comes before them all. -/
theorem argument_of_popArguments {parameters : List FieldType} {hasReceiver : Bool}
    {arguments : List Value} (h : popArguments parameters hasReceiver s = .ok arguments s')
    {k : Nat} {v : Value} (parameter : parameters[k]? = some type)
    (given : s.values[parameters.length - (k + 1)]? = some v) :
    argumentAt arguments (hasReceiver.toNat + FieldType.startOf parameters k) =
      some (type.reduce v) := by
  obtain ⟨taken, s₁, popped, h⟩ := bind_eq_ok.1 h
  obtain ⟨values, above, represent, rfl⟩ := reduced_of_popParameters popped
  have length : values.length = parameters.length := by
    simpa using represent.length_eq
  have inside : k < parameters.length := (List.getElem?_eq_some_iff.1 parameter).1
  rw [List.append_nil] at h
  have found : (FieldType.reduceAll parameters.reverse values).reverse[k]? =
      some (type.reduce v) := by
    rw [above, List.getElem?_append_left (by omega)] at given
    rw [List.getElem?_reverse (by simp [FieldType.reduceAll, length, inside])]
    have same : (FieldType.reduceAll parameters.reverse values).length - 1 - k =
        parameters.length - (k + 1) := by
      simp only [FieldType.reduceAll, List.length_zipWith, List.length_reverse, length]
      omega
    rw [same, FieldType.reduceAll, List.getElem?_zipWith, given,
      List.getElem?_reverse (by omega)]
    have back : parameters.length - 1 - (parameters.length - (k + 1)) = k := by omega
    rw [back, parameter]
  have passed := represent.reverse_reduceAll
  cases hasReceiver with
  | false =>
    cases h
    rw [Bool.toNat_false, Nat.zero_add, argumentAt_startOf passed, found]
  | true =>
    obtain ⟨receiver, s₂, -, h⟩ := bind_eq_ok.1 h
    cases h
    have start := argumentAt_cons_add (.reference receiver)
      (FieldType.reduceAll parameters.reverse values).reverse (FieldType.startOf parameters k)
    rw [argumentAt_startOf passed, found] at start
    exact start

end OperandStack

/-- The instruction calls a method by the reference at the index, on a receiver or without. -/
inductive Instruction.Invokes (index : UInt16) : Bool → Instruction → Prop
  | invokeVirtual : Invokes index true (.invokeVirtual index)
  | invokeSpecial : Invokes index true (.invokeSpecial index)
  | invokeStatic : Invokes index false (.invokeStatic index)
  | invokeInterface (count : UInt8) : Invokes index true (.invokeInterface index count)

namespace Execution

variable {index : UInt16} {a a' : Activation} {natives : NativeRegistry} {callers : List Frame}
  {callee : Frame}

/-- The callee's variables are the arguments that were popped by its own descriptor. -/
def Delivers (a : Activation) (hasReceiver : Bool) (callee : Frame) : Prop :=
  ∃ arguments stack t,
    OperandStack.popArguments callee.method.signature.parameters hasReceiver a.frame.stack =
      .ok arguments stack ∧
    Frame.ofArguments t callee.owner callee.method arguments = .ok callee

theorem delivers_of_handsOver {hasReceiver : Bool}
    (h : HandsOver natives callers index hasReceiver a (.call callee) a') :
    Delivers a hasReceiver callee := by
  obtain ⟨r, k, m, arguments, stack, w, -, same, popped, called⟩ := h.invoked
  have made := invoke_eq_call called
  have begins := Frame.begins_of_ofArguments made
  refine ⟨arguments, stack, w.classes, ?_, ?_⟩
  · rw [begins.method, same, popped]
  · rw [begins.method, begins.owner, ← made]

theorem delivers_of_execute {hasReceiver : Bool} {i : Instruction}
    (invokes : i.Invokes index hasReceiver)
    (called : i.execute natives callers a = .ok (.call callee) a') :
    Delivers a hasReceiver callee := by
  cases invokes with
  | invokeVirtual | invokeInterface =>
    exact delivers_of_handsOver (handsOver_of_invokeVirtual called)
  | invokeSpecial => exact delivers_of_handsOver (handsOver_of_invokeSpecial called)
  | invokeStatic =>
    rcases handsOver_of_invokeStatic called with ⟨initializer, ⟨⟩, -⟩ | handsOver
    exact delivers_of_handsOver handsOver

theorem Delivers.argument {hasReceiver : Bool} (h : Delivers a hasReceiver callee) {k : Nat}
    {type : FieldType} {u v : Value}
    (parameter : callee.method.signature.parameters[k]? = some type)
    (given : a.frame.stack.values[callee.method.signature.parameters.length - (k + 1)]? = some v)
    (taken : callee.locals.slots[hasReceiver.toNat +
      FieldType.startOf callee.method.signature.parameters k]? = some (some u)) :
    u = type.reduce v := by
  obtain ⟨arguments, stack, t, popped, made⟩ := h
  obtain ⟨locals, body, laid, -, begun⟩ := Frame.ofArguments_eq_ok made
  have same : callee.locals = locals := by rw [begun]
  have cases := LocalVariables.ofArguments_cases callee.method.maxLocals arguments
  rw [laid] at cases
  split at cases
  · obtain ⟨_, ⟨⟩, size, slots⟩ := cases
    have inside := (Array.getElem?_eq_some_iff.1 taken).1
    rw [same] at taken inside
    change _ < locals.size at inside
    rw [slots _ (size ▸ inside),
      OperandStack.argument_of_popArguments popped parameter given] at taken
    cases taken
    rfl
  · obtain ⟨e, ⟨⟩⟩ := cases

/-- A static method of an initialized class is called with the arguments popped for it. -/
theorem invokeStatic_of_begun {r : MethodReference} {c k : ClassId} {w : World} {m : Method}
    {arguments : List Value} {stack : OperandStack}
    (read : (a.world.classes.pool a.frame.owner).methodAt index = .ok r)
    (loaded : World.loadClass r.owner a.world = .ok c w)
    (resolved : w.classes.resolveMethod c r = .ok (k, m)) (begun : w.isInitialized k = true)
    (popped : OperandStack.popArguments r.signature.parameters false a.frame.stack =
      .ok arguments stack) :
    invokeStatic natives callers index a =
      invoke natives callers k m arguments ⟨{ a.frame with stack := stack }, w⟩ := by
  have taken : onStack (OperandStack.popArguments r.signature.parameters false) ⟨a.frame, w⟩ =
      .ok arguments ⟨{ a.frame with stack := stack }, w⟩ := onStack_eq_ok.2 ⟨stack, popped, rfl⟩
  unfold invokeStatic
  rw [bind_of_ok (methodReference_eq_ok.2 ⟨read, rfl⟩),
    bind_of_ok (onWorld_eq_ok.2 ⟨w, loaded, rfl⟩), get_bind,
    bind_of_ok (ofExcept_eq_ok.2 ⟨resolved, rfl⟩)]
  dsimp only
  rw [whenInitialized_of_begun (a := ⟨a.frame, w⟩) begun, bind_of_ok taken]

/-! ### Results, fields and native arguments -/

theorem narrowResult_eq (type : FieldType) (v : Value) :
    narrowResult (some type) v = type.reduce v := by
  cases type with
  | object _ | array _ => cases v <;> rfl
  | primitive p =>
    cases v with
    | int n =>
      cases read : Scalar.ofInt? p n with
      | none =>
        cases p <;> cases read <;> simp [narrowResult, Scalar.ofInt?, FieldType.reduce,
          Primitive.reduce]
      | some e =>
        have represents : (Value.int n).Represents (.primitive p) := by
          cases p <;> cases read <;> constructor
        obtain ⟨e', read', -, widened⟩ := represents.ofValue?
        have same : Scalar.ofValue? p (.int n) = Scalar.ofInt? p n := by
          cases p <;> rfl
        rw [same, read] at read'
        cases read'
        simp only [narrowResult, read, widened]
    | _ => rfl

theorem leaves_of_returnValue {v u : Value} {type : FieldType} {kind : ValueKind}
    {below : List Value} (declared : a.frame.method.signature.result = some type)
    (given : a.frame.stack.values = v :: below)
    (left : returnValue kind a = .ok (.leave (some u)) a') : u = type.reduce v := by
  unfold returnValue at left
  obtain ⟨x, a₁, popped, left⟩ := bind_eq_ok.1 left
  obtain ⟨stack, pops, rfl⟩ := onStack_eq_ok.1 popped
  obtain ⟨w, values, accepted⟩ := OperandStack.popAs_eq_ok pops
  obtain ⟨rfl, -⟩ := List.cons.inj (given.symm.trans values)
  obtain ⟨_, _, ⟨⟩, left⟩ := bind_eq_ok.1 left
  cases left
  have same : x = v := by
    cases kind <;> cases v <;> cases accepted <;> rfl
  rw [same]
  exact (congrArg (narrowResult · v) declared).trans (narrowResult_eq type v)

theorem held_of_putField {r : FieldReference} {receiver : Reference} {v u : Value}
    {below : List Value} (read : (a.world.classes.pool a.frame.owner).fieldAt index = .ok r)
    (given : a.frame.stack.values = v :: .reference receiver :: below)
    (put : putField index a = .ok () a')
    (held : a'.world.slot? (.ofObject receiver r.name) = some u) : u = r.type.reduce v := by
  unfold putField at put
  rw [bind_of_ok (fieldReference_eq read)] at put
  obtain ⟨x, a₁, typed, put⟩ := bind_eq_ok.1 put
  obtain ⟨s₁, takes, rfl⟩ := onStack_eq_ok.1 typed
  obtain ⟨top, values, -, rfl⟩ := OperandStack.reduced_of_popTyped takes
  obtain ⟨rfl, rest⟩ := List.cons.inj (given.symm.trans values)
  obtain ⟨y, a₂, popped, put⟩ := bind_eq_ok.1 put
  obtain ⟨s₂, pops, rfl⟩ := onStack_eq_ok.1 popped
  obtain ⟨⟨⟩, -⟩ := List.cons.inj (rest.trans (OperandStack.popNonNull_eq_ok pops))
  rw [get_bind] at put
  cases here : a.world.object? receiver with
  | none =>
    simp only [here] at put
    cases put
  | some object =>
    simp only [here] at put
    obtain ⟨w, written, rfl⟩ := onWorld_eq_ok.1 put
    exact Option.some.inj (held.symm.trans (World.slot?_writeField here written))

theorem held_of_putStatic {r : FieldReference} {k : ClassId} {w : World} {v u : Value}
    {below : List Value} (read : (a.world.classes.pool a.frame.owner).fieldAt index = .ok r)
    (resolved : World.resolveStatic r a.world = .ok k w)
    (given : a.frame.stack.values = v :: below)
    (put : putStatic index a = .ok .proceed a')
    (held : a'.world.slot? (.ofClass k r.name) = some u) : u = r.type.reduce v := by
  rw [putStatic_eq read resolved] at put
  obtain ⟨w₁, -, -, put⟩ := rest_of_whenInitialized put
  obtain ⟨x, a₁, typed, put⟩ := bind_eq_ok.1 put
  obtain ⟨s₁, takes, rfl⟩ := onStack_eq_ok.1 typed
  obtain ⟨top, values, -, rfl⟩ := OperandStack.reduced_of_popTyped takes
  obtain ⟨rfl, -⟩ := List.cons.inj (given.symm.trans values)
  obtain ⟨_, a₂, assigned, ⟨⟩⟩ := bind_eq_ok.1 put
  obtain ⟨w₂, done, rfl⟩ := onWorld_eq_ok.1 assigned
  exact Option.some.inj (held.symm.trans (World.slot?_assignStatic done))

theorem held_of_arrayStore {kind : ElementKind} {n : Int32} {i : Int32} {r : Reference}
    {c : ClassId} {storage : Storage} {e : Element} {below : List Value}
    (represents : (Value.int n).Represents (.primitive storage.type))
    (serves : kind.Serves storage.type) (wellFormed : a.frame.stack.WellFormed)
    (here : a.world.heap.get? r = some (.primitives c storage))
    (given : a.frame.stack.values = .int n :: .int i :: .reference r :: below)
    (stored : arrayStore kind a = .ok () a')
    (held : a'.world.element? r i.toInt.toNat = some e) :
    e.value = (FieldType.primitive storage.type).reduce (.int n) := by
  by_cases inside : InBounds i storage.size
  · obtain ⟨e', w', reduced, written, done⟩ := arrayStore_of_accepts wellFormed given here
      (.scalar serves represents) rfl inside
    cases done.symm.trans stored
    rw [show World.element? w' r i.toInt.toNat = some e' by simp [written.elements]] at held
    cases held
    exact reduced
  · obtain ⟨p, primitive⟩ := serves.primitive
    have takes : kind.Takes (.int n) := by
      refine .scalar primitive ?_
      rcases serves with same | ⟨rfl, -⟩
      · cases primitive.symm.trans same
        exact represents
      · cases primitive
        exact .byte n
    have refused := arrayStore_of_refuses takes wellFormed given
      (.outside here (.primitives c serves) rfl inside)
    cases refused.symm.trans stored

end Execution

namespace NativeCall

theorem argument_of_represents {t : FieldType} {v : Value} (represents : v.Represents t) :
    ∃ n, NativeValue.Carries n (t, t.reduce v) ∧
      ∀ (l : LocalVariables) (index : Nat), l.get index = .ok v → argument l index t = .ok n := by
  cases t with
  | primitive p =>
    obtain ⟨s, read, type, widened⟩ := represents.ofValue?
    refine ⟨.scalar s, ?_, fun l index found => ?_⟩
    · rw [← widened, ← type]
      exact .scalar s
    · change (l.getScalar p index >>= fun s => pure (NativeValue.scalar s)) = _
      rw [LocalVariables.getScalar, getAs_of_get _ found read]
      rfl
  | object name | array component =>
    have same : ∀ t : FieldType, (∀ p, t ≠ .primitive p) → t.reduce v = v := by
      intro t other
      cases t with
      | primitive p => exact absurd rfl (other p)
      | object _ | array _ => rfl
    have read := argument_of_get represents
    rw [same _ (by simp)] at read ⊢
    exact read

theorem reduced_of_parameters {types : List FieldType} {values : List Value}
    (represent : Value.RepresentAll values types) {l : LocalVariables} {index : Nat}
    (offers : Offers l index values) {arguments : List NativeValue}
    (marshalled : parameters l index types = .ok arguments) :
    List.Forall₂ NativeValue.Carries arguments
      (types.zip (FieldType.reduceAll types values)) := by
  induction represent generalizing index arguments with
  | nil =>
    cases marshalled
    exact .nil
  | @cons v t values types first _ ih =>
    obtain ⟨n, carries, reads⟩ := argument_of_represents first
    have offersRest := offers.tail
    rw [first.category] at offersRest
    unfold parameters at marshalled
    rw [reads l index offers.head] at marshalled
    cases rest : parameters l (index + t.category) types with
    | error e =>
      rw [rest] at marshalled
      cases marshalled
    | ok natives =>
      rw [rest] at marshalled
      cases marshalled
      exact .cons carries (ih offersRest rest)

theorem reduced_of_arguments {m : Method} {values : List Value} {l : LocalVariables}
    {arguments : List NativeValue} (represent : Value.RepresentAll values m.argumentTypes)
    (laid : LocalVariables.ofArguments m.argumentSlots values = .ok l)
    (marshalled : NativeCall.arguments m l = .ok arguments) :
    List.Forall₂ NativeValue.Carries arguments
      (m.argumentTypes.zip (FieldType.reduceAll m.argumentTypes values)) := by
  rw [Method.nativeArguments_eq] at marshalled
  refine reduced_of_parameters represent (fun j range => ?_) marshalled
  have cases := LocalVariables.ofArguments_cases m.argumentSlots values
  rw [laid] at cases
  split at cases
  · obtain ⟨_, ⟨⟩, -, slots⟩ := cases
    rw [Nat.zero_add]
    exact slots j (by omega)
  · obtain ⟨e, ⟨⟩⟩ := cases

end NativeCall

theorem NativeValue.Carries.widen_eq {s : Scalar} {t : FieldType} {v : Value}
    (h : Carries (.scalar s) (t, v)) : s.widen = v := by
  cases h
  rfl

/-! ### Boundaries -/

/-- The places where the type of a number is named. -/
inductive Boundary
  /-- An argument of a call, on the way into the variables of the callee. -/
  | argument
  /-- The result of a method. -/
  | result
  | field
  | staticField
  /-- An element of an array. -/
  | element
  /-- An argument of a native method. -/
  | nativeArgument

/-- A number is given at a boundary of the type, and a number is found behind it. -/
inductive Crosses (p : Primitive) : Boundary → Int32 → Int32 → Prop
  | argument {natives : NativeRegistry} {callers : List Frame} {index : UInt16}
      {hasReceiver : Bool} {i : Instruction} {a a' : Activation} {callee : Frame} {k : Nat}
      {v v' : Int32} (invokes : i.Invokes index hasReceiver)
      (called : i.execute natives callers a = .ok (.call callee) a')
      (parameter : callee.method.signature.parameters[k]? = some (.primitive p))
      (given : a.frame.stack.values[callee.method.signature.parameters.length - (k + 1)]? =
        some (.int v))
      (taken : callee.locals.slots[hasReceiver.toNat +
        FieldType.startOf callee.method.signature.parameters k]? = some (some (.int v'))) :
      Crosses p .argument v v'
  | result {natives : NativeRegistry} {callers : List Frame} {a a' : Activation} {v v' : Int32}
      {below : List Value} (declared : a.frame.method.signature.result = some (.primitive p))
      (given : a.frame.stack.values = .int v :: below)
      (left : (Instruction.returnValue .int).execute natives callers a =
        .ok (.leave (some (.int v'))) a') :
      Crosses p .result v v'
  | field {natives : NativeRegistry} {callers : List Frame} {index : UInt16} {a a' : Activation}
      {r : FieldReference} {receiver : Reference} {v v' : Int32} {below : List Value}
      (read : (a.world.classes.pool a.frame.owner).fieldAt index = .ok r)
      (type : r.type = .primitive p)
      (given : a.frame.stack.values = .int v :: .reference receiver :: below)
      (put : (Instruction.putField index).execute natives callers a = .ok .proceed a')
      (held : a'.world.slot? (.ofObject receiver r.name) = some (.int v')) :
      Crosses p .field v v'
  | staticField {natives : NativeRegistry} {callers : List Frame} {index : UInt16}
      {a a' : Activation} {r : FieldReference} {k : ClassId} {w : World} {v v' : Int32}
      {below : List Value} (read : (a.world.classes.pool a.frame.owner).fieldAt index = .ok r)
      (type : r.type = .primitive p) (resolved : World.resolveStatic r a.world = .ok k w)
      (given : a.frame.stack.values = .int v :: below)
      (put : (Instruction.putStatic index).execute natives callers a = .ok .proceed a')
      (held : a'.world.slot? (.ofClass k r.name) = some (.int v')) :
      Crosses p .staticField v v'
  | element {natives : NativeRegistry} {callers : List Frame} {kind : ElementKind}
      {a a' : Activation} {r : Reference} {c : ClassId} {storage : Storage} {index : Int32}
      {s : Scalar} {v v' : Int32} {below : List Value} (type : storage.type = p)
      (serves : kind.Serves p) (wellFormed : a.frame.stack.WellFormed)
      (here : a.world.heap.get? r = some (.primitives c storage))
      (given : a.frame.stack.values = .int v :: .int index :: .reference r :: below)
      (stored : (Instruction.arrayStore kind).execute natives callers a = .ok .proceed a')
      (held : a'.world.element? r index.toInt.toNat = some (.scalar s))
      (value : s.widen = .int v') :
      Crosses p .element v v'
  | nativeArgument {m : Method} {values : List Value} {locals : LocalVariables}
      {arguments : List NativeValue} {k : Nat} {s : Scalar} {v v' : Int32}
      (represent : Value.RepresentAll values m.argumentTypes)
      (laid : LocalVariables.ofArguments m.argumentSlots values = .ok locals)
      (marshalled : NativeCall.arguments m locals = .ok arguments)
      (parameter : m.argumentTypes[k]? = some (.primitive p)) (given : values[k]? = some (.int v))
      (taken : arguments[k]? = some (.scalar s)) (value : s.widen = .int v') :
      Crosses p .nativeArgument v v'

namespace Crosses

open Execution

variable {p : Primitive} {b : Boundary} {v v' : Int32}

/-- What is found behind a boundary is the number that was given, reduced to the type. -/
theorem reduced (narrow : p.IsNarrow) (h : Crosses p b v v') : v' = p.reduce v := by
  have represents : (Value.int v).Represents (.primitive p) := by
    cases narrow <;> constructor
  have inj {n n' : Int32} (same : Value.int n = .int n') : n = n' := by
    cases same
    rfl
  cases h with
  | argument invokes called parameter given taken =>
    exact inj ((delivers_of_execute invokes called).argument parameter given taken)
  | result declared given left => exact inj (leaves_of_returnValue declared given left)
  | field read type given put held =>
    have reduced := held_of_putField read given (proceeding_eq_ok.1 put) held
    rw [type] at reduced
    exact inj reduced
  | staticField read type resolved given put held =>
    have reduced := held_of_putStatic read resolved given put held
    rw [type] at reduced
    exact inj reduced
  | element type serves wellFormed here given stored held value =>
    subst type
    have reduced := held_of_arrayStore represents serves wellFormed here given
      (proceeding_eq_ok.1 stored) held
    exact inj (value.symm.trans reduced)
  | @nativeArgument m values _ _ k _ _ _ represent laid marshalled parameter given taken value =>
    have carried := NativeCall.reduced_of_arguments represent laid marshalled
    have passed : (m.argumentTypes.zip (FieldType.reduceAll m.argumentTypes values))[k]? =
        some (.primitive p, .int (p.reduce v)) := by
      simp [List.getElem?_zip_eq_some, FieldType.reduceAll, List.getElem?_zipWith, parameter,
        given, FieldType.reduce]
    obtain ⟨inside, same⟩ := List.getElem?_eq_some_iff.1 taken
    obtain ⟨inside', same'⟩ := List.getElem?_eq_some_iff.1 passed
    have carries := carried.get inside inside'
    rw [List.get_eq_getElem, List.get_eq_getElem, same, same'] at carries
    exact inj (value.symm.trans carries.widen_eq)

end Crosses

/-- The number crosses the boundaries of the type, one after the other. -/
inductive CrossesAll (p : Primitive) : List Boundary → Int32 → Int32 → Prop
  | nil (v : Int32) : CrossesAll p [] v v
  | cons {b : Boundary} {rest : List Boundary} {v v₁ v' : Int32} (first : Crosses p b v v₁)
      (later : CrossesAll p rest v₁ v') : CrossesAll p (b :: rest) v v'

/-! ### A class with a member of each kind -/

section Members

variable (p : Primitive)

def keeping : Method :=
  { owner := .scalar "Main"
    signature := ⟨"keep", [.primitive p], some (.primitive p)⟩
    flags := Bootstrap.publicFlag ||| Bootstrap.staticFlag
    body := some ⟨1, 1, #[0x1a, 0xac], []⟩ }

def memberField : FieldReference := ⟨.scalar "Main", "x", .primitive p⟩

def memberStatic : FieldReference := ⟨.scalar "Main", "y", .primitive p⟩

def memberProgram : List ClassDefinition :=
  [{ ClassDefinition.ofName (.scalar "Main") with
      superclass := some 0
      pool := .ofList [.method ⟨.scalar "Main", (keeping p).signature⟩, .field (memberField p),
        .field (memberStatic p)]
      fields := [⟨"x", .primitive p, 0⟩, ⟨"y", .primitive p, Bootstrap.staticFlag⟩]
      methods := [((keeping p).signature, (keeping p).flags, (keeping p).body)] }]

def memberWorld : World :=
  { World.ofProgram .working 0 (memberProgram p) with
    heap := ⟨#[.object 5 ⟨[("x", FieldType.zero (.primitive p))]⟩,
      .primitives 0 (.zeros p 1)]⟩
    initialized := [5] }

def memberActivation (values : List Value) : Activation where
  frame := ⟨5, keeping p, 0, 1, .empty 1, ⟨values, OperandStack.slots values, 3⟩⟩
  world := memberWorld p

end Members

namespace Crosses

open Execution

variable {p : Primitive} (narrow : p.IsNarrow) (v : Int32)
include narrow

theorem exists_argument : ∃ v', Crosses p .argument v v' := by
  have resolved : (memberWorld p).classes.resolveMethod 5 ⟨.scalar "Main", (keeping p).signature⟩ =
      .ok (5, keeping p) := by
    have declared : (memberWorld p).classes.declared? (keeping p).signature 5 =
        some (keeping p) := by
      cases narrow <;> rfl
    unfold ClassTable.resolveMethod
    rw [ClassTable.findMethod_of_declared declared]
  have popped : ∃ u, OperandStack.popArguments [.primitive p] false ⟨[.int v], 1, 3⟩ =
      .ok [.int u] ⟨[], 0, 3⟩ := by
    cases narrow <;> exact ⟨_, rfl⟩
  obtain ⟨u, popped⟩ := popped
  have bytecode : (memberWorld p).classes.isBridged 5 (keeping p) = false := by
    cases narrow <;> rfl
  have executed : (Instruction.invokeStatic 1).execute .standard [] (memberActivation p [.int v]) =
      .ok (.call ⟨5, keeping p, 0, 0, ⟨#[some (.int u)]⟩, .empty 1⟩)
        ⟨{ (memberActivation p []).frame with stack := ⟨[], 0, 3⟩ }, memberWorld p⟩ := by
    refine (invokeStatic_of_begun (a := memberActivation p [.int v]) rfl rfl resolved rfl
      popped).trans ?_
    exact invoke_of_bytecode bytecode
  exact ⟨u, .argument (k := 0) .invokeStatic executed rfl rfl rfl⟩

omit narrow in
theorem exists_result : ∃ v', Crosses p .result v v' := by
  have left : (Instruction.returnValue .int).execute .standard [] (memberActivation p [.int v]) =
      .ok (.leave (some (.int (p.reduce v)))) _ :=
    congrArg (fun u => EStateM.Result.ok (Action.leave (some u)) _)
      (narrowResult_eq (.primitive p) (.int v))
  exact ⟨_, .result rfl rfl left⟩

theorem exists_field : ∃ v', Crosses p .field v v' := by
  have put : ∃ v' a', (Instruction.putField 2).execute .standard []
      (memberActivation p [.int v, .reference (.entity 0)]) = .ok .proceed a' ∧
      a'.world.slot? (.ofObject (.entity 0) "x") = some (.int v') := by
    cases narrow <;> exact ⟨_, _, rfl, rfl⟩
  obtain ⟨v', a', put, held⟩ := put
  exact ⟨v', .field (r := memberField p) rfl rfl rfl put held⟩

theorem exists_staticField : ∃ v', Crosses p .staticField v v' := by
  have resolved : World.resolveStatic (memberStatic p) (memberWorld p) = .ok 5 (memberWorld p) := by
    cases narrow <;> rfl
  have put : ∃ v' a', writeStatic 5 (memberStatic p) (memberActivation p [.int v]) =
      .ok .proceed a' ∧ a'.world.slot? (.ofClass 5 "y") = some (.int v') := by
    cases narrow <;> exact ⟨_, _, rfl, rfl⟩
  obtain ⟨v', a', put, held⟩ := put
  have executed : (Instruction.putStatic 3).execute .standard [] (memberActivation p [.int v]) =
      .ok .proceed a' := by
    refine (putStatic_eq (r := memberStatic p) rfl resolved).trans ?_
    exact (whenInitialized_of_begun rfl _).trans put
  exact ⟨v', .staticField (r := memberStatic p) rfl rfl resolved rfl executed held⟩

theorem exists_element : ∃ v', Crosses p .element v v' := by
  obtain ⟨kind, serves⟩ := ElementKind.exists_serves p
  have represents : (Value.int v).Represents (.primitive p) := by
    cases narrow <;> constructor
  have here : (memberWorld p).heap.get? (.entity 1) = some (.primitives 0 (.zeros p 1)) := rfl
  have type : (Storage.zeros p 1).type = p := Storage.type_zeros p 1
  have length : (Entity.primitives 0 (.zeros p 1)).length? = some 1 :=
    congrArg some (Storage.size_zeros p 1)
  let a := memberActivation p [.int v, .int 0, .reference (.entity 1)]
  have wellFormed : a.frame.stack.WellFormed := ⟨rfl, Nat.le_refl 3⟩
  obtain ⟨e, w', value, written, stored⟩ := arrayStore_of_accepts (a := a) wellFormed rfl here
    (.scalar (type.symm ▸ serves) (type.symm ▸ represents)) length ⟨by decide, by decide⟩
  have reduced : e.value = .int (p.reduce v) := by
    rw [value, Entity.reduce, type]
    rfl
  have held : w'.element? (.entity 1) 0 = some e := by simp [written.elements]
  cases e with
  | reference x => cases reduced
  | scalar s =>
    have executed : (Instruction.arrayStore kind).execute .standard [] a = .ok .proceed _ :=
      proceeding_eq_ok.2 stored
    exact ⟨_, .element type serves wellFormed here rfl executed held reduced⟩

theorem exists_nativeArgument : ∃ v', Crosses p .nativeArgument v v' := by
  have marshalled : ∃ v' s, NativeCall.arguments (keeping p) ⟨#[some (.int v)]⟩ =
      .ok [.scalar s] ∧ s.widen = .int v' := by
    cases narrow <;> exact ⟨_, _, rfl, rfl⟩
  obtain ⟨v', s, marshalled, value⟩ := marshalled
  have types : (keeping p).argumentTypes = [.primitive p] := by
    cases narrow <;> rfl
  have represent : Value.RepresentAll [.int v] (keeping p).argumentTypes := by
    rw [types]
    refine .cons ?_ .nil
    cases narrow <;> constructor
  have parameter : (keeping p).argumentTypes[0]? = some (.primitive p) := by
    rw [types]
    rfl
  have laid : LocalVariables.ofArguments (keeping p).argumentSlots [.int v] =
      .ok ⟨#[some (.int v)]⟩ := by
    cases narrow <;> rfl
  exact ⟨v', .nativeArgument represent laid marshalled parameter rfl rfl value⟩

theorem exists_of_boundary (b : Boundary) : ∃ v', Crosses p b v v' := by
  cases b with
  | argument => exact exists_argument narrow v
  | result => exact exists_result v
  | field => exact exists_field narrow v
  | staticField => exact exists_staticField narrow v
  | element => exact exists_element narrow v
  | nativeArgument => exact exists_nativeArgument narrow v

omit v in
/-- All boundaries of a type have the same numbers behind them. -/
theorem iff_reduced {b : Boundary} {v v' : Int32} : Crosses p b v v' ↔ v' = p.reduce v := by
  refine ⟨reduced narrow, fun same => ?_⟩
  obtain ⟨w, crosses⟩ := exists_of_boundary narrow v b
  rwa [same, ← crosses.reduced narrow]

end Crosses

namespace CrossesAll

variable {p : Primitive} (narrow : p.IsNarrow) {b : Boundary} {bs : List Boundary} {v v' : Int32}
include narrow

theorem iff_unchanged (inside : p.InRange v) : CrossesAll p bs v v' ↔ v' = v := by
  induction bs with
  | nil =>
    constructor
    · intro h
      cases h
      rfl
    · rintro rfl
      exact .nil v'
  | cons b rest ih =>
    constructor
    · intro h
      cases h with
      | cons first later =>
        have same := first.reduced narrow
        rw [Primitive.reduce_eq_self_iff.2 inside] at same
        rw [same] at later
        exact ih.1 later
    · intro same
      exact .cons ((Crosses.iff_reduced narrow).2 (Primitive.reduce_eq_self_iff.2 inside).symm)
        (ih.2 same)

/-- All that happens to a number happens at the first boundary. -/
theorem cons_iff : CrossesAll p (b :: bs) v v' ↔ v' = p.reduce v := by
  constructor
  · intro h
    cases h with
    | cons first later =>
      rw [first.reduced narrow] at later
      exact (iff_unchanged narrow (p.inRange_reduce v)).1 later
  · intro same
    exact .cons ((Crosses.iff_reduced narrow).2 rfl)
      ((iff_unchanged narrow (p.inRange_reduce v)).2 same)

end CrossesAll

/-- Whatever boundary of a narrow type an `int` crosses, it is reduced to the type in one and the
same way. It is then a number of the type, and these cross any boundaries of the type unchanged. -/
theorem narrowing_agrees {p : Primitive} (narrow : p.IsNarrow) (b : Boundary)
    (bs : List Boundary) (v v' : Int32) :
    (Crosses p b v v' ↔ v' = p.reduce v) ∧
    (Crosses p b v v' → p.InRange v') ∧
    (p.InRange v → (CrossesAll p bs v v' ↔ v' = v)) ∧
    (CrossesAll p (b :: bs) v v' ↔ v' = p.reduce v) := by
  refine ⟨Crosses.iff_reduced narrow, fun crosses => ?_, CrossesAll.iff_unchanged narrow,
    CrossesAll.cons_iff narrow⟩
  rw [crosses.reduced narrow]
  exact p.inRange_reduce v

theorem narrowing_agrees_byte :
    Primitive.IsNarrow .byte ∧ Primitive.InRange .byte 44 ∧
      CrossesAll .byte [.argument, .element, .result, .nativeArgument] 300 44 := by
  have agrees := narrowing_agrees .byte .argument [.element, .result, .nativeArgument] 300 44
  have crosses : Crosses .byte .argument 300 44 := agrees.1.2 (by decide)
  exact ⟨.byte, agrees.2.1 crosses, agrees.2.2.2.2 (by decide)⟩

end JavaMachine
