import JavaMachine.Native.Call
import JavaMachine.Proofs.WellFormedFrames
import Mathlib.Algebra.Order.Ring.Nat
import Mathlib.Data.List.Forall2

/-!
# Argument passing

Three walks handle the arguments of a call: the operand stack gives them up from the last one back,
the local variables of the callee take them in order, each at the slots that the earlier ones leave
off, and a native method reads them out of such variables by its descriptor. Here the three are
shown to agree for every interleaving of types of one and of two slots.

`argumentAt` says what the variables of a callee hold at each slot: the laying out establishes it
and the reading relies on nothing else.
-/
namespace JavaMachine

/-! ### Types and the values that stand for them -/

/-- The values that stand for a type on operand stacks. Any `int` stands for the types narrower
than `int`. -/
inductive Value.Represents : Value → FieldType → Prop
  | boolean (v : Int32) : Represents (.int v) (.primitive .boolean)
  | byte (v : Int32) : Represents (.int v) (.primitive .byte)
  | char (v : Int32) : Represents (.int v) (.primitive .char)
  | short (v : Int32) : Represents (.int v) (.primitive .short)
  | int (v : Int32) : Represents (.int v) (.primitive .int)
  | long (v : Int64) : Represents (.long v) (.primitive .long)
  | float (v : Binary32) : Represents (.float v) (.primitive .float)
  | double (v : Binary64) : Represents (.double v) (.primitive .double)
  | object (r : Reference) (name : String) : Represents (.reference r) (.object name)
  | array (r : Reference) (component : FieldType) : Represents (.reference r) (.array component)

/-- An `int` as a number of the type: the two's complement number of its low bits, for `boolean`
and `char` the unsigned one. -/
def Primitive.reduce : Primitive → Int32 → Int32
  | boolean, v => Int32.ofInt (v.toInt % 2)
  | byte, v => Int32.ofInt (v.toInt.bmod (2 ^ 8))
  | char, v => Int32.ofInt (v.toInt % 2 ^ 16)
  | short, v => Int32.ofInt (v.toInt.bmod (2 ^ 16))
  | _, v => v

namespace FieldType

def reduce : FieldType → Value → Value
  | primitive p, .int v => .int (p.reduce v)
  | _, v => v

def startOf (types : List FieldType) (k : Nat) : Nat := ((types.take k).map category).sum

end FieldType

/-- The native value of a type that an operand stack holds as the given value. -/
inductive NativeValue.Carries : NativeValue → FieldType × Value → Prop
  | scalar (s : Scalar) : Carries (.scalar s) (.primitive s.type, s.widen)
  | object (r : Reference) (name : String) : Carries (.reference r) (.object name, .reference r)
  | array (r : Reference) (component : FieldType) :
      Carries (.reference r) (.array component, .reference r)

theorem toInt_ofInt_of_fits {n : Int} (low : -2 ^ 31 ≤ n) (high : n < 2 ^ 31) :
    (Int32.ofInt n).toInt = n := by
  rw [Int32.toInt_ofInt]
  simp only [Int32.size]
  rw [Int.bmod_eq_of_le] <;> omega

theorem toInt_eq_bmod (v : Int32) : v.toInt = (v.toUInt32.toNat : Int).bmod (2 ^ 32) :=
  BitVec.toInt_eq_toNat_bmod _

theorem lowestBit_eq_reduce (v : Int32) :
    (if v &&& 1 ≠ 0 then 1 else 0) = Primitive.boolean.reduce v := by
  have lowest : (v &&& 1).toUInt32.toNat = v.toUInt32.toNat % 2 := by
    rw [← Nat.and_one_is_mod, Int32.toUInt32_and]
    exact UInt32.toNat_and _ _
  have number : (v &&& 1).toInt = v.toInt % 2 := by
    rw [toInt_eq_bmod, lowest, toInt_eq_bmod v]
    simp only [Int.bmod]
    omega
  change _ = Int32.ofInt (v.toInt % 2)
  rw [← number, Int32.ofInt_toInt]
  split
  · rename_i set
    have odd : v.toInt % 2 ≠ 0 := fun zero => set (Int32.toInt_inj.1 (number.trans zero))
    have one : (1 : Int32).toInt = 1 := rfl
    rw [← Int32.toInt_inj, number]
    omega
  · rename_i clear
    exact (not_not.1 clear).symm

theorem byte_eq_reduce (v : Int32) : v.toInt8.toInt32 = Primitive.byte.reduce v := by
  unfold Primitive.reduce
  rw [← Int32.toInt_inj, Int8.toInt_toInt32, Int32.toInt_toInt8, toInt_ofInt_of_fits] <;>
    simp only [Int.bmod] <;> omega

theorem char_eq_reduce (v : Int32) :
    v.toUInt32.toUInt16.toUInt32.toInt32 = Primitive.char.reduce v := by
  have widened :
      v.toUInt32.toUInt16.toUInt32.toInt32.toInt = (v.toUInt32.toNat % 2 ^ 16 : Nat) := by
    rw [toInt_eq_bmod, UInt32.toUInt32_toInt32, UInt16.toNat_toUInt32, UInt32.toNat_toUInt16]
    simp only [Int.bmod]
    omega
  unfold Primitive.reduce
  rw [← Int32.toInt_inj, toInt_ofInt_of_fits (by omega) (by omega), widened, toInt_eq_bmod]
  simp only [Int.bmod]
  omega

theorem short_eq_reduce (v : Int32) : v.toInt16.toInt32 = Primitive.short.reduce v := by
  unfold Primitive.reduce
  rw [← Int32.toInt_inj, Int16.toInt_toInt32, Int32.toInt_toInt16, toInt_ofInt_of_fits] <;>
    simp only [Int.bmod] <;> omega

theorem Primitive.reduce_reduce (p : Primitive) (v : Int32) :
    p.reduce (p.reduce v) = p.reduce v := by
  cases p <;> simp only [reduce]
  case boolean | char => rw [toInt_ofInt_of_fits (by omega) (by omega), Int.emod_emod]
  case byte | short =>
    rw [toInt_ofInt_of_fits, Int.bmod_bmod] <;> simp only [Int.bmod] <;> omega

namespace Value.Represents

variable {v : Value} {t : FieldType}

theorem category (h : v.Represents t) : v.category = t.category := by
  cases h <;> rfl

theorem reduce (h : v.Represents t) : (t.reduce v).Represents t := by
  cases h <;> constructor

theorem reduce_reduce (h : v.Represents t) : t.reduce (t.reduce v) = t.reduce v := by
  cases h <;> simp [FieldType.reduce, Primitive.reduce_reduce]

theorem ofValue? {p : Primitive} (h : v.Represents (.primitive p)) :
    ∃ s, Scalar.ofValue? p v = some s ∧ s.type = p ∧
      s.widen = FieldType.reduce (.primitive p) v := by
  cases h with
  | boolean v => exact ⟨.boolean (v &&& 1 ≠ 0), rfl, rfl, by
      simpa [Scalar.widen, FieldType.reduce] using lowestBit_eq_reduce v⟩
  | byte v => exact ⟨.byte v.toInt8, rfl, rfl, congrArg Value.int (byte_eq_reduce v)⟩
  | char v => exact ⟨.char v.toUInt32.toUInt16, rfl, rfl, congrArg Value.int (char_eq_reduce v)⟩
  | short v => exact ⟨.short v.toInt16, rfl, rfl, congrArg Value.int (short_eq_reduce v)⟩
  | int v => exact ⟨.int v, rfl, rfl, rfl⟩
  | long v => exact ⟨.long v, rfl, rfl, rfl⟩
  | float v => exact ⟨.float v, rfl, rfl, rfl⟩
  | double v => exact ⟨.double v, rfl, rfl, rfl⟩

end Value.Represents

theorem Scalar.represents_widen (e : Scalar) : e.widen.Represents (.primitive e.type) := by
  cases e <;> constructor

theorem Scalar.type_ofValue? {p : Primitive} {v : Value} {e : Scalar} (h : ofValue? p v = some e) :
    e.type = p := by
  unfold ofValue? at h
  split at h
  · cases h
    rfl
  · cases h
    rfl
  · cases h
    rfl
  · exact type_ofInt? h
  · cases h

section Passed

variable {types : List FieldType} {values : List Value}

def FieldType.reduceAll (types : List FieldType) (values : List Value) : List Value :=
  List.zipWith FieldType.reduce types values

abbrev Value.RepresentAll (values : List Value) (types : List FieldType) : Prop :=
  List.Forall₂ Value.Represents values types

theorem Value.RepresentAll.reduceAll (h : Value.RepresentAll values types) :
    Value.RepresentAll (FieldType.reduceAll types values) types := by
  induction h with
  | nil => exact .nil
  | cons first _ ih => exact .cons first.reduce ih

theorem slots_eq_sum (h : Value.RepresentAll values types) :
    OperandStack.slots values = (types.map FieldType.category).sum := by
  induction h with
  | nil => rfl
  | cons first _ ih =>
    rw [OperandStack.slots_cons, first.category, ih]
    rfl

/-! ### Popping what was pushed -/

namespace OperandStack

variable {s s' : OperandStack} {v : Value}

theorem pop_of_push (h : push v s = .ok () s') : pop s' = .ok v s := by
  unfold push at h
  dsimp only at h
  split at h <;> cases h
  simp [pop]

theorem size_push (h : push v s = .ok () s') : s'.size = s.size + v.category := by
  unfold push at h
  dsimp only at h
  split at h <;> cases h
  rfl

theorem popAs_of_push {α : Type} {read? : Value → Option α} {a : α} (expected : String)
    (h : push v s = .ok () s') (read : read? v = some a) :
    popAs expected read? s' = .ok a s := by
  unfold popAs
  rw [bind_of_ok (pop_of_push h), read]
  rfl

theorem popReference_of_push {r : Reference} (h : push (.reference r) s = .ok () s') :
    popReference s' = .ok r s :=
  popAs_of_push _ h rfl

theorem popTyped_of_push {t : FieldType} (represents : v.Represents t)
    (h : push v s = .ok () s') : popTyped t s' = .ok (t.reduce v) s := by
  cases t with
  | primitive p =>
    obtain ⟨a, read, -, widened⟩ := represents.ofValue?
    change (popScalar p >>= fun a => pure a.widen) s' = _
    rw [popScalar, bind_of_ok (popAs_of_push _ h read), ← widened]
    rfl
  | object name | array component =>
    cases represents
    change (popReference >>= fun r => pure (Value.reference r)) s' = _
    rw [bind_of_ok (popReference_of_push h)]
    rfl

theorem popParameters_append (later earlier : List FieldType) :
    ∀ popped, popParameters (later ++ earlier) popped =
      popParameters later popped >>= popParameters earlier := by
  induction later with
  | nil => exact fun popped => rfl
  | cons t rest ih =>
    intro popped
    funext s
    simp only [List.cons_append, popParameters, bind_assoc, ih]

theorem pushAll_cons_eq_ok {rest : List Value} (h : pushAll (v :: rest) s = .ok () s') :
    ∃ s₁, push v s = .ok () s₁ ∧ pushAll rest s₁ = .ok () s' := by
  obtain ⟨_, s₁, pushed, rest⟩ := bind_eq_ok.1 h
  exact ⟨s₁, pushed, rest⟩

theorem size_pushAll (h : pushAll values s = .ok () s') : s'.size = s.size + slots values := by
  induction values generalizing s with
  | nil =>
    cases h
    rfl
  | cons v rest ih =>
    obtain ⟨s₁, pushed, rest⟩ := pushAll_cons_eq_ok h
    rw [ih rest, size_push pushed, slots_cons, Nat.add_assoc]

/-- The first argument lies deepest, so it is the last one that is popped. -/
theorem popParameters_of_pushAll (represent : Value.RepresentAll values types)
    (h : pushAll values s = .ok () s') (popped : List Value) :
    popParameters types.reverse popped s' =
      .ok (FieldType.reduceAll types values ++ popped) s := by
  induction represent generalizing s popped with
  | nil =>
    cases h
    rfl
  | @cons v t values types first _ ih =>
    obtain ⟨s₁, pushed, rest⟩ := pushAll_cons_eq_ok h
    rw [List.reverse_cons, popParameters_append, bind_of_ok (ih rest popped)]
    unfold popParameters
    rw [bind_of_ok (popTyped_of_push first pushed)]
    rfl

end OperandStack

/-! ### Laying out the arguments -/

/-- What lies at a slot when the values are laid out one after the other. -/
def argumentAt : List Value → Nat → Option Value
  | [], _ => none
  | v :: rest, j =>
    if j = 0 then some v else if j < v.category then none else argumentAt rest (j - v.category)

theorem argumentAt_cons_zero (v : Value) (rest : List Value) :
    argumentAt (v :: rest) 0 = some v := rfl

theorem argumentAt_cons_add (v : Value) (rest : List Value) (j : Nat) :
    argumentAt (v :: rest) (v.category + j) = argumentAt rest j := by
  have positive := v.category_pos
  rw [argumentAt, if_neg (by omega), if_neg (by omega), Nat.add_sub_cancel_left]

theorem argumentAt_startOf (represent : Value.RepresentAll values types) (k : Nat) :
    argumentAt values (FieldType.startOf types k) = values[k]? := by
  induction represent generalizing k with
  | nil => rfl
  | @cons v t values types first _ ih =>
    cases k with
    | zero => rfl
    | succ k =>
      have start : FieldType.startOf (t :: types) (k + 1) =
          v.category + FieldType.startOf types k := by
        simp [FieldType.startOf, first.category]
      rw [start, argumentAt_cons_add, ih]
      rfl

theorem lt_slots_of_argumentAt {values : List Value} {j : Nat} {v : Value}
    (h : argumentAt values j = some v) : j < OperandStack.slots values := by
  induction values generalizing j with
  | nil => cases h
  | cons first rest ih =>
    have positive := first.category_pos
    rw [OperandStack.slots_cons]
    rw [argumentAt] at h
    split at h
    · omega
    · split at h
      · cases h
      · have := ih h
        omega

theorem argumentAt_eq_none (represent : Value.RepresentAll values types) {j : Nat}
    (h : ∀ k < types.length, j ≠ FieldType.startOf types k) : argumentAt values j = none := by
  induction represent generalizing j with
  | nil => rfl
  | @cons v t values types first _ ih =>
    have later : j ≠ 0 := h 0 (Nat.succ_pos _)
    rw [argumentAt, if_neg later]
    split
    · rfl
    · refine ih fun k range same => h (k + 1) (Nat.succ_lt_succ range) ?_
      simp only [FieldType.startOf, List.take_succ_cons, List.map_cons, List.sum_cons] at same ⊢
      rw [← first.category]
      omega

namespace LocalVariables

variable {l l' : LocalVariables} {index : Nat}

/-- No variable from the index on is in use, nor does a pair before it reach there. -/
structure FreeFrom (l : LocalVariables) (index : Nat) : Prop where
  free : ∀ j, index ≤ j → j < l.size → l.slots[j]? = some none
  narrow : ∀ j, j + 1 = index → l.holdsWide j = false

theorem freeFrom_empty (maxLocals : Nat) : (empty maxLocals).FreeFrom 0 where
  free j _ range := by
    rw [size_empty] at range
    simp [empty, range]
  narrow j before := by omega

theorem FreeFrom.getElem?_write (h : l.FreeFrom index) (v : Value) {j : Nat}
    (range : j < l.size) :
    (l.write index v).slots[j]? = if j = index then some (some v) else l.slots[j]? := by
  rw [LocalVariables.getElem?_write l index v range]
  by_cases same : j = index
  · simp [same]
  · rw [if_neg same, if_neg same]
    split
    · rename_i reached
      obtain ⟨before, wide⟩ | ⟨next, -⟩ := reached
      · rw [h.narrow j before] at wide
        cases wide
      · exact (h.free j (by omega) range).symm
    · rfl

theorem FreeFrom.write (h : l.FreeFrom index) {v : Value} (fits : index + v.category ≤ l.size) :
    (l.write index v).FreeFrom (index + v.category) := by
  have positive := v.category_pos
  have two := v.category_le_two
  constructor
  · intro j from' range
    rw [size_write] at range
    rw [h.getElem?_write v range, if_neg (by omega), h.free j (by omega) range]
  · intro j before
    have slot := h.getElem?_write v (show j < l.size by omega)
    unfold holdsWide
    rw [slot]
    by_cases same : j = index
    · have one : v.category = 1 := by omega
      simp [same, one]
    · simp [same, h.free j (by omega) (by omega)]

/-- The values fit exactly if all their slots do, and lie one after the other from the index on. -/
theorem FreeFrom.setAll (h : l.FreeFrom index) (inside : index ≤ l.size) :
    if index + OperandStack.slots values ≤ l.size then
      ∃ l', l.setAll index values = .ok l' ∧ l'.size = l.size ∧
        (∀ j < index, l'.slots[j]? = l.slots[j]?) ∧
        ∀ j, index + j < l.size → l'.slots[index + j]? = some (argumentAt values j)
    else ∃ e, l.setAll index values = .error e := by
  induction values generalizing l index with
  | nil =>
    rw [OperandStack.slots_nil, Nat.add_zero, if_pos inside]
    exact ⟨l, rfl, rfl, fun _ _ => rfl, fun j range => h.free _ (by omega) range⟩
  | cons v rest ih =>
    by_cases first : index + v.category ≤ l.size
    · have set : l.set index v = .ok (l.write index v) := set_eq_ok_iff.2 ⟨first, rfl⟩
      have unfolded : l.setAll index (v :: rest) =
          (l.write index v).setAll (index + v.category) rest := by
        rw [LocalVariables.setAll, set]
        rfl
      have rest := ih (h.write first) (by rwa [size_write])
      rw [size_write, Nat.add_assoc] at rest
      rw [unfolded, OperandStack.slots_cons]
      split at rest
      · rename_i fits
        obtain ⟨l', laid, size, before, slots⟩ := rest
        rw [if_pos fits]
        refine ⟨l', laid, size, fun j earlier => ?_, fun j range => ?_⟩
        · rw [before j (by omega), h.getElem?_write v (by omega), if_neg (by omega)]
        · by_cases inside : j < v.category
          · rw [before _ (by omega), h.getElem?_write v range, argumentAt]
            by_cases zero : j = 0
            · simp [zero]
            · rw [if_neg (by omega), if_neg zero, if_pos inside, h.free _ (by omega) range]
          · obtain ⟨d, rfl⟩ := Nat.exists_eq_add_of_le (Nat.le_of_not_lt inside)
            rw [argumentAt_cons_add, ← slots d (by omega), Nat.add_assoc]
      · rename_i long
        rw [if_neg long]
        exact rest
    · have set : ∃ e, l.set index v = .error e := by
        cases hs : l.set index v with
        | error e => exact ⟨e, rfl⟩
        | ok l' => exact absurd (set_eq_ok_iff.1 hs).1 first
      obtain ⟨e, set⟩ := set
      rw [OperandStack.slots_cons, if_neg (by omega)]
      exact ⟨e, by rw [LocalVariables.setAll, set]; rfl⟩

/-- The arguments of a call fit exactly if the method has a variable for each of their slots. -/
theorem ofArguments_cases (maxLocals : Nat) (values : List Value) :
    if OperandStack.slots values ≤ maxLocals then
      ∃ l, ofArguments maxLocals values = .ok l ∧ l.size = maxLocals ∧
        ∀ j < maxLocals, l.slots[j]? = some (argumentAt values j)
    else ∃ e, ofArguments maxLocals values = .error e := by
  have laid := @FreeFrom.setAll values _ _ (freeFrom_empty maxLocals) (Nat.zero_le _)
  rw [size_empty, Nat.zero_add] at laid
  split at laid
  · rename_i fits
    obtain ⟨l, laid, size, -, slots⟩ := laid
    rw [if_pos fits]
    refine ⟨l, laid, size, fun j range => ?_⟩
    have slot := slots j (by omega)
    rwa [Nat.zero_add] at slot
  · rename_i long
    rw [if_neg long]
    exact laid

/-- Each value lies where the types before its own leave off, and nothing lies at the other
slots. -/
structure LaidOut (l : LocalVariables) (types : List FieldType) (values : List Value) : Prop where
  starts : ∀ k v, values[k]? = some v → l.slots[FieldType.startOf types k]? = some (some v)
  others : ∀ j < l.size, (∀ k < types.length, j ≠ FieldType.startOf types k) →
    l.slots[j]? = some none

end LocalVariables

/-! ### Reading the arguments of a native method -/

namespace NativeCall

def Offers (l : LocalVariables) (index : Nat) (values : List Value) : Prop :=
  ∀ j < OperandStack.slots values, l.slots[index + j]? = some (argumentAt values j)

theorem Offers.head {l : LocalVariables} {index : Nat} {v : Value} {rest : List Value}
    (h : Offers l index (v :: rest)) : l.get index = .ok v := by
  have positive := v.category_pos
  have slot := h 0 (by rw [OperandStack.slots_cons]; omega)
  rw [Nat.add_zero, argumentAt_cons_zero] at slot
  unfold LocalVariables.get
  rw [slot]

theorem Offers.tail {l : LocalVariables} {index : Nat} {v : Value} {rest : List Value}
    (h : Offers l index (v :: rest)) : Offers l (index + v.category) rest := by
  intro j range
  rw [Nat.add_assoc, h _ (by rw [OperandStack.slots_cons]; omega), argumentAt_cons_add]

theorem getAs_of_get {α : Type} {l : LocalVariables} {index : Nat} {v : Value}
    {read? : Value → Option α} {a : α} (expected : String) (found : l.get index = .ok v)
    (read : read? v = some a) : l.getAs index expected read? = .ok a := by
  unfold LocalVariables.getAs
  rw [found]
  simp [bind, Except.bind, read]

theorem argument_of_get {t : FieldType} {v : Value} (represents : v.Represents t) :
    ∃ n, NativeValue.Carries n (t, t.reduce v) ∧
      ∀ (l : LocalVariables) (index : Nat), l.get index = .ok (t.reduce v) →
        argument l index t = .ok n := by
  cases t with
  | primitive p =>
    obtain ⟨s, read, type, widened⟩ := represents.reduce.ofValue?
    rw [represents.reduce_reduce] at widened
    refine ⟨.scalar s, ?_, fun l index found => ?_⟩
    · rw [← widened, ← type]
      exact .scalar s
    · change (l.getScalar p index >>= fun s => pure (NativeValue.scalar s)) = _
      rw [LocalVariables.getScalar, getAs_of_get _ found read]
      rfl
  | object name | array component =>
    cases represents with
    | _ r =>
      refine ⟨.reference r, by constructor, fun l index found => ?_⟩
      change (l.getReference index >>= fun r => pure (NativeValue.reference r)) = _
      have read : Value.reference? (.reference r) = some r := rfl
      rw [LocalVariables.getReference, getAs_of_get _ found read]
      rfl

theorem parameters_of_offers (represent : Value.RepresentAll values types) :
    ∃ natives, List.Forall₂ NativeValue.Carries natives
        (types.zip (FieldType.reduceAll types values)) ∧
      ∀ (l : LocalVariables) (index : Nat), Offers l index (FieldType.reduceAll types values) →
        parameters l index types = .ok natives := by
  induction represent with
  | nil => exact ⟨[], .nil, fun _ _ _ => rfl⟩
  | @cons v t values types first _ ih =>
    obtain ⟨n, carries, readsFirst⟩ := argument_of_get first
    obtain ⟨rest, carriesRest, readsRest⟩ := ih
    refine ⟨n :: rest, .cons carries carriesRest, fun l index offers => ?_⟩
    have offersRest := offers.tail
    rw [first.reduce.category] at offersRest
    unfold parameters
    rw [readsFirst l index offers.head]
    simp [bind, Except.bind, pure, Except.pure, readsRest l _ offersRest]

end NativeCall

end Passed

/-! ### Calls -/

namespace Method

def argumentTypes (m : Method) : List FieldType :=
  if m.isStatic then m.signature.parameters else m.owner.type :: m.signature.parameters

theorem category_receiver (m : Method) : m.owner.type.category = 1 := by
  cases m.owner <;> rfl

theorem argumentSlots_eq_sum (m : Method) :
    m.argumentSlots = (m.argumentTypes.map FieldType.category).sum := by
  have parameters : ∀ types : List FieldType,
      types.foldr (fun t n => t.category + n) 0 = (types.map FieldType.category).sum := by
    intro types
    induction types with
    | nil => rfl
    | cons t rest ih => simp [ih]
  unfold argumentSlots argumentTypes MethodSignature.parameterSlots
  rw [parameters]
  split
  · simp
  · simp [category_receiver]
    omega

def passed (m : Method) (values : List Value) : List Value :=
  FieldType.reduceAll m.argumentTypes values

/-- A receiver is popped as a parameter before all others would be. -/
theorem popArguments_eq (m : Method) :
    OperandStack.popArguments m.signature.parameters (!m.isStatic) =
      OperandStack.popParameters m.argumentTypes.reverse [] := by
  unfold OperandStack.popArguments argumentTypes
  cases m.isStatic with
  | true => exact bind_pure _
  | false =>
    rw [if_neg Bool.false_ne_true, List.reverse_cons, OperandStack.popParameters_append]
    have receiver : OperandStack.popTyped m.owner.type =
        OperandStack.popReference >>= fun r => pure (.reference r) := by
      cases m.owner <;> rfl
    congr 1
    funext arguments
    simp only [OperandStack.popParameters, receiver, bind_assoc, pure_bind]
    rfl

theorem nativeArguments_eq (m : Method) (l : LocalVariables) :
    NativeCall.arguments m l = NativeCall.parameters l 0 m.argumentTypes := by
  unfold NativeCall.arguments argumentTypes
  split
  · rfl
  · have receiver : NativeCall.argument l 0 m.owner.type =
        l.getReference 0 >>= fun r => pure (.reference r) := by
      cases m.owner <;> rfl
    simp only [NativeCall.parameters, receiver, category_receiver, bind_assoc, pure_bind]

/-- Arguments arrive as they were pushed. What is popped for a call are the values pushed for it,
those narrower than `int` reduced to their types, and the stack is left as it was beneath them. The
callee has room for them exactly if it has as many variables as they have slots, and then each lies
where those before it leave off. Read out of there by the descriptor of a native method they are
the same values again. -/
theorem arguments_passed (m : Method) {values : List Value} {beneath pushed : OperandStack}
    (represent : Value.RepresentAll values m.argumentTypes)
    (h : OperandStack.pushAll values beneath = .ok () pushed) :
    OperandStack.popArguments m.signature.parameters (!m.isStatic) pushed =
        .ok (m.passed values) beneath ∧
      pushed.size = beneath.size + m.argumentSlots ∧
      (∀ maxLocals, (∃ l, LocalVariables.ofArguments maxLocals (m.passed values) = .ok l) ↔
        m.argumentSlots ≤ maxLocals) ∧
      ∃ natives,
        List.Forall₂ NativeValue.Carries natives (m.argumentTypes.zip (m.passed values)) ∧
        ∀ maxLocals l, LocalVariables.ofArguments maxLocals (m.passed values) = .ok l →
          l.size = maxLocals ∧ l.LaidOut m.argumentTypes (m.passed values) ∧
            NativeCall.arguments m l = .ok natives := by
  have passes : Value.RepresentAll (m.passed values) m.argumentTypes := represent.reduceAll
  have slots : OperandStack.slots (m.passed values) = m.argumentSlots := by
    rw [slots_eq_sum passes, argumentSlots_eq_sum]
  refine ⟨?popped, ?height, fun maxLocals => ?fits, ?natives⟩
  case popped =>
    rw [popArguments_eq, OperandStack.popParameters_of_pushAll represent h, List.append_nil]
    rfl
  case height =>
    rw [OperandStack.size_pushAll h, slots_eq_sum represent, argumentSlots_eq_sum]
  case fits =>
    have cases := LocalVariables.ofArguments_cases maxLocals (m.passed values)
    rw [slots] at cases
    split at cases
    · rename_i fits
      obtain ⟨l, laid, -⟩ := cases
      exact iff_of_true ⟨l, laid⟩ fits
    · rename_i long
      obtain ⟨e, failed⟩ := cases
      refine iff_of_false (fun ⟨l, laid⟩ => ?_) long
      rw [failed] at laid
      cases laid
  case natives =>
    obtain ⟨natives, carries, reads⟩ := NativeCall.parameters_of_offers represent
    refine ⟨natives, carries, fun maxLocals l laid => ?_⟩
    have cases := LocalVariables.ofArguments_cases maxLocals (m.passed values)
    rw [laid] at cases
    split at cases
    · rename_i fits
      obtain ⟨_, same, size, at'⟩ := cases
      cases same
      refine ⟨size, ⟨fun k v found => ?_, fun j range others => ?_⟩, ?_⟩
      · have start := argumentAt_startOf passes k
        rw [found] at start
        rw [at' _ (Nat.lt_of_lt_of_le (lt_slots_of_argumentAt start) fits), start]
      · rw [at' j (by omega), argumentAt_eq_none passes others]
      · rw [nativeArguments_eq]
        refine reads l 0 fun j range => ?_
        rw [Nat.zero_add]
        exact at' j (Nat.lt_of_lt_of_le range fits)
    · obtain ⟨e, failed⟩ := cases
      cases failed

def putting : Method :=
  { owner := .scalar "Buffer"
    signature :=
      ⟨"put", [.primitive .long, .primitive .byte, .primitive .double,
        .array (.primitive .char)], none⟩
    flags := 0
    body := none }

theorem arguments_passed_putting :
    let values : List Value :=
      [.reference .null, .long 5, .int 300, .double .zero, .reference (.entity 3)]
    let passed : List Value :=
      [.reference .null, .long 5, .int 44, .double .zero, .reference (.entity 3)]
    Value.RepresentAll values putting.argumentTypes ∧
      OperandStack.popArguments putting.signature.parameters true
          ⟨values.reverse ++ [.int 1], 8, 8⟩ = .ok passed ⟨[.int 1], 1, 8⟩ ∧
      ∃ l, LocalVariables.ofArguments 9 passed = .ok l ∧
        l.LaidOut putting.argumentTypes passed := by
  intro values passed
  have represent : Value.RepresentAll values putting.argumentTypes :=
    .cons (.object _ _) (.cons (.long _) (.cons (.byte _) (.cons (.double _)
      (.cons (.array _ _) .nil))))
  have pushed : OperandStack.pushAll values ⟨[.int 1], 1, 8⟩ =
      .ok () ⟨values.reverse ++ [.int 1], 8, 8⟩ := by
    rfl
  have reduced : putting.passed values = passed := by
    rfl
  obtain ⟨popped, -, fits, natives, -, laid⟩ := arguments_passed putting represent pushed
  obtain ⟨l, fitted⟩ := (fits 9).2 (by decide)
  obtain ⟨-, laidOut, -⟩ := laid 9 l fitted
  rw [reduced] at popped fitted laidOut
  exact ⟨represent, popped, l, fitted, laidOut⟩

end Method

end JavaMachine
