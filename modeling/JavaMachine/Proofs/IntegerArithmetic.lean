import JavaMachine.Proofs.ArgumentPassing
import JavaMachine.Proofs.KnownOperands
import JavaMachine.Proofs.SignedWords
import Mathlib.Data.Int.ModEq

/-!
# Integer arithmetic

An instruction on `int` and `long` operands is specified by a whole number: the sum, the product,
the quotient and so on of the numbers that the operands stand for, without any bound. What it pushes
is this number reduced to the range of the result. Only a quotient or remainder by zero has no such
number, and only there the instruction fails, unless the result takes more room than the operands
did and there is none.
-/
namespace JavaMachine

/-- The numbers of so many bits, with a sign or without. -/
inductive BitRange
  | signed (bits : Nat)
  | unsigned (bits : Nat)
  deriving DecidableEq

namespace BitRange

def bits : BitRange → Nat
  | signed bits | unsigned bits => bits

def Contains : BitRange → Int → Prop
  | signed bits, n => -2 ^ (bits - 1) ≤ n ∧ n < 2 ^ (bits - 1)
  | unsigned bits, n => 0 ≤ n ∧ n < 2 ^ bits

instance : (range : BitRange) → (n : Int) → Decidable (range.Contains n)
  | signed bits, n => inferInstanceAs (Decidable (-2 ^ (bits - 1) ≤ n ∧ n < 2 ^ (bits - 1)))
  | unsigned bits, n => inferInstanceAs (Decidable (0 ≤ n ∧ n < 2 ^ bits))

/-- The number of the range with the same low bits. -/
def reduce : BitRange → Int → Int
  | signed bits, n => n.bmod (2 ^ bits)
  | unsigned bits, n => n % 2 ^ bits

/-- The reduced number is the one of the range that agrees with the number in the bits. -/
theorem reduce_eq_iff {range : BitRange} (some : 0 < range.bits) {n m : Int} :
    range.reduce n = m ↔ range.Contains m ∧ n ≡ m [ZMOD 2 ^ range.bits] := by
  cases range with
  | signed bits =>
    obtain ⟨b, rfl⟩ : ∃ b, bits = b + 1 := Nat.exists_eq_succ_of_ne_zero (Nat.ne_of_gt some)
    change n.bmod (2 ^ (b + 1)) = m ↔ (-2 ^ b ≤ m ∧ m < 2 ^ b) ∧ n ≡ m [ZMOD 2 ^ (b + 1)]
    have low : (2 * 2 ^ b : Int) / 2 = 2 ^ b := by omega
    have high : (2 * 2 ^ b + 1 : Int) / 2 = 2 ^ b := by omega
    rw [Int.bmod_eq_iff (Nat.two_pow_pos _), Int.modEq_iff_dvd, and_assoc]
    push_cast
    rw [pow_succ', low, high]
  | unsigned bits =>
    have positive : (0 : Int) < 2 ^ bits := Int.pow_pos (by decide)
    change n % 2 ^ bits = m ↔ (0 ≤ m ∧ m < 2 ^ bits) ∧ n % 2 ^ bits = m % 2 ^ bits
    constructor
    · rintro rfl
      exact ⟨⟨Int.emod_nonneg _ positive.ne', Int.emod_lt_of_pos _ positive⟩,
        (Int.emod_emod _ _).symm⟩
    · rintro ⟨⟨low, high⟩, same⟩
      rw [same, Int.emod_eq_of_lt low high]

end BitRange

namespace IntegralKind

def numeric : IntegralKind → NumericKind
  | int => .int
  | long => .long

def bits : IntegralKind → Nat
  | int => 32
  | long => 64

def least (k : IntegralKind) : Int := -2 ^ (k.bits - 1)

end IntegralKind

inductive Value.IsNumber : Value → IntegralKind → Int → Prop
  | int {v : Int32} {n : Int} (h : v.toInt = n) : IsNumber (.int v) .int n
  | long {v : Int64} {n : Int} (h : v.toInt = n) : IsNumber (.long v) .long n

def AreNumbers (values : List Value) (numbers : List (IntegralKind × Int)) : Prop :=
  List.Forall₂ (fun v n => v.IsNumber n.1 n.2) values numbers

theorem AreNumbers.pair {u v : Value} {k l : IntegralKind} {x y : Int} (left : u.IsNumber k x)
    (right : v.IsNumber l y) : AreNumbers [u, v] [(k, x), (l, y)] :=
  .cons left (.cons right .nil)

/-! ### What is to be computed -/

/-- The number that an operation on two numbers comes to, the first one on the left. A quotient is
rounded towards zero. -/
def ArithmeticOperator.number? : ArithmeticOperator → Int → Int → Option Int
  | add, x, y => some (x + y)
  | sub, x, y => some (x - y)
  | mul, x, y => some (x * y)
  | div, x, y => if y = 0 then none else some (x.tdiv y)
  | rem, x, y => if y = 0 then none else some (x.tmod y)

theorem ArithmeticOperator.number?_eq_none_iff {op : ArithmeticOperator} {x y : Int} :
    op.number? x y = none ↔ (op = .div ∨ op = .rem) ∧ y = 0 := by
  cases op <;> simp [number?]

/-- The number shifted by `n` places. A shift to the right that is not for signed numbers takes the
bits of the number for one without a sign. -/
def ShiftOperator.number (bits : Nat) : ShiftOperator → Int → Nat → Int
  | left, x, n => x * 2 ^ n
  | right, x, n => x / 2 ^ n
  | unsignedRight, x, n => x % 2 ^ bits / 2 ^ n

/-- The number whose bits are those of both, of either or of just one of the two numbers. -/
def BitwiseOperator.number : BitwiseOperator → Int → Int → Int
  | and => Int.land
  | or => Int.lor
  | xor => Int.xor

/-- The instruction takes numbers of these kinds off the stack, the last one from the top, and is to
compute the number, if there is one, and push it in the range as a value of the kind. -/
inductive Computes :
    Instruction → List (IntegralKind × Int) → IntegralKind → BitRange → Option Int → Prop
  | arithmetic (op : ArithmeticOperator) (k : IntegralKind) (x y : Int) :
      Computes (.arithmetic op k.numeric) [(k, x), (k, y)] k (.signed k.bits) (op.number? x y)
  | negate (k : IntegralKind) (x : Int) :
      Computes (.negate k.numeric) [(k, x)] k (.signed k.bits) (some (-x))
  | shift (op : ShiftOperator) (k : IntegralKind) (x n : Int) :
      Computes (.shift op k) [(k, x), (.int, n)] k (.signed k.bits)
        (some (op.number k.bits x (n % k.bits).toNat))
  | bitwise (op : BitwiseOperator) (k : IntegralKind) (x y : Int) :
      Computes (.bitwise op k) [(k, x), (k, y)] k (.signed k.bits) (some (op.number x y))
  | intToLong (x : Int) :
      Computes (.convert .intToLong) [(.int, x)] .long (.signed 64) (some x)
  | longToInt (x : Int) :
      Computes (.convert .longToInt) [(.long, x)] .int (.signed 32) (some x)
  | intToByte (x : Int) :
      Computes (.convert .intToByte) [(.int, x)] .int (.signed 8) (some x)
  | intToChar (x : Int) :
      Computes (.convert .intToChar) [(.int, x)] .int (.unsigned 16) (some x)
  | intToShort (x : Int) :
      Computes (.convert .intToShort) [(.int, x)] .int (.signed 16) (some x)

/-- What the instruction has to come to if it finds operands above the values `rest`: the number is
pushed as a value of the kind, unless that is wider than the operands and there is no room, and
without a number the instruction fails. -/
inductive Ends (i : Instruction) (k : IntegralKind) (range : BitRange) (a : Activation)
    (rest : List Value) : Option Int → EStateM.Result Error Activation Action → Prop
  | pushed {n : Int} {v : Value} (number : v.IsNumber k (range.reduce n)) :
      Ends i k range a rest (some n) (.ok .proceed (a.withValues (v :: rest)))
  | noRoom {n : Int} (wider : i = .convert .intToLong)
      (full : a.frame.stack.maxStack < 2 + OperandStack.slots rest) :
      Ends i k range a rest (some n)
        (.error (.operandStackOverflow a.frame.stack.maxStack) (a.withValues rest))
  | byZero : Ends i k range a rest none (.error .divideByZero (a.withValues rest))

/-- Wherever the instruction finds the operands on top, the last one first, it puts the value in
their place and does nothing else. -/
def Instruction.Produces (i : Instruction) (operands : List Value) (v : Value) : Prop :=
  ∀ natives callers (a : Activation) rest, a.frame.stack.WellFormed →
    a.frame.stack.values = operands.reverse ++ rest →
    i.execute natives callers a = .ok .proceed (a.withValues (v :: rest))

inductive Computed (k : IntegralKind) (range : BitRange) : Option Int → Except Error Value → Prop
  | number {n : Int} {v : Value} (h : v.IsNumber k (range.reduce n)) :
      Computed k range (some n) (.ok v)
  | byZero : Computed k range none (.error .divideByZero)

/-! ### Words -/

theorem ArithmeticOperator.computed_onInt (op : ArithmeticOperator) (x y : Int32) :
    Computed .int (.signed 32) (op.number? x.toInt y.toInt) ((op.onInt x y).map .int) := by
  have zero : y = 0 ↔ y.toInt = 0 := Int32.toInt_inj.symm
  cases op with
  | add => exact .number (.int (Int32.toInt_add x y))
  | sub => exact .number (.int (Int32.toInt_sub x y))
  | mul => exact .number (.int (Int32.toInt_mul x y))
  | div =>
    simp only [number?, onInt, zero]
    split
    · exact .byZero
    · exact .number (.int (Int32.toInt_div x y))
  | rem =>
    simp only [number?, onInt, zero]
    split
    · exact .byZero
    · rw [← Int32.toInt_mod]
      exact .number (.int (Int32.toInt_bmod_size (x % y)).symm)

theorem ArithmeticOperator.computed_onLong (op : ArithmeticOperator) (x y : Int64) :
    Computed .long (.signed 64) (op.number? x.toInt y.toInt) ((op.onLong x y).map .long) := by
  have zero : y = 0 ↔ y.toInt = 0 := Int64.toInt_inj.symm
  cases op with
  | add => exact .number (.long (Int64.toInt_add x y))
  | sub => exact .number (.long (Int64.toInt_sub x y))
  | mul => exact .number (.long (Int64.toInt_mul x y))
  | div =>
    simp only [number?, onLong, zero]
    split
    · exact .byZero
    · exact .number (.long (Int64.toInt_div x y))
  | rem =>
    simp only [number?, onLong, zero]
    split
    · exact .byZero
    · rw [← Int64.toInt_mod]
      exact .number (.long (Int64.toInt_bmod_size (x % y)).symm)

theorem ShiftOperator.number_onInt (op : ShiftOperator) (x : Int32) (n : Int32) :
    (Value.int (op.onInt x n)).IsNumber .int
      ((BitRange.signed 32).reduce (op.number 32 x.toInt (n.toInt % 32).toNat)) := by
  obtain ⟨signed, unsigned⟩ := shiftAmount_int n
  refine .int ?_
  rw [← Int32.toInt_toBitVec]
  cases op with
  | left =>
    change (Int32.toBitVec (x <<< _)).toInt = _
    rw [Int32.toBitVec_shiftLeft, BitVec.shiftLeft_eq', signed, toInt_shiftLeft,
      Int32.toInt_toBitVec]
    rfl
  | right =>
    change (Int32.toBitVec (x >>> _)).toInt = _
    rw [Int32.toBitVec_shiftRight, BitVec.sshiftRight_eq', signed, ← BitVec.toInt_bmod_cancel,
      toInt_sshiftRight, Int32.toInt_toBitVec]
    rfl
  | unsignedRight =>
    change (UInt32.toInt32 _).toBitVec.toInt = _
    rw [UInt32.toBitVec_toInt32, UInt32.toBitVec_shiftRight, BitVec.ushiftRight_eq', unsigned,
      toInt_ushiftRight]
    rfl

theorem BitwiseOperator.number_onInt (op : BitwiseOperator) (x y : Int32) :
    (Value.int (op.onInt x y)).IsNumber .int
      ((BitRange.signed 32).reduce (op.number x.toInt y.toInt)) := by
  refine .int ?_
  rw [← Int32.toInt_bmod_size]
  congr 1
  rw [← Int32.toInt_toBitVec]
  cases op with
  | and => exact toInt_and x.toBitVec y.toBitVec
  | or => exact toInt_or x.toBitVec y.toBitVec
  | xor => exact toInt_xor x.toBitVec y.toBitVec

theorem ShiftOperator.number_onLong (op : ShiftOperator) (x : Int64) (n : Int32) :
    (Value.long (op.onLong x n)).IsNumber .long
      ((BitRange.signed 64).reduce (op.number 64 x.toInt (n.toInt % 64).toNat)) := by
  obtain ⟨signed, unsigned⟩ := shiftAmount_long n
  refine .long ?_
  rw [← Int64.toInt_toBitVec]
  cases op with
  | left =>
    change (Int64.toBitVec (x <<< _)).toInt = _
    rw [Int64.toBitVec_shiftLeft, BitVec.shiftLeft_eq', signed, toInt_shiftLeft,
      Int64.toInt_toBitVec]
    rfl
  | right =>
    change (Int64.toBitVec (x >>> _)).toInt = _
    rw [Int64.toBitVec_shiftRight, BitVec.sshiftRight_eq', signed, ← BitVec.toInt_bmod_cancel,
      toInt_sshiftRight, Int64.toInt_toBitVec]
    rfl
  | unsignedRight =>
    change (UInt64.toInt64 _).toBitVec.toInt = _
    rw [UInt64.toBitVec_toInt64, UInt64.toBitVec_shiftRight, BitVec.ushiftRight_eq', unsigned,
      toInt_ushiftRight]
    rfl

theorem BitwiseOperator.number_onLong (op : BitwiseOperator) (x y : Int64) :
    (Value.long (op.onLong x y)).IsNumber .long
      ((BitRange.signed 64).reduce (op.number x.toInt y.toInt)) := by
  refine .long ?_
  rw [← Int64.toInt_bmod_size]
  congr 1
  rw [← Int64.toInt_toBitVec]
  cases op with
  | and => exact toInt_and x.toBitVec y.toBitVec
  | or => exact toInt_or x.toBitVec y.toBitVec
  | xor => exact toInt_xor x.toBitVec y.toBitVec

theorem number_toInt64 (x : Int32) :
    (Value.long x.toInt64).IsNumber .long ((BitRange.signed 64).reduce x.toInt) := by
  refine .long ?_
  rw [← Int32.toInt_toInt64]
  exact (Int64.toInt_bmod_size x.toInt64).symm

theorem number_toInt8 (x : Int32) :
    (Value.int x.toInt8.toInt32).IsNumber .int ((BitRange.signed 8).reduce x.toInt) := by
  refine .int ?_
  rw [Int8.toInt_toInt32, Int32.toInt_toInt8]
  rfl

theorem number_toUInt16 (x : Int32) :
    (Value.int x.toUInt32.toUInt16.toUInt32.toInt32).IsNumber .int
      ((BitRange.unsigned 16).reduce x.toInt) := by
  refine .int ?_
  rw [char_eq_reduce]
  exact toInt_ofInt_of_fits (by omega) (by omega)

theorem number_toInt16 (x : Int32) :
    (Value.int x.toInt16.toInt32).IsNumber .int ((BitRange.signed 16).reduce x.toInt) := by
  refine .int ?_
  rw [Int16.toInt_toInt32, Int32.toInt_toInt16]
  rfl

/-! ### Taking the operands off and putting the result there -/

namespace OperandStack

/-- The computation takes the operands off, the last one from the top, and pushes the result. -/
def Puts (x : Change Unit) (operands : List Value) (result : Except Error Value) : Prop :=
  ∀ (s : OperandStack) rest, s.WellFormed → s.values = operands.reverse ++ rest →
    x s = (ofExcept result >>= push) (s.withValues rest)

section

variable {α β : Type} {expected expected' : String} {read? : Value → Option α}
  {read'? : Value → Option β} {u v : Value} {x : α} {y : β} {result : Except Error Value}

theorem puts_one {f : α → Change Unit} (read : read? v = some x)
    (pushes : f x = ofExcept result >>= push) : Puts (popAs expected read? >>= f) [v] result := by
  intro s rest h values
  rw [h.bind_popAs (show s.values = v :: rest from values) read, pushes]

theorem puts_two {f : β → α → Change Unit} (left : read? u = some x) (right : read'? v = some y)
    (pushes : f y x = ofExcept result >>= push) :
    Puts (popAs expected' read'? >>= fun b => popAs expected read? >>= fun a => f b a) [u, v]
      result := by
  intro s rest h values
  have top : s.values = v :: u :: rest := values
  have beneath : (s.withValues (u :: rest)).WellFormed := h.below top
  rw [h.bind_popAs top right, beneath.bind_popAs rfl left, pushes]
  rfl

end

end OperandStack

open OperandStack (Puts puts_one puts_two push slots)

theorem ArithmeticOperator.puts_run_int (op : ArithmeticOperator) (a b : Int32) :
    Puts (op.run .int) [.int a, .int b] ((op.onInt a b).map .int) := by
  refine puts_two rfl rfl ?_
  cases op.onInt a b <;> rfl

theorem ArithmeticOperator.puts_run_long (op : ArithmeticOperator) (a b : Int64) :
    Puts (op.run .long) [.long a, .long b] ((op.onLong a b).map .long) := by
  refine puts_two rfl rfl ?_
  cases op.onLong a b <;> rfl

namespace Instruction

open Execution

variable {i : Instruction} {numbers : List (IntegralKind × Int)} {kind : IntegralKind}
  {range : BitRange} {number? : Option Int} {operands : List Value}

theorem puts_computed (h : Computes i numbers kind range number?)
    (are : AreNumbers operands numbers) :
    ∃ x result, (∀ natives callers, i.execute natives callers = change x) ∧
      Puts x operands result ∧ Computed kind range number? result := by
  cases h with
  | arithmetic op k x y =>
    obtain _ | ⟨left, _ | ⟨right, ⟨⟩⟩⟩ := are
    rcases left with ⟨rfl⟩ | ⟨rfl⟩
    · obtain ⟨rfl⟩ | _ := right
      exact ⟨op.run .int, _, fun _ _ => rfl, op.puts_run_int _ _, op.computed_onInt _ _⟩
    · obtain _ | ⟨rfl⟩ := right
      exact ⟨op.run .long, _, fun _ _ => rfl, op.puts_run_long _ _, op.computed_onLong _ _⟩
  | negate k x =>
    obtain _ | ⟨⟨rfl⟩ | ⟨rfl⟩, ⟨⟩⟩ := are
    · exact ⟨NumericKind.negate .int, .ok _, fun _ _ => rfl, puts_one rfl rfl,
        .number (.int (Int32.toInt_neg _))⟩
    · exact ⟨NumericKind.negate .long, .ok _, fun _ _ => rfl, puts_one rfl rfl,
        .number (.long (Int64.toInt_neg _))⟩
  | shift op k x n =>
    obtain _ | ⟨left, _ | ⟨right, ⟨⟩⟩⟩ := are
    rcases left with ⟨rfl⟩ | ⟨rfl⟩
    · obtain ⟨rfl⟩ | _ := right
      exact ⟨op.run .int, .ok _, fun _ _ => rfl, puts_two rfl rfl rfl,
        .number (op.number_onInt _ _)⟩
    · obtain ⟨rfl⟩ | _ := right
      exact ⟨op.run .long, .ok _, fun _ _ => rfl, puts_two rfl rfl rfl,
        .number (op.number_onLong _ _)⟩
  | bitwise op k x y =>
    obtain _ | ⟨left, _ | ⟨right, ⟨⟩⟩⟩ := are
    rcases left with ⟨rfl⟩ | ⟨rfl⟩
    · obtain ⟨rfl⟩ | _ := right
      exact ⟨op.run .int, .ok _, fun _ _ => rfl, puts_two rfl rfl rfl,
        .number (op.number_onInt _ _)⟩
    · obtain _ | ⟨rfl⟩ := right
      exact ⟨op.run .long, .ok _, fun _ _ => rfl, puts_two rfl rfl rfl,
        .number (op.number_onLong _ _)⟩
  | intToLong x =>
    obtain _ | ⟨⟨rfl⟩ | _, ⟨⟩⟩ := are
    exact ⟨Conversion.run .intToLong, .ok _, fun _ _ => rfl, puts_one rfl rfl,
      .number (number_toInt64 _)⟩
  | longToInt x =>
    obtain _ | ⟨_ | ⟨rfl⟩, ⟨⟩⟩ := are
    exact ⟨Conversion.run .longToInt, .ok _, fun _ _ => rfl, puts_one rfl rfl,
      .number (.int (Int64.toInt_toInt32 _))⟩
  | intToByte x =>
    obtain _ | ⟨⟨rfl⟩ | _, ⟨⟩⟩ := are
    exact ⟨Conversion.run .intToByte, .ok _, fun _ _ => rfl, puts_one rfl rfl,
      .number (number_toInt8 _)⟩
  | intToChar x =>
    obtain _ | ⟨⟨rfl⟩ | _, ⟨⟩⟩ := are
    exact ⟨Conversion.run .intToChar, .ok _, fun _ _ => rfl, puts_one rfl rfl,
      .number (number_toUInt16 _)⟩
  | intToShort x =>
    obtain _ | ⟨⟨rfl⟩ | _, ⟨⟩⟩ := are
    exact ⟨Conversion.run .intToShort, .ok _, fun _ _ => rfl, puts_one rfl rfl,
      .number (number_toInt16 _)⟩

end Instruction

namespace Value.IsNumber

variable {u v : Value} {k : IntegralKind} {x y : Int}

theorem unique (left : u.IsNumber k x) (right : v.IsNumber k x) : u = v := by
  cases left with
  | int h =>
    obtain ⟨h'⟩ | _ := right
    rw [Int32.toInt_inj.1 (h.trans h'.symm)]
  | long h =>
    obtain _ | ⟨h'⟩ := right
    rw [Int64.toInt_inj.1 (h.trans h'.symm)]

theorem category_eq (left : u.IsNumber k x) (right : v.IsNumber k y) :
    u.category = v.category := by
  cases left <;> cases right <;> rfl

theorem reduce_eq (h : v.IsNumber k x) : (BitRange.signed k.bits).reduce x = x := by
  cases h with
  | int h =>
    rw [← h]
    exact Int32.toInt_bmod_size _
  | long h =>
    rw [← h]
    exact Int64.toInt_bmod_size _

theorem within (h : v.IsNumber k x) : (BitRange.signed k.bits).Contains x := by
  have some : 0 < (BitRange.signed k.bits).bits := by cases h <;> decide
  exact ((BitRange.reduce_eq_iff some).1 h.reduce_eq).1

end Value.IsNumber

namespace Computes

variable {i : Instruction} {numbers : List (IntegralKind × Int)} {kind : IntegralKind}
  {range : BitRange} {number? : Option Int} {operands rest : List Value} {v : Value} {n : Int}
  {a : Activation}

theorem fits (h : Computes i numbers kind range number?) (are : AreNumbers operands numbers)
    (number : v.IsNumber kind n) (wellFormed : a.frame.stack.WellFormed)
    (values : a.frame.stack.values = operands.reverse ++ rest) :
    slots (v :: rest) ≤ a.frame.stack.maxStack ∨ i = .convert .intToLong := by
  have height := wellFormed.size_le
  rw [wellFormed.size_eq, values, OperandStack.slots_append, OperandStack.slots_reverse] at height
  have covers (less : v.category ≤ slots operands) :
      slots (v :: rest) ≤ a.frame.stack.maxStack := by
    rw [OperandStack.slots_cons]
    omega
  cases h with
  | intToLong => exact .inr rfl
  | arithmetic | negate | shift | bitwise =>
    obtain _ | ⟨first, -⟩ := are
    refine .inl (covers ?_)
    rw [number.category_eq first, OperandStack.slots_cons]
    omega
  | longToInt | intToByte | intToChar | intToShort =>
    obtain _ | ⟨first, -⟩ := are
    refine .inl (covers ?_)
    cases number
    exact Nat.le_trans (Value.category_pos _) (Nat.le_add_right _ _)

theorem gives (h : Computes i numbers kind range (some n)) (are : AreNumbers operands numbers)
    (narrow : i ≠ .convert .intToLong) :
    ∃ v, v.IsNumber kind (range.reduce n) ∧ i.Produces operands v := by
  obtain ⟨x, result, runs, puts, ⟨number⟩⟩ := Instruction.puts_computed h are
  refine ⟨_, number, fun natives callers a rest wellFormed values => ?_⟩
  have room := (h.fits are number wellFormed values).resolve_right narrow
  rw [runs]
  exact Execution.change_of_ok ((puts _ _ wellFormed values).trans
    (OperandStack.push_of_fits (wellFormed.beneath values) room))

theorem ends (h : Computes i numbers kind range number?) (are : AreNumbers operands numbers)
    (natives : NativeRegistry) (callers : List Frame) (wellFormed : a.frame.stack.WellFormed)
    (values : a.frame.stack.values = operands.reverse ++ rest) :
    Ends i kind range a rest number? (i.execute natives callers a) := by
  obtain ⟨x, result, runs, puts, computed⟩ := Instruction.puts_computed h are
  have ran := puts _ _ wellFormed values
  have beneath := wellFormed.beneath values
  rw [runs]
  cases computed with
  | byZero =>
    rw [Execution.change_of_error ran]
    exact .byZero
  | @number n v number =>
    by_cases room : slots (v :: rest) ≤ a.frame.stack.maxStack
    · rw [Execution.change_of_ok (ran.trans (OperandStack.push_of_fits beneath room))]
      exact .pushed number
    · rw [Execution.change_of_error
        (ran.trans (OperandStack.push_of_full beneath (Nat.not_le.1 room)))]
      cases (h.fits are number wellFormed values).resolve_left room
      cases h
      cases number
      exact .noRoom rfl (Nat.not_le.1 room)

theorem none_iff (h : Computes i numbers kind range number?) :
    number? = none ↔ ∃ op k x, (op = .div ∨ op = .rem) ∧
      i = .arithmetic op (IntegralKind.numeric k) ∧ numbers = [(k, x), (k, 0)] := by
  constructor
  · intro none
    cases h with
    | arithmetic op k x y =>
      obtain ⟨division, rfl⟩ := ArithmeticOperator.number?_eq_none_iff.1 none
      exact ⟨op, _, x, division, rfl, rfl⟩
    | _ => cases none
  · rintro ⟨op, k, x, division, shape, same⟩
    cases h with
    | arithmetic =>
      injection shape with sameOp
      injection same with _ same
      injection same with right
      injection right with _ zero
      exact ArithmeticOperator.number?_eq_none_iff.2 ⟨sameOp ▸ division, zero⟩
    | _ => cases shape

end Computes

/-! ### Division -/

/-- A truncated quotient is within the bounds of the dividend, but for one case. -/
theorem tdiv_bounds {m x y : Int} (low : -m ≤ x) (high : x < m)
    (regular : ¬(x = -m ∧ y = -1)) : -m ≤ x.tdiv y ∧ x.tdiv y < m := by
  by_cases unit : y = 1 ∨ y = -1
  · rcases unit with rfl | rfl
    · rw [Int.tdiv_one]
      exact ⟨low, high⟩
    · rw [Int.tdiv_neg, Int.tdiv_one]
      omega
  · have size : (x.tdiv y).natAbs = x.natAbs / y.natAbs := Int.natAbs_tdiv x y
    rcases Nat.eq_zero_or_pos y.natAbs with zero | positive
    · rw [zero, Nat.div_zero] at size
      omega
    · have less : x.natAbs / y.natAbs ≤ x.natAbs / 2 :=
        Nat.div_le_div_left (by omega) (by decide)
      omega

theorem tmod_nonpos {x : Int} (y : Int) (negative : x ≤ 0) : x.tmod y ≤ 0 := by
  have := Int.tmod_nonneg (a := -x) y (by omega)
  rw [Int.neg_tmod] at this
  omega

theorem tmod_bounds {m x y : Int} (low : -m ≤ x) (high : x < m) :
    -m ≤ x.tmod y ∧ x.tmod y < m := by
  have size : (x.tmod y).natAbs = x.natAbs % y.natAbs := Int.natAbs_tmod x y
  have less := Nat.mod_le x.natAbs y.natAbs
  rcases Int.le_total 0 x with positive | negative
  · have := Int.tmod_nonneg y positive
    omega
  · have := tmod_nonpos y negative
    omega

namespace IntegralKind

variable {k : IntegralKind} {u v : Value} {x y : Int}

/-- The quotient of two numbers overflows in one case only. -/
theorem reduce_tdiv (left : u.IsNumber k x) :
    (BitRange.signed k.bits).reduce (x.tdiv y) =
      if x = k.least ∧ y = -1 then k.least else x.tdiv y := by
  have some : 0 < (BitRange.signed k.bits).bits := by cases k <;> decide
  obtain ⟨low, high⟩ := left.within
  rw [BitRange.reduce_eq_iff some]
  split
  · rename_i overflow
    obtain ⟨rfl, rfl⟩ := overflow
    rw [Int.tdiv_neg, Int.tdiv_one]
    cases k <;> exact ⟨by decide, by decide⟩
  · rename_i regular
    exact ⟨tdiv_bounds low high regular, rfl⟩

/-- Quotient and remainder are what the division with truncation gives, and quotient times divisor
plus remainder is the dividend. -/
theorem division (left : u.IsNumber k x) (right : v.IsNumber k y) (nonzero : y ≠ 0) :
    ∃ q r p,
      (Instruction.arithmetic .div k.numeric).Produces [u, v] q ∧
      (Instruction.arithmetic .rem k.numeric).Produces [u, v] r ∧
      (Instruction.arithmetic .mul k.numeric).Produces [q, v] p ∧
      (Instruction.arithmetic .add k.numeric).Produces [p, r] u ∧
      q.IsNumber k (if x = k.least ∧ y = -1 then k.least else x.tdiv y) ∧
      r.IsNumber k (x.tmod y) := by
  have both := AreNumbers.pair left right
  have quotient := Computes.arithmetic .div k x y
  have remainder := Computes.arithmetic .rem k x y
  simp only [ArithmeticOperator.number?, if_neg nonzero] at quotient remainder
  obtain ⟨q, number, divides⟩ := quotient.gives both nofun
  obtain ⟨r, number', leaves⟩ := remainder.gives both nofun
  obtain ⟨p, product, multiplies⟩ :=
    (Computes.arithmetic .mul k _ y).gives (.pair number right) nofun
  obtain ⟨sum, total, adds⟩ :=
    (Computes.arithmetic .add k _ _).gives (.pair product number') nofun
  have restored : (BitRange.signed k.bits).reduce
      ((BitRange.signed k.bits).reduce ((BitRange.signed k.bits).reduce (x.tdiv y) * y) +
        (BitRange.signed k.bits).reduce (x.tmod y)) = x := by
    simp only [BitRange.reduce, Int.bmod_mul_bmod, Int.bmod_add_bmod, Int.add_bmod_bmod,
      Int.tdiv_mul_add_tmod]
    exact left.reduce_eq
  have small : (BitRange.signed k.bits).reduce (x.tmod y) = x.tmod y := by
    have some : 0 < (BitRange.signed k.bits).bits := by cases k <;> decide
    obtain ⟨low, high⟩ := left.within
    exact (BitRange.reduce_eq_iff some).2 ⟨tmod_bounds low high, rfl⟩
  rw [restored] at total
  rw [reduce_tdiv left] at number
  rw [small] at number'
  cases total.unique left
  exact ⟨q, r, p, divides, leaves, multiplies, adds, number, number'⟩

end IntegralKind

namespace Instruction

/-- An `int` variable holds the exact sum reduced to its range afterwards. -/
theorem execute_increment (natives : NativeRegistry) (callers : List Frame) {a : Activation}
    {index : UInt16} {v : Int32} (amount : Int16)
    (holds : a.frame.locals.get index.toNat = .ok (.int v)) :
    ∃ sum : Int32, sum.toInt = (BitRange.signed 32).reduce (v.toInt + amount.toInt) ∧
      (increment index amount).execute natives callers a = .ok .proceed { a with
        frame := { a.frame with locals := a.frame.locals.write index.toNat (.int sum) } } := by
  refine ⟨v + amount.toInt32, ?_, ?_⟩
  · rw [Int32.toInt_add, Int16.toInt_toInt32]
    rfl
  · have read : a.frame.locals.getInt index.toNat = .ok v := by
      unfold LocalVariables.getInt LocalVariables.getAs
      rw [holds]
      rfl
    have inside : index.toNat + 1 ≤ a.frame.locals.size := by
      unfold LocalVariables.get at holds
      split at holds
      · rename_i slot
        exact (Array.getElem?_eq_some_iff.1 slot).1
      · cases holds
      · cases holds
    have written : a.frame.locals.set index.toNat (.int (v + amount.toInt32)) =
        .ok (a.frame.locals.write index.toNat (.int (v + amount.toInt32))) :=
      LocalVariables.set_eq_ok_iff.2 ⟨inside, rfl⟩
    apply Execution.proceeding_of_ok
    unfold Execution.increment
    rw [get_bind, read]
    change Execution.setLocal _ _ a = _
    unfold Execution.setLocal
    rw [get_bind, written]
    rfl

/-- Every instruction on `int` and `long` operands computes the exact number and pushes it reduced
to the range of the result. It fails for a quotient or a remainder by zero, a conversion to `long`
may find no room for its result, and there is no other failure. Quotients are rounded towards zero
and overflow in one case, remainders have the sign of the dividend, and a dividend is the product of
quotient and divisor plus the remainder, as the instructions compute them. -/
theorem integers_exact (natives : NativeRegistry) (callers : List Frame) :
    (∀ i numbers kind range number? operands rest (a : Activation),
      Computes i numbers kind range number? → AreNumbers operands numbers →
      a.frame.stack.WellFormed → a.frame.stack.values = operands.reverse ++ rest →
      Ends i kind range a rest number? (i.execute natives callers a)) ∧
    (∀ i numbers kind range number?, Computes i numbers kind range number? →
      (number? = none ↔ ∃ op k x, (op = .div ∨ op = .rem) ∧
        i = .arithmetic op (IntegralKind.numeric k) ∧ numbers = [(k, x), (k, 0)])) ∧
    (∀ index amount v (a : Activation), a.frame.locals.get index.toNat = .ok (.int v) →
      ∃ sum : Int32, sum.toInt = (BitRange.signed 32).reduce (v.toInt + amount.toInt) ∧
        (increment index amount).execute natives callers a = .ok .proceed { a with
          frame := { a.frame with locals := a.frame.locals.write index.toNat (.int sum) } }) ∧
    ∀ (k : IntegralKind) u v x y, u.IsNumber k x → v.IsNumber k y → y ≠ 0 →
      (∃ q r p, (arithmetic .div k.numeric).Produces [u, v] q ∧
        (arithmetic .rem k.numeric).Produces [u, v] r ∧
        (arithmetic .mul k.numeric).Produces [q, v] p ∧
        (arithmetic .add k.numeric).Produces [p, r] u ∧
        q.IsNumber k (if x = k.least ∧ y = -1 then k.least else x.tdiv y) ∧
        r.IsNumber k (x.tmod y)) ∧
      (y = -1 → x.tmod y = 0) ∧ (0 ≤ x → 0 ≤ x.tmod y) ∧ (x ≤ 0 → x.tmod y ≤ 0) := by
  refine ⟨?_, ?_, ?_, ?_⟩
  · intro i numbers kind range number? operands rest a h are wellFormed values
    exact h.ends are natives callers wellFormed values
  · intro i numbers kind range number? h
    exact h.none_iff
  · intro index amount v a holds
    exact execute_increment natives callers amount holds
  · intro k u v x y left right nonzero
    refine ⟨IntegralKind.division left right nonzero, ?_, Int.tmod_nonneg y, tmod_nonpos y⟩
    rintro rfl
    rw [Int.tmod_neg, Int.tmod_one]

def wrappingActivation : Activation where
  frame := ⟨0, default, 0, 1, ⟨#[some (.int 2147483647)]⟩, ⟨[.int (-1), .int (-2147483648)], 2, 2⟩⟩
  world := .empty .working 0

/-- The quotient of the least `int` by -1 is that number again, and a sum past the greatest one is
the least. -/
theorem integers_exact_wrapping :
    wrappingActivation.frame.stack.WellFormed ∧
    Ends (arithmetic .div .int) .int (.signed 32) wrappingActivation [] (some 2147483648)
      ((arithmetic .div .int).execute .standard [] wrappingActivation) ∧
    (BitRange.signed 32).reduce 2147483648 = -2147483648 ∧
    (ArithmeticOperator.number? .div 7 0 = none ↔ ∃ op k x, (op = .div ∨ op = .rem) ∧
      arithmetic .div .int = .arithmetic op (IntegralKind.numeric k) ∧
      [(.int, 7), (.int, 0)] = [(k, x), (k, (0 : Int))]) ∧
    (∃ sum : Int32, sum.toInt = -2147483648 ∧
      (increment 0 1).execute .standard [] wrappingActivation = .ok .proceed
        { wrappingActivation with frame :=
          { wrappingActivation.frame with locals := ⟨#[some (.int sum)]⟩ } }) ∧
    ∃ q r p, (arithmetic .div .int).Produces [.int (-2147483648), .int (-1)] q ∧
      (arithmetic .rem .int).Produces [.int (-2147483648), .int (-1)] r ∧
      (arithmetic .mul .int).Produces [q, .int (-1)] p ∧
      (arithmetic .add .int).Produces [p, r] (.int (-2147483648)) ∧
      q.IsNumber .int (-2147483648) ∧ r.IsNumber .int 0 := by
  have wellFormed : wrappingActivation.frame.stack.WellFormed := ⟨rfl, by decide⟩
  have left : (Value.int (-2147483648)).IsNumber .int (-2147483648) := .int rfl
  have right : (Value.int (-1)).IsNumber .int (-1) := .int rfl
  have truncated : ArithmeticOperator.number? .div (-2147483648) (-1) = some 2147483648 := by decide
  have quotient := Computes.arithmetic .div .int (-2147483648) (-1)
  rw [truncated] at quotient
  obtain ⟨ends, failing, increments, divides⟩ := integers_exact .standard []
  obtain ⟨⟨q, r, p, division⟩, -⟩ := divides .int _ _ _ _ left right (by decide)
  exact ⟨wellFormed,
    ends _ _ _ _ _ _ [] _ quotient (.pair left right) wellFormed rfl,
    by decide, failing _ _ _ _ _ (.arithmetic .div .int 7 0), increments 0 1 2147483647 _ rfl,
    q, r, p, division⟩

end Instruction

end JavaMachine
