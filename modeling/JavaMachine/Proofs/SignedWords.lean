import JavaMachine.Execution.Arithmetic
import Mathlib.Data.Int.Bitwise

/-!
# Words as signed numbers

A word stands for a whole number in two's complement, whose bits go on for ever with the sign. Here
the operations on words that work bit by bit are read as operations on these numbers: the bitwise
ones are those of whole numbers, and shifts multiply and divide by powers of two. The amount of a
shift is a number of its own, of which only the remainder by the width of the word counts.
-/
namespace JavaMachine

/-! ### Bits -/

theorem exists_clear_bit (m n : Nat) : ∃ k, m.testBit k = false ∧ n.testBit k = false := by
  refine ⟨max m n, Nat.testBit_lt_two_pow ?_, Nat.testBit_lt_two_pow ?_⟩
  · exact Nat.lt_of_le_of_lt (Nat.le_max_left m n) Nat.lt_two_pow_self
  · exact Nat.lt_of_le_of_lt (Nat.le_max_right m n) Nat.lt_two_pow_self

theorem eq_of_testBit_eq {m n : Int} (h : ∀ k, m.testBit k = n.testBit k) : m = n := by
  cases m with
  | ofNat m =>
    cases n with
    | ofNat n => exact congrArg Int.ofNat (Nat.eq_of_testBit_eq h)
    | negSucc n =>
      obtain ⟨k, left, right⟩ := exists_clear_bit m n
      have := h k
      simp [Int.testBit, left, right] at this
  | negSucc m =>
    cases n with
    | ofNat n =>
      obtain ⟨k, left, right⟩ := exists_clear_bit m n
      have := h k
      simp [Int.testBit, left, right] at this
    | negSucc n =>
      refine congrArg Int.negSucc (Nat.eq_of_testBit_eq fun k => ?_)
      simpa [Int.testBit] using h k

section Words

variable {w : Nat} (x y : BitVec w)

/-- The bits of the number are those of the word, and its sign beyond them. -/
theorem testBit_toInt (k : Nat) :
    x.toInt.testBit k = if k < w then x.getLsbD k else x.msb := by
  rw [BitVec.toInt_eq_msb_cond]
  cases negative : x.msb with
  | false =>
    rw [if_neg Bool.false_ne_true]
    change x.toNat.testBit k = _
    rw [BitVec.testBit_toNat]
    split
    · rfl
    · rename_i beyond
      exact BitVec.getLsbD_of_ge x k (Nat.not_lt.1 beyond)
  | true =>
    have complement : (x.toNat : Int) - (2 ^ w : Nat) = Int.negSucc (~~~x).toNat := by
      have := x.isLt
      rw [BitVec.toNat_not, Int.negSucc_eq]
      omega
    rw [if_pos rfl, complement]
    change (!(~~~x).toNat.testBit k) = _
    rw [BitVec.testBit_toNat, BitVec.getLsbD_not]
    by_cases inside : k < w <;> simp [inside]

theorem toInt_and : (x &&& y).toInt = x.toInt.land y.toInt := by
  refine eq_of_testBit_eq fun k => ?_
  simp only [testBit_toInt, Int.testBit_land, BitVec.getLsbD_and, BitVec.msb_and]
  split <;> rfl

theorem toInt_or : (x ||| y).toInt = x.toInt.lor y.toInt := by
  refine eq_of_testBit_eq fun k => ?_
  simp only [testBit_toInt, Int.testBit_lor, BitVec.getLsbD_or, BitVec.msb_or]
  split <;> rfl

theorem toInt_xor : (x ^^^ y).toInt = x.toInt.xor y.toInt := by
  refine eq_of_testBit_eq fun k => ?_
  simp only [testBit_toInt, Int.testBit_lxor, BitVec.getLsbD_xor, BitVec.msb_xor]
  split <;> rfl

/-! ### Shifts -/

theorem toNat_eq_emod : (x.toNat : Int) = x.toInt % (2 ^ w : Nat) := by
  have := x.isLt
  rw [BitVec.toInt_eq_msb_cond]
  split
  · rw [← Int.add_emod_right, Int.sub_add_cancel]
    exact (Int.emod_eq_of_lt (by omega) (by omega)).symm
  · exact (Int.emod_eq_of_lt (by omega) (by omega)).symm

theorem toInt_shiftLeft (n : Nat) : (x <<< n).toInt = (x.toInt * 2 ^ n).bmod (2 ^ w) := by
  rw [BitVec.toInt_shiftLeft, Nat.shiftLeft_eq, BitVec.toInt_eq_toNat_bmod x, Int.bmod_mul_bmod]
  push_cast
  rfl

theorem toInt_sshiftRight (n : Nat) : (x.sshiftRight n).toInt = x.toInt / 2 ^ n := by
  rw [BitVec.toInt_sshiftRight, Int.shiftRight_eq_div_pow]
  push_cast
  rfl

theorem toInt_ushiftRight (n : Nat) :
    (x >>> n).toInt = (x.toInt % 2 ^ w / 2 ^ n).bmod (2 ^ w) := by
  rw [BitVec.toInt_eq_toNat_bmod, BitVec.toNat_ushiftRight, Nat.shiftRight_eq_div_pow]
  push_cast
  rw [toNat_eq_emod]
  push_cast
  rfl

end Words

/-! ### Amounts of shifts -/

/-- The low bits of an `int` are its remainder by a power of two. -/
theorem toInt_and_mask (amount : Int32) {mask : Int32} {k : Nat} (few : k < 31)
    (ones : mask.toBitVec.toNat = 2 ^ k - 1) : (amount &&& mask).toInt = amount.toInt % 2 ^ k := by
  have lowBits : (amount &&& mask).toBitVec.toNat = amount.toBitVec.toNat % 2 ^ k := by
    rw [Int32.toBitVec_and, BitVec.toNat_and, ones, Nat.and_two_pow_sub_one_eq_mod]
  have small : amount.toBitVec.toNat % 2 ^ k < 2 ^ 31 :=
    Nat.lt_trans (Nat.mod_lt _ (Nat.two_pow_pos k)) (Nat.pow_lt_pow_right (by decide) few)
  have powers : ((2 ^ k : Nat) : Int) ∣ (2 ^ 32 : Nat) :=
    Int.natCast_dvd_natCast.2 (Nat.pow_dvd_pow 2 (by omega))
  rw [← Int32.toInt_toBitVec, BitVec.toInt_eq_toNat_of_lt (by omega), lowBits, Int.natCast_emod,
    toNat_eq_emod, Int.emod_emod_of_dvd _ powers, Int32.toInt_toBitVec]
  push_cast
  rfl

theorem rem_amount_32 : ∀ k : Fin 32, (BitVec.ofInt 32 k).smod 32 = BitVec.ofNat 32 k ∧
    BitVec.ofInt 32 k % 32 = BitVec.ofNat 32 k := by decide

theorem rem_amount_64 : ∀ k : Fin 64, (BitVec.ofInt 64 k).smod 64 = BitVec.ofNat 64 k ∧
    BitVec.ofInt 64 k % 64 = BitVec.ofNat 64 k := by decide

/-- The amount of a shift of an `int`, as a signed and as an unsigned word. -/
theorem shiftAmount_int (amount : Int32) :
    ((amount &&& 0x1f).toBitVec.smod 32).toNat = (amount.toInt % 32).toNat ∧
      ((amount &&& 0x1f).toUInt32.toBitVec % 32).toNat = (amount.toInt % 32).toNat := by
  have masked : (amount &&& 0x1f).toInt = amount.toInt % 32 :=
    toInt_and_mask amount (k := 5) (by decide) (by decide)
  have word : (amount &&& 0x1f).toBitVec = BitVec.ofInt 32 (amount.toInt % 32) := by
    rw [← masked]
    exact BitVec.ofInt_toInt.symm
  have within : (amount.toInt % 32).toNat < 32 := by omega
  have same : amount.toInt % 32 = ((amount.toInt % 32).toNat : Int) := by omega
  obtain ⟨signed, unsigned⟩ := rem_amount_32 ⟨(amount.toInt % 32).toNat, within⟩
  rw [Int32.toBitVec_toUInt32, word, same, signed, unsigned, BitVec.toNat_ofNat]
  exact ⟨Nat.mod_eq_of_lt (by omega), Nat.mod_eq_of_lt (by omega)⟩

theorem shiftAmount_long (amount : Int32) :
    ((amount &&& 0x3f).toInt64.toBitVec.smod 64).toNat = (amount.toInt % 64).toNat ∧
      ((amount &&& 0x3f).toInt64.toUInt64.toBitVec % 64).toNat = (amount.toInt % 64).toNat := by
  have masked : (amount &&& 0x3f).toInt = amount.toInt % 64 :=
    toInt_and_mask amount (k := 6) (by decide) (by decide)
  have word : (amount &&& 0x3f).toInt64.toBitVec = BitVec.ofInt 64 (amount.toInt % 64) := by
    rw [← masked]
    rfl
  have within : (amount.toInt % 64).toNat < 64 := by omega
  have same : amount.toInt % 64 = ((amount.toInt % 64).toNat : Int) := by omega
  obtain ⟨signed, unsigned⟩ := rem_amount_64 ⟨(amount.toInt % 64).toNat, within⟩
  rw [Int64.toBitVec_toUInt64, word, same, signed, unsigned, BitVec.toNat_ofNat]
  exact ⟨Nat.mod_eq_of_lt (by omega), Nat.mod_eq_of_lt (by omega)⟩

end JavaMachine
