import JavaMachine.Proofs.DecimalText
import Mathlib.Algebra.Order.Field.Power
import Mathlib.Algebra.Order.Field.Rat
import Mathlib.Data.Nat.Digits.Defs
import Mathlib.Tactic.Positivity
import Mathlib.Tactic.Ring

/-!
# Decimal numerals

A numeral is a sign, the digits before and after a point, and a power of ten if it has one. It has
a text, which determines it, and it denotes a rational number. Its value depends only on the number
that all its digits make and on the place of the point, so zeros may be put before the digits or
after them as the point moves.
-/
namespace JavaMachine

open DecimalStyle

/-- The number that digits make, the first one counting most. -/
def numberOf (digits : List Nat) : Nat := Nat.ofDigits 10 digits.reverse

theorem numberOf_append (xs ys : List Nat) :
    numberOf (xs ++ ys) = numberOf xs * 10 ^ ys.length + numberOf ys := by
  unfold numberOf
  rw [List.reverse_append, Nat.ofDigits_append, List.length_reverse]
  ring

theorem numberOf_zeros (k : Nat) : numberOf (List.replicate k 0) = 0 := by
  unfold numberOf
  rw [List.reverse_replicate, Nat.ofDigits_replicate_zero]

theorem numberOf_zeros_append (k : Nat) (digits : List Nat) :
    numberOf (List.replicate k 0 ++ digits) = numberOf digits := by
  rw [numberOf_append, numberOf_zeros, Nat.zero_mul, Nat.zero_add]

theorem numberOf_append_zeros (digits : List Nat) (k : Nat) :
    numberOf (digits ++ List.replicate k 0) = numberOf digits * 10 ^ k := by
  rw [numberOf_append, numberOf_zeros, List.length_replicate, Nat.add_zero]

theorem numberOf_lt {digits : List Nat} (small : ∀ n ∈ digits, n < 10) :
    numberOf digits < 10 ^ digits.length := by
  have bound := Nat.ofDigits_lt_base_pow_length (b := 10) (by decide)
    fun n member => small n (List.mem_reverse.1 member)
  rwa [List.length_reverse] at bound

theorem le_numberOf {first : Nat} (nonzero : first ≠ 0) (rest : List Nat) :
    10 ^ rest.length ≤ numberOf (first :: rest) := by
  have split : numberOf (first :: rest) = first * 10 ^ rest.length + numberOf rest := by
    rw [← List.singleton_append, numberOf_append]
    rfl
  rw [split]
  exact Nat.le_add_right_of_le (Nat.le_mul_of_pos_left _ (Nat.pos_of_ne_zero nonzero))

theorem ten_zpow_eq {k : Nat} {e p : Int} (h : e = k + p) : (10 : ℚ) ^ e = 10 ^ k * 10 ^ p := by
  have ten : (10 : ℚ) ≠ 0 := by norm_num
  rw [← zpow_natCast, ← zpow_add₀ ten, h]

/-! ### Characters -/

namespace DecimalStyle

theorem append_inj_of_all {p : Char → Bool} {xs ys rest others : List Char}
    (left : ∀ c ∈ xs, p c = true) (right : ∀ c ∈ ys, p c = true)
    (ends : ∀ c ∈ rest.head?, p c = false) (stops : ∀ c ∈ others.head?, p c = false)
    (same : xs ++ rest = ys ++ others) : xs = ys ∧ rest = others := by
  have cut {front tail : List Char} (all : ∀ c ∈ front, p c = true)
      (stop : ∀ c ∈ tail.head?, p c = false) : (front ++ tail).takeWhile p = front := by
    rw [List.takeWhile_append_of_pos all]
    cases tail with
    | nil => simp
    | cons c cs => simp [stop c rfl]
  have first : xs = ys := by rw [← cut left ends, same, cut right stops]
  subst first
  exact ⟨rfl, List.append_cancel_left same⟩

theorem digitChars_injective {xs ys : List Nat} (left : ∀ n ∈ xs, n < 10)
    (right : ∀ n ∈ ys, n < 10) (same : digitChars xs = digitChars ys) : xs = ys := by
  have back {ns : List Nat} (small : ∀ n ∈ ns, n < 10) :
      (digitChars ns).map (fun c => c.toNat - '0'.toNat) = ns := by
    unfold digitChars
    rw [List.map_map]
    exact (List.map_congr_left fun n member => toNat_digitChar n (small n member)).trans
      (List.map_id ns)
  rw [← back left, same, back right]

/-- An exponent can be read back from its text. -/
theorem exponentChars_injective : Function.Injective exponentChars := by
  intro e e' same
  have unsigned (k : Nat) (tail : List Char) : Nat.toDigits 10 k ≠ '-' :: tail := by
    intro h
    have : ('-').isDigit = true :=
      Nat.isDigit_of_mem_toDigits (b := 10) (n := k) (by decide) (by decide)
        (h ▸ List.mem_cons_self)
    contradiction
  have back {k l : Nat} (h : Nat.toDigits 10 k = Nat.toDigits 10 l) : k = l := by
    rw [← Nat.ofDigitChars_ten_toDigits (n := k), h, Nat.ofDigitChars_ten_toDigits]
  unfold exponentChars at same
  split at same <;> split at same
  · have := back (List.cons.inj same).2
    omega
  · exact absurd same.symm (unsigned _ _)
  · exact absurd same (unsigned _ _)
  · have := back same
    omega

end DecimalStyle

/-- `± whole.fraction · 10 ^ exponent`, without a power of ten if there is no exponent. -/
structure Numeral where
  negative : Bool
  whole : List Nat
  fraction : List Nat
  exponent : Option Int
  deriving DecidableEq

namespace Numeral

def digits (n : Numeral) : List Nat := n.whole ++ n.fraction

/-- The digits are those of the base, and one of them is in front. -/
structure WellFormed (n : Numeral) : Prop where
  small : ∀ d ∈ n.digits, d < 10
  whole : n.whole ≠ []

def signText (n : Numeral) : List Char := if n.negative then ['-'] else []

def fractionText (n : Numeral) : List Char :=
  if n.fraction.isEmpty then [] else '.' :: digitChars n.fraction

def exponentText (n : Numeral) (mark : Char) : List Char :=
  match n.exponent with
  | none => []
  | some e => mark :: exponentChars e

def text (n : Numeral) (mark : Char) : List Char :=
  n.signText ++ (digitChars n.whole ++ (n.fractionText ++ n.exponentText mark))

/-- The power of ten that the last digit counts. -/
def power (n : Numeral) : Int := n.exponent.getD 0 - n.fraction.length

def magnitude (n : Numeral) : ℚ := numberOf n.digits * 10 ^ n.power

def value (n : Numeral) : ℚ := if n.negative then -n.magnitude else n.magnitude

example : (Numeral.mk true [1, 2] [5] (some (-4))).text 'E' = "-12.5E-4".toList := by decide

/-! ### Values -/

theorem magnitude_nonneg (n : Numeral) : 0 ≤ n.magnitude := by
  unfold magnitude
  positivity

theorem abs_value (n : Numeral) : |n.value| = n.magnitude := by
  unfold value
  split
  · rw [abs_neg, abs_of_nonneg n.magnitude_nonneg]
  · exact abs_of_nonneg n.magnitude_nonneg

theorem negative_iff {n : Numeral} (nonzero : 0 < n.magnitude) :
    n.negative = true ↔ n.value < 0 := by
  unfold value
  cases n.negative with
  | true => simpa using nonzero
  | false => simpa using nonzero.le

/-- Zeros after the digits stand for a greater power of ten. -/
theorem magnitude_eq_of_zeros {n m : Numeral} {k : Nat}
    (digits : numberOf n.digits = numberOf m.digits * 10 ^ k) (power : n.power = m.power - k) :
    n.magnitude = m.magnitude := by
  have split : (10 : ℚ) ^ m.power = 10 ^ k * 10 ^ n.power := ten_zpow_eq (by omega)
  unfold magnitude
  rw [digits, split]
  push_cast
  ring

/-! ### Texts -/

section Injectivity

variable {n m : Numeral} {mark : Char}

theorem exponentText_head (digit : mark.isDigit = false) :
    ∀ c ∈ (n.exponentText mark).head?, c.isDigit = false := by
  intro c member
  unfold exponentText at member
  split at member
  · cases member
  · cases member
    exact digit

theorem afterWhole_head (digit : mark.isDigit = false) :
    ∀ c ∈ (n.fractionText ++ n.exponentText mark).head?, c.isDigit = false := by
  intro c member
  unfold fractionText at member
  split at member
  · exact exponentText_head digit c member
  · cases member
    rfl

theorem signText_injective (wellFormed : n.WellFormed) (wellFormed' : m.WellFormed)
    {rest others : List Char}
    (same : n.signText ++ (digitChars n.whole ++ rest) =
      m.signText ++ (digitChars m.whole ++ others)) :
    n.negative = m.negative ∧ digitChars n.whole ++ rest = digitChars m.whole ++ others := by
  have unsigned {k : Numeral} (wellFormed : k.WellFormed) (tail text : List Char) :
      digitChars k.whole ++ tail ≠ '-' :: text := by
    obtain ⟨first, others, whole⟩ := List.exists_cons_of_ne_nil wellFormed.whole
    have small : first < 10 := wellFormed.small first (by simp [digits, whole])
    rw [whole]
    intro h
    have digit : first.digitChar.isDigit = true := by
      rw [Nat.isDigit_digitChar]
      exact decide_eq_true small
    rw [(List.cons.inj h).1] at digit
    contradiction
  unfold signText at same
  cases hn : n.negative <;> cases hm : m.negative <;> rw [hn, hm] at same
  case false.false => exact ⟨rfl, same⟩
  case false.true => exact absurd same (unsigned wellFormed _ _)
  case true.false => exact absurd same.symm (unsigned wellFormed' _ _)
  case true.true => exact ⟨rfl, (List.cons.inj same).2⟩

theorem fractionText_injective (wellFormed : n.WellFormed) (wellFormed' : m.WellFormed)
    (digit : mark.isDigit = false) (point : mark ≠ '.')
    (same : n.fractionText ++ n.exponentText mark = m.fractionText ++ m.exponentText mark) :
    n.fraction = m.fraction ∧ n.exponentText mark = m.exponentText mark := by
  have unpointed (k : Numeral) (tail : List Char) : k.exponentText mark ≠ '.' :: tail := by
    unfold exponentText
    split
    · exact fun h => nomatch h
    · exact fun h => point (List.cons.inj h).1
  have small {k : Numeral} (wellFormed : k.WellFormed) : ∀ d ∈ k.fraction, d < 10 :=
    fun d member => wellFormed.small d (List.mem_append_right _ member)
  unfold fractionText at same
  split at same <;> split at same
  · rename_i empty empty'
    exact ⟨(List.isEmpty_iff.1 empty).trans (List.isEmpty_iff.1 empty').symm, same⟩
  · exact absurd same (unpointed n _)
  · exact absurd same.symm (unpointed m _)
  · obtain ⟨fractions, exponents⟩ := append_inj_of_all
      (isDigit_of_mem_digitChars (small wellFormed)) (isDigit_of_mem_digitChars (small wellFormed'))
      (exponentText_head digit) (exponentText_head digit) (List.cons.inj same).2
    exact ⟨digitChars_injective (small wellFormed) (small wellFormed') fractions, exponents⟩

theorem exponentText_injective (same : n.exponentText mark = m.exponentText mark) :
    n.exponent = m.exponent := by
  unfold exponentText at same
  cases hn : n.exponent <;> cases hm : m.exponent <;> rw [hn, hm] at same
  case none.some => exact nomatch same
  case some.none => exact nomatch same
  case some.some e e' => rw [exponentChars_injective (List.cons.inj same).2]

theorem text_injective (wellFormed : n.WellFormed) (wellFormed' : m.WellFormed)
    (digit : mark.isDigit = false) (point : mark ≠ '.') (same : n.text mark = m.text mark) :
    n = m := by
  have small {k : Numeral} (wellFormed : k.WellFormed) : ∀ d ∈ k.whole, d < 10 :=
    fun d member => wellFormed.small d (List.mem_append_left _ member)
  obtain ⟨negative, unsigned⟩ := signText_injective wellFormed wellFormed' same
  obtain ⟨wholes, rest⟩ := append_inj_of_all (isDigit_of_mem_digitChars (small wellFormed))
    (isDigit_of_mem_digitChars (small wellFormed')) (afterWhole_head digit) (afterWhole_head digit)
    unsigned
  obtain ⟨fraction, exponents⟩ := fractionText_injective wellFormed wellFormed' digit point rest
  have whole := digitChars_injective (small wellFormed) (small wellFormed') wholes
  have exponent := exponentText_injective exponents
  cases n
  cases m
  simp_all only

end Injectivity

/-- The number that a text denotes: that of the numeral whose text it is. -/
def Denotes (mark : Char) (text : List Char) (q : ℚ) : Prop :=
  ∃ n : Numeral, n.WellFormed ∧ n.text mark = text ∧ n.value = q

/-- The text of a numeral denotes the numeral's value and no other number. -/
theorem denotes_text_iff {n : Numeral} (wellFormed : n.WellFormed) {mark : Char}
    (digit : mark.isDigit = false) (point : mark ≠ '.') {q : ℚ} :
    Denotes mark (n.text mark) q ↔ q = n.value := by
  constructor
  · rintro ⟨m, wellFormed', same, rfl⟩
    rw [text_injective wellFormed' wellFormed digit point same]
  · rintro rfl
    exact ⟨n, wellFormed, rfl, rfl⟩

end Numeral

end JavaMachine
