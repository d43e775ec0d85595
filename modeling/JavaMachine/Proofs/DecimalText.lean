import JavaMachine.Number.Decimal
import JavaMachine.Proofs.PartialOperations
import Mathlib.Algebra.Order.Ring.Nat

/-!
# Decimal texts by partial operations

The text of a number is made from its shortest digits in scientific notation: that text is taken
apart, and its digits are laid out anew, cut in two at the point or filled up with zeros. Every
such text has a digit, and every cut and every number of zeros comes after a comparison that makes
it one, whatever the exponent. The exponents of the numbers of both formats can be read back.
-/
namespace JavaMachine

/-- The list cut in two after `n` elements, if it has that many. -/
def cut? {α : Type} (xs : List α) (n : Nat) : Option (List α × List α) :=
  if n ≤ xs.length then some (xs.take n, xs.drop n) else none

theorem cut?_eq {α : Type} {xs : List α} {n : Nat} (h : n ≤ xs.length) :
    cut? xs n = some (xs.take n, xs.drop n) := if_pos h

def splitMinus (text : List Char) : Bool × List Char :=
  match text with
  | '-' :: rest => (true, rest)
  | _ => (false, text)

def dropPlus (text : List Char) : List Char :=
  match text with
  | '+' :: rest => rest
  | _ => text

def readInt32? (text : List Char) : Option Int :=
  let (negative, unsigned) := splitMinus text
  let digits := if negative then unsigned else dropPlus unsigned
  if digits ≠ [] ∧ digits.all Char.isDigit then
    let magnitude : Int := Nat.ofDigitChars 10 digits 0
    let n := if negative then -magnitude else magnitude
    if -2147483648 ≤ n ∧ n ≤ 2147483647 then some n else none
  else none

namespace DecimalStyle

/-- The sign, the digits and the exponent in a scientific text. An exponent that cannot be read is
zero. -/
def parts (text : List Char) : Bool × List Char × Int :=
  let (negative, unsigned) := splitMinus text
  let exponent :=
    match unsigned.dropWhile (· ≠ 'e') with
    | [] => 0
    | _ :: rest => (readInt32? rest).getD 0
  (negative, (unsigned.takeWhile (· ≠ 'e')).filter (· ≠ '.'), exponent)

/-- Lays digits out for guest programs. -/
def layDigits? (digits : List Char) (exponent : Int) : Option (List Char) :=
  if -3 ≤ exponent ∧ exponent < 7 then
    if exponent < 0 then do
      let zeros ← natural? (-exponent - 1)
      return '0' :: '.' :: (List.replicate zeros '0' ++ digits)
    else do
      let point := (← natural? exponent) + 1
      if point < digits.length then
        let (whole, fraction) ← cut? digits point
        return whole ++ '.' :: fraction
      else
        let zeros ← difference? point digits.length
        return digits ++ List.replicate zeros '0' ++ ['.', '0']
  else do
    let (first, rest) ← cut? digits 1
    let rest := if rest.isEmpty then ['0'] else rest
    return first ++ '.' :: rest ++ 'E' :: exponentChars exponent

/-- Lays out for guest programs what a scientific text says. -/
def relayout? (text : List Char) : Option (List Char) := do
  let (negative, digits, exponent) := parts text
  let unsigned ← layDigits? digits exponent
  return if negative then '-' :: unsigned else unsigned

def write? (f : FloatFormat) : FloatReading → Option String
  | .nan => some "NaN"
  | .infinite negative => some (if negative then "-Infinity" else "Infinity")
  | .finite negative significand exponent =>
    if significand = 0 then some (if negative then "-0.0" else "0.0")
    else do
      let d := Decimal.shortest f negative significand exponent
      let sign := if d.negative then ['-'] else []
      return String.ofList (← relayout? (sign ++ diagnostic.scientific d.digits d.exponent))

/-! ### Layout -/

theorem layDigits?_eq {digits : List Nat} (some_digit : digits ≠ []) (exponent : Int) :
    layDigits? (digitChars digits) exponent = some
      (if -3 ≤ exponent ∧ exponent < 7 then plain digits exponent
        else guest.scientific digits exponent) := by
  have length : (digitChars digits).length = digits.length := List.length_map _
  unfold layDigits?
  by_cases few : -3 ≤ exponent ∧ exponent < 7
  · rw [if_pos few, if_pos few]
    unfold plain
    by_cases negative : exponent < 0
    · have zeros : (-exponent - 1).toNat = (-exponent).toNat - 1 := by omega
      rw [if_pos negative, if_pos negative, natural?_eq (by omega), zeros]
      simp [digitChars]
    · rw [if_neg negative, if_neg negative, natural?_eq (by omega), Option.bind_eq_bind,
        Option.bind_some, length]
      by_cases within : exponent.toNat + 1 < digits.length
      · rw [if_pos within, if_pos within, cut?_eq (by omega)]
        simp [digitChars]
      · rw [if_neg within, if_neg within, difference?_eq (by omega)]
        simp [digitChars]
  · have first : 1 ≤ (digitChars digits).length := by
      rw [length]
      exact List.length_pos_iff.2 some_digit
    rw [if_neg few, if_neg few, cut?_eq first]
    cases digits with
    | nil => contradiction
    | cons a rest => cases rest <;> simp [scientific, digitChars, guest]

/-! ### Scientific texts -/

theorem toNat_digitChar : ∀ n < 10, (Nat.digitChar n).toNat - '0'.toNat = n := by decide

theorem isDigit_of_mem_digitChars {digits : List Nat} (small : ∀ n ∈ digits, n < 10) :
    ∀ c ∈ digitChars digits, c.isDigit = true := by
  intro c member
  obtain ⟨n, listed, rfl⟩ := List.mem_map.1 member
  rw [Nat.isDigit_digitChar]
  exact decide_eq_true (small n listed)

theorem splitMinus_of_isDigit {c : Char} {rest : List Char} (digit : c.isDigit = true) :
    splitMinus (c :: rest) = (false, c :: rest) := by
  unfold splitMinus
  split
  · simp_all
  · rfl

theorem dropPlus_of_isDigit {c : Char} {rest : List Char} (digit : c.isDigit = true) :
    dropPlus (c :: rest) = c :: rest := by
  unfold dropPlus
  split
  · simp_all
  · rfl

theorem readInt32?_exponentChars {exponent : Int} (low : -2147483648 ≤ exponent)
    (high : exponent ≤ 2147483647) : readInt32? (exponentChars exponent) = some exponent := by
  have digit (n : Nat) : ∀ c ∈ Nat.toDigits 10 n, c.isDigit = true := fun _ =>
    Nat.isDigit_of_mem_toDigits (by decide) (by decide)
  have all (n : Nat) : (Nat.toDigits 10 n).all Char.isDigit = true := List.all_eq_true.2 (digit n)
  unfold exponentChars readInt32?
  by_cases negative : exponent < 0
  · have same : -(((-exponent).toNat : Nat) : Int) = exponent := by omega
    rw [if_pos negative]
    simp only [splitMinus, ne_eq, Nat.toDigits_ne_nil, not_false_eq_true, all, and_self, if_true,
      Nat.ofDigitChars_ten_toDigits, same, low, high]
  · have same : ((exponent.toNat : Nat) : Int) = exponent := by omega
    obtain ⟨c, rest, digits⟩ := List.exists_cons_of_ne_nil
      (Nat.toDigits_ne_nil (n := exponent.toNat) (b := 10))
    have first : c.isDigit = true := digit exponent.toNat c (digits ▸ List.mem_cons_self)
    rw [if_neg negative, digits, splitMinus_of_isDigit first]
    simp only [Bool.false_eq_true, if_false, dropPlus_of_isDigit first]
    rw [← digits]
    simp only [ne_eq, Nat.toDigits_ne_nil, not_false_eq_true, all, and_self, if_true,
      Nat.ofDigitChars_ten_toDigits, same, low, high]

/-- The digits of a scientific text, with a point after the first one if there are more. -/
def mantissa (digits : List Nat) : List Char :=
  match digits with
  | [] => []
  | n :: rest => n.digitChar :: if rest.isEmpty then [] else '.' :: digitChars rest

theorem scientific_eq_mantissa {digits : List Nat} (some_digit : digits ≠ []) (exponent : Int) :
    diagnostic.scientific digits exponent = mantissa digits ++ 'e' :: exponentChars exponent := by
  obtain ⟨n, rest, rfl⟩ := List.exists_cons_of_ne_nil some_digit
  cases rest <;> simp [mantissa, scientific, diagnostic, digitChars]

theorem mem_mantissa {digits : List Nat} {c : Char} (h : c ∈ mantissa digits) :
    c = '.' ∨ c ∈ digitChars digits := by
  cases digits with
  | nil => cases h
  | cons n rest => cases rest <;> simp_all [mantissa, digitChars, or_left_comm]

theorem ne_of_isDigit {c d : Char} (digit : c.isDigit = true) (other : d.isDigit = false) :
    c ≠ d := by
  rintro rfl
  rw [digit] at other
  contradiction

theorem unmarked_mantissa {digits : List Nat} (small : ∀ n ∈ digits, n < 10) :
    ∀ c ∈ mantissa digits, decide (c ≠ 'e') = true := by
  intro c member
  refine decide_eq_true ?_
  rcases mem_mantissa member with rfl | digit
  · decide
  · exact ne_of_isDigit (isDigit_of_mem_digitChars small c digit) rfl

theorem filter_mantissa {digits : List Nat} (small : ∀ n ∈ digits, n < 10) :
    (mantissa digits).filter (· ≠ '.') = digitChars digits := by
  have kept : (digitChars digits).filter (· ≠ '.') = digitChars digits :=
    List.filter_eq_self.2 fun c member =>
      decide_eq_true (ne_of_isDigit (isDigit_of_mem_digitChars small c member) rfl)
  rw [← kept]
  cases digits with
  | nil => rfl
  | cons n rest => cases rest <;> simp [mantissa, digitChars]

theorem splitMinus_mantissa {digits : List Nat} (some_digit : digits ≠ [])
    (small : ∀ n ∈ digits, n < 10) (negative : Bool) (rest : List Char) :
    splitMinus ((if negative then ['-'] else []) ++ (mantissa digits ++ rest)) =
      (negative, mantissa digits ++ rest) := by
  obtain ⟨n, others, rfl⟩ := List.exists_cons_of_ne_nil some_digit
  cases negative with
  | true => rfl
  | false => exact splitMinus_of_isDigit (isDigit_of_mem_digitChars small _ List.mem_cons_self)

/-- A scientific text is taken apart into what it was made of. -/
theorem parts_scientific {digits : List Nat} (some_digit : digits ≠ [])
    (small : ∀ n ∈ digits, n < 10) {exponent : Int} (low : -2147483648 ≤ exponent)
    (high : exponent ≤ 2147483647) (negative : Bool) :
    parts ((if negative then ['-'] else []) ++ diagnostic.scientific digits exponent) =
      (negative, digitChars digits, exponent) := by
  have unmarked := unmarked_mantissa small
  unfold parts
  rw [scientific_eq_mantissa some_digit, splitMinus_mantissa some_digit small]
  dsimp only
  rw [List.takeWhile_append_of_pos unmarked, List.dropWhile_append_of_pos unmarked,
    List.takeWhile_cons_of_neg (by simp), List.dropWhile_cons_of_neg (by simp), List.append_nil,
    filter_mantissa small]
  simp only [readInt32?_exponentChars low high, Option.getD_some]

/-- What a scientific text says is laid out as the decimal is that the text was made of. -/
theorem relayout?_scientific {d : Decimal} (some_digit : d.digits ≠ [])
    (small : ∀ n ∈ d.digits, n < 10) (low : -2147483648 ≤ d.exponent)
    (high : d.exponent ≤ 2147483647) :
    relayout? ((if d.negative then ['-'] else []) ++ diagnostic.scientific d.digits d.exponent) =
      some (guest.layout d) := by
  unfold relayout?
  rw [parts_scientific some_digit small low high]
  simp only [layDigits?_eq some_digit, Option.bind_eq_bind, Option.bind_some]
  rfl

end DecimalStyle

/-! ### Shortest digits -/

namespace Decimal

theorem length_le {n k : Nat} (h : n < 10 ^ k) : length n ≤ k := by
  unfold length
  split
  · exact Nat.zero_le k
  · rename_i pos
    have : 0 < k := by
      rcases k with _ | k
      · simp at h
        contradiction
      · exact Nat.succ_pos k
    exact (Nat.length_toDigits_le_iff (by decide) this).2 h

theorem digitsOf_ne_nil (n : Nat) : digitsOf n ≠ [] := by
  simp [digitsOf, Nat.toDigits_ne_nil]

theorem lt_of_mem_digitsOf {n : Nat} : ∀ d ∈ digitsOf n, d < 10 := by
  intro d member
  obtain ⟨c, listed, rfl⟩ := List.mem_map.1 member
  have digit := Nat.isDigit_of_mem_toDigits (by decide) (by decide) listed
  simp only [Char.isDigit, Bool.and_eq_true, decide_eq_true_eq] at digit
  have high : c.toNat ≤ 57 := digit.2
  have : '0'.toNat = 48 := rfl
  omega

/-- A fraction whose parts have at most `k` digits is less than `k` powers of ten away from one. -/
theorem leadingExponent_bounds {num den k : Nat} (pos : 0 < k) (hn : num < 10 ^ k)
    (hd : den < 10 ^ k) : -(k : Int) ≤ leadingExponent num den ∧ leadingExponent num den < k := by
  unfold leadingExponent
  split
  · have := length_le (Nat.lt_of_le_of_lt (Nat.div_le_self num den) hn)
    omega
  · rename_i less
    have small : (den + num - 1) / num - 1 ≤ den := by
      rcases Nat.eq_zero_or_pos num with rfl | positive
      · simp
      · rw [show den + num - 1 = den - 1 + num by omega, Nat.add_div_right _ positive]
        have := Nat.div_le_self (den - 1) num
        omega
    have := length_le (Nat.lt_of_le_of_lt small hd)
    omega

/-- A grid has a point in the interval, the one below the middle or the one above, unless it is
coarser than the interval is wide. -/
theorem onGrid?_cases (i : Interval) (num den : Nat) (power : Int) :
    (∃ point, i.onGrid? num den power = some point ∧
      i.middle * (scale num den power).1 / (scale num den power).2 ≤ point ∧
      point ≤ i.middle * (scale num den power).1 / (scale num den power).2 + 1) ∨
    (i.onGrid? num den power = none ∧
      i.high * (scale num den power).1 ≤
        i.low * (scale num den power).1 + (scale num den power).2) := by
  unfold Interval.onGrid?
  dsimp only
  generalize (scale num den power).1 = a
  generalize (scale num den power).2 = b
  generalize i.middle * a / b = down
  have up : (down + 1) * b = down * b + b := Nat.succ_mul down b
  rw [up]
  generalize fitsDown : (if i.closed then decide (i.low * a ≤ down * b) else _) = downFits
  generalize fitsUp : (if i.closed then decide (down * b + b ≤ i.high * a) else _) = upFits
  cases downFits <;> cases upFits
  case false.false =>
    refine .inr ⟨rfl, ?_⟩
    have below : down * b ≤ i.low * a := by
      split at fitsDown
      · exact Nat.le_of_not_le (of_decide_eq_false fitsDown)
      · exact Nat.le_of_not_lt (of_decide_eq_false fitsDown)
    have above : i.high * a ≤ down * b + b := by
      split at fitsUp
      · exact Nat.le_of_not_le (of_decide_eq_false fitsUp)
      · exact Nat.le_of_not_lt (of_decide_eq_false fitsUp)
    omega
  case false.true => exact .inl ⟨down + 1, rfl, Nat.le_succ down, Nat.le_refl _⟩
  case true.false => exact .inl ⟨down, rfl, Nat.le_refl down, Nat.le_succ down⟩
  case true.true =>
    by_cases nearer : i.middle * a - down * b < down * b + b - i.middle * a
    · exact .inl ⟨down, if_pos nearer, Nat.le_refl down, Nat.le_succ down⟩
    · exact .inl ⟨down + 1, if_neg nearer, Nat.le_succ down, Nat.le_refl _⟩

theorem onGrid?_eq_some {i : Interval} {num den point : Nat} {power : Int}
    (h : i.onGrid? num den power = some point) :
    i.middle * (scale num den power).1 / (scale num den power).2 ≤ point ∧
      point ≤ i.middle * (scale num den power).1 / (scale num den power).2 + 1 := by
  rcases onGrid?_cases i num den power with ⟨q, found, near⟩ | ⟨missing, -⟩
  · cases h.symm.trans found
    exact near
  · rw [missing] at h
    cases h

theorem onGrid?_lt {i : Interval} {num den k point : Nat} {power : Int}
    (h : i.onGrid? num den power = some point) (size : i.middle * num < 10 ^ k) :
    point < 10 ^ (k + (-power).toNat + 1) := by
  have scaled : (scale num den power).1 ≤ num * 10 ^ (-power).toNat := by
    unfold scale
    split
    · exact Nat.le_mul_of_pos_right num (Nat.pow_pos (by decide))
    · exact Nat.le_refl _
  have near := (onGrid?_eq_some h).2
  have down : i.middle * (scale num den power).1 / (scale num den power).2 <
      10 ^ (k + (-power).toNat) := by
    calc i.middle * (scale num den power).1 / (scale num den power).2
        ≤ i.middle * (scale num den power).1 := Nat.div_le_self _ _
      _ ≤ i.middle * (num * 10 ^ (-power).toNat) := Nat.mul_le_mul_left _ scaled
      _ = i.middle * num * 10 ^ (-power).toNat := (Nat.mul_assoc _ _ _).symm
      _ < 10 ^ k * 10 ^ (-power).toNat :=
        Nat.mul_lt_mul_of_pos_right size (Nat.pow_pos (by decide))
      _ = 10 ^ (k + (-power).toNat) := (Nat.pow_add _ _ _).symm
  rw [Nat.pow_succ]
  generalize i.middle * (scale num den power).1 / (scale num den power).2 = n at near down
  omega

/-- The point is chosen on the coarsest grid that has one, so it has no more digits than one on the
finest. -/
theorem chosen_lt {i : Interval} {num den k point n : Nat} {leading : Int}
    (h : ((List.range maxDigits).findSome? fun (n : Nat) =>
      (i.onGrid? num den (leading - (n : Int))).map fun point => (point, n)).getD (0, 0) =
        (point, n))
    (size : i.middle * num < 10 ^ k) (low : -(k : Int) ≤ leading) : point < 10 ^ (2 * k + 17) := by
  rcases Option.eq_none_or_eq_some (List.findSome? _ _) with none | ⟨p, found⟩
  · rw [none] at h
    cases h
    exact Nat.pow_pos (by decide)
  · rw [found] at h
    cases h
    obtain ⟨m, listed, hm⟩ := List.exists_of_findSome?_eq_some found
    have few : m < 17 := List.mem_range.1 listed
    obtain ⟨q, onGrid, same⟩ := Option.map_eq_some_iff.1 hm
    cases same
    refine Nat.lt_of_lt_of_le (onGrid?_lt onGrid size) (Nat.pow_le_pow_right (by decide) ?_)
    omega

theorem shortest_bounds (f : FloatFormat) (negative : Bool) {significand k : Nat} {exponent : Int}
    (pos : 0 < k) (num : 4 * significand * 2 ^ (exponent - 2).toNat < 10 ^ k)
    (den : 2 ^ (2 - exponent).toNat < 10 ^ k) :
    let d := shortest f negative significand exponent
    d.digits ≠ [] ∧ (∀ n ∈ d.digits, n < 10) ∧ -(k : Int) ≤ d.exponent ∧
      d.exponent ≤ 3 * k + 17 := by
  unfold shortest
  extract_lets quarter num' den' interval leading found d
  have numerator : interval.middle * num' < 10 ^ k := by
    refine Nat.lt_of_le_of_lt (Nat.mul_le_mul_left _ ?_) num
    simp only [num', quarter]
    split
    · exact Nat.le_refl _
    · exact Nat.one_le_two_pow
  have denominator : den' < 10 ^ k := by
    refine Nat.lt_of_le_of_lt ?_ den
    simp only [den', quarter, Int.neg_sub]
    split
    · exact Nat.one_le_two_pow
    · exact Nat.le_refl _
  have leads := leadingExponent_bounds pos numerator denominator
  cases hp : found.getD (0, 0)
  rename_i point n
  have length : (digitsOf point).length ≤ 2 * k + 17 := by
    unfold digitsOf
    rw [List.length_map]
    exact (Nat.length_toDigits_le_iff (by decide) (by omega)).2 (chosen_lt hp numerator leads.1)
  simp only [d, hp]
  split
  · refine ⟨?_, fun d member => lt_of_mem_digitsOf d (List.mem_of_mem_take member), ?_⟩
    · simp [List.take_eq_nil_iff, digitsOf_ne_nil]
    · dsimp only
      omega
  · refine ⟨digitsOf_ne_nil point, lt_of_mem_digitsOf, ?_⟩
    dsimp only
    omega

end Decimal

/-! ### Numbers of both formats -/

theorem FloatFormat.read_bounds {f : FloatFormat} {bits significand : Nat} {negative : Bool}
    {exponent : Int} (h : f.read bits = .finite negative significand exponent) :
    significand < 2 ^ (f.fractionBits + 1) ∧ f.minExponent ≤ exponent ∧
      exponent < f.minExponent + 2 ^ f.exponentBits := by
  have fraction : bits % Nat.pow 2 f.fractionBits < 2 ^ f.fractionBits :=
    Nat.mod_lt _ (Nat.pow_pos (by decide))
  have biased : bits / Nat.pow 2 f.fractionBits % Nat.pow 2 f.exponentBits < 2 ^ f.exponentBits :=
    Nat.mod_lt _ (Nat.pow_pos (by decide))
  have width : (0 : Int) < 2 ^ f.exponentBits := by exact_mod_cast Nat.pow_pos (by decide)
  rw [Nat.pow_succ]
  unfold FloatFormat.read at h
  dsimp only at h
  split at h
  · split at h <;> cases h
  · split at h
    · cases h
      omega
    · cases h
      have : (Nat.pow 2 f.fractionBits) = 2 ^ f.fractionBits := rfl
      have : ((bits / Nat.pow 2 f.fractionBits % Nat.pow 2 f.exponentBits : Nat) : Int) <
        2 ^ f.exponentBits := by exact_mod_cast biased
      omega

/-- The numbers of the format and their parts have less than `k` digits before and after the point,
and few enough for their exponents to be read back. -/
structure FloatFormat.Bounded (f : FloatFormat) (k : Nat) : Prop where
  positive : 0 < k
  few : 3 * k + 17 ≤ 2147483647
  high : 2 ^ (f.fractionBits + 3) * 2 ^ (f.minExponent + 2 ^ f.exponentBits - 2).toNat < 10 ^ k
  low : 2 ^ (2 - f.minExponent).toNat < 10 ^ k

theorem FloatFormat.bounded_binary32 : binary32.Bounded 400 :=
  ⟨by decide, by decide, by decide +kernel, by decide +kernel⟩

theorem FloatFormat.bounded_binary64 : binary64.Bounded 400 :=
  ⟨by decide, by decide, by decide +kernel, by decide +kernel⟩

section Format

variable {f : FloatFormat} {k : Nat}

/-- The shortest digits of a number of the format and their exponent. -/
theorem FloatFormat.Bounded.shortest (bounded : f.Bounded k) {bits significand : Nat}
    {negative : Bool} {exponent : Int} (h : f.read bits = .finite negative significand exponent) :
    let d := Decimal.shortest f negative significand exponent
    d.digits ≠ [] ∧ (∀ n ∈ d.digits, n < 10) ∧ -2147483648 ≤ d.exponent ∧
      d.exponent ≤ 2147483647 := by
  obtain ⟨significant, least, greatest⟩ := FloatFormat.read_bounds h
  have few := bounded.few
  have num : 4 * significand * 2 ^ (exponent - 2).toNat < 10 ^ k := by
    refine Nat.lt_of_le_of_lt (Nat.mul_le_mul ?_ ?_) bounded.high
    · rw [Nat.pow_add]
      omega
    · exact Nat.pow_le_pow_right (by decide) (by omega)
  have den : 2 ^ (2 - exponent).toNat < 10 ^ k :=
    Nat.lt_of_le_of_lt (Nat.pow_le_pow_right (by decide) (by omega)) bounded.low
  obtain ⟨some_digit, digits, lowest, highest⟩ :=
    Decimal.shortest_bounds f negative bounded.positive num den
  exact ⟨some_digit, digits, by omega, by omega⟩

theorem FloatFormat.Bounded.write?_eq (bounded : f.Bounded k) (bits : Nat) :
    DecimalStyle.write? f (f.read bits) = some (DecimalStyle.guest.write f (f.read bits)) := by
  cases h : f.read bits with
  | nan => rfl
  | infinite negative => cases negative <;> rfl
  | finite negative significand exponent =>
    obtain ⟨some_digit, digits, least, greatest⟩ := bounded.shortest h
    unfold DecimalStyle.write? DecimalStyle.write
    by_cases zero : significand = 0
    · simp only [if_pos zero]
    · simp only [if_neg zero, DecimalStyle.relayout?_scientific some_digit digits least greatest]
      rfl

end Format

def Binary64.text? (x : Binary64) : Option String := DecimalStyle.write? .binary64 x.read

def Binary32.text? (x : Binary32) : Option String := DecimalStyle.write? .binary32 x.read

theorem Binary64.text?_eq (x : Binary64) : x.text? = some (x.text .guest) :=
  FloatFormat.bounded_binary64.write?_eq x.bits.toNat

theorem Binary32.text?_eq (x : Binary32) : x.text? = some (x.text .guest) :=
  FloatFormat.bounded_binary32.write?_eq x.bits.toNat

end JavaMachine
