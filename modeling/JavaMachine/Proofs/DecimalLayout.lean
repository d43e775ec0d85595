import JavaMachine.Proofs.LeadingDigits
import JavaMachine.Proofs.Numerals

/-!
# The layout of decimals

Guest programs see a decimal with its point put elsewhere and zeros filled in, or with a digit in
front of the point and its power of ten. Either way the point has moved as far as the power of ten
has changed, so the text denotes the same number, and the number's size says which way it is. All
that is asked of a decimal is that its first digit is not zero, and this holds of the shortest
digits of every number but zero.
-/
namespace JavaMachine

open DecimalStyle

/-- The numeral shows guest programs a number: it denotes the number and has its sign and digits on
each side of the point. It has no power of ten from a thousandth up to ten million, and otherwise
there is one digit before the point, not zero. -/
structure Numeral.Shows (n : Numeral) (q : ℚ) : Prop where
  wellFormed : n.WellFormed
  fraction : n.fraction ≠ []
  value : n.value = q
  sign : n.negative = true ↔ q < 0
  plain : n.exponent = none ↔ 1 / 1000 ≤ |q| ∧ |q| < 10 ^ 7
  scientific : n.exponent ≠ none → ∃ first, first ≠ 0 ∧ n.whole = [first]

namespace Decimal

variable {d : Decimal}

def numeral (d : Decimal) : Numeral :=
  ⟨d.negative, d.digits.take 1, d.digits.drop 1, some d.exponent⟩

structure Normalized (d : Decimal) : Prop where
  small : ∀ n ∈ d.digits, n < 10
  leading : ∃ first rest, d.digits = first :: rest ∧ first ≠ 0

theorem Normalized.ne_nil (normalized : d.Normalized) : d.digits ≠ [] := by
  obtain ⟨first, rest, digits, -⟩ := normalized.leading
  rw [digits]
  exact List.cons_ne_nil first rest

theorem text_numeral (some_digit : d.digits ≠ []) :
    d.numeral.text 'e' =
      (if d.negative then ['-'] else []) ++ diagnostic.scientific d.digits d.exponent := by
  obtain ⟨first, rest, digits⟩ := List.exists_cons_of_ne_nil some_digit
  unfold numeral Numeral.text Numeral.signText Numeral.fractionText Numeral.exponentText
  rw [digits]
  cases rest <;> simp [DecimalStyle.scientific, diagnostic, digitChars]

theorem digits_numeral (d : Decimal) : d.numeral.digits = d.digits := List.take_append_drop 1 _

theorem power_numeral (some_digit : d.digits ≠ []) :
    d.numeral.power = d.exponent - (d.digits.length - 1) := by
  have length : 0 < d.digits.length := List.length_pos_iff.2 some_digit
  simp only [numeral, Numeral.power, Option.getD_some, List.length_drop]
  omega

/-- The exponent of a decimal is that of its magnitude. -/
theorem Normalized.magnitude_bounds (normalized : d.Normalized) :
    (10 : ℚ) ^ d.exponent ≤ d.numeral.magnitude ∧
      d.numeral.magnitude < 10 ^ (d.exponent + 1) := by
  obtain ⟨first, rest, digits, nonzero⟩ := normalized.leading
  have low : (10 : ℚ) ^ rest.length ≤ numberOf d.digits := by
    rw [digits]
    exact_mod_cast le_numberOf nonzero rest
  have high : (numberOf d.digits : ℚ) < 10 ^ (rest.length + 1) := by
    have := numberOf_lt normalized.small
    rw [digits, List.length_cons] at this
    rw [digits]
    exact_mod_cast this
  have unit : (0 : ℚ) < 10 ^ d.numeral.power := by positivity
  have power : d.numeral.power = d.exponent - rest.length := by
    rw [power_numeral normalized.ne_nil, digits, List.length_cons]
    push_cast
    ring
  have lowest : (10 : ℚ) ^ d.exponent = 10 ^ rest.length * 10 ^ d.numeral.power :=
    ten_zpow_eq (by omega)
  have highest : (10 : ℚ) ^ (d.exponent + 1) = 10 ^ (rest.length + 1) * 10 ^ d.numeral.power :=
    ten_zpow_eq (by omega)
  unfold Numeral.magnitude
  rw [digits_numeral]
  constructor
  · rw [lowest]
    exact mul_le_mul_of_nonneg_right low unit.le
  · rw [highest]
    exact mul_lt_mul_of_pos_right high unit

theorem Normalized.few_iff (normalized : d.Normalized) :
    -3 ≤ d.exponent ∧ d.exponent < 7 ↔
      1 / 1000 ≤ |d.numeral.value| ∧ |d.numeral.value| < 10 ^ 7 := by
  have one : (1 : ℚ) < 10 := by norm_num
  have least : (1 / 1000 : ℚ) = 10 ^ (-3 : Int) := by norm_num
  have most : (10 ^ 7 : ℚ) = 10 ^ (7 : Int) := by norm_num
  obtain ⟨low, high⟩ := normalized.magnitude_bounds
  rw [Numeral.abs_value, least, most]
  constructor
  · rintro ⟨above, below⟩
    exact ⟨(zpow_le_zpow_right₀ one.le above).trans low,
      high.trans_le (zpow_le_zpow_right₀ one.le (by omega))⟩
  · rintro ⟨above, below⟩
    have := (zpow_lt_zpow_iff_right₀ one).1 (above.trans_lt high)
    have := (zpow_lt_zpow_iff_right₀ one).1 (low.trans_lt below)
    omega

/-! ### Places of the point -/

/-- The digits before and after a point that stands so many places behind the first of some digits:
these digits, and zeros before or after them. -/
structure PlacesPoint (digits whole fraction : List Nat) (places : Int) : Prop where
  before : whole ≠ []
  after : fraction ≠ []
  listed : ∀ n ∈ whole ++ fraction, n = 0 ∨ n ∈ digits
  number : ∃ k : Nat, numberOf (whole ++ fraction) = numberOf digits * 10 ^ k ∧
    (fraction.length : Int) = digits.length - 1 - places + k

theorem plain_placesPoint {digits : List Nat} (some_digit : digits ≠ []) (exponent : Int) :
    ∃ whole fraction, plain digits exponent = digitChars whole ++ '.' :: digitChars fraction ∧
      PlacesPoint digits whole fraction exponent := by
  have length : 0 < digits.length := List.length_pos_iff.2 some_digit
  unfold plain
  split
  · rename_i negative
    refine ⟨[0], List.replicate ((-exponent).toNat - 1) 0 ++ digits, rfl, ?_, ?_, ?_, 0, ?_, ?_⟩
    · simp
    · simp [some_digit]
    · simp only [List.mem_append, List.mem_singleton, List.mem_replicate]
      tauto
    · rw [← List.append_assoc, pow_zero, Nat.mul_one]
      exact numberOf_zeros_append ((-exponent).toNat - 1 + 1) digits
    · rw [List.length_append, List.length_replicate]
      omega
  · rename_i nonneg
    dsimp only
    split
    · rename_i within
      refine ⟨digits.take (exponent.toNat + 1), digits.drop (exponent.toNat + 1), rfl, ?_, ?_, ?_,
        0, ?_, ?_⟩
      · simp [List.take_eq_nil_iff, some_digit]
      · simpa [List.drop_eq_nil_iff] using within
      · rw [List.take_append_drop]
        exact fun n member => .inr member
      · rw [List.take_append_drop, pow_zero, Nat.mul_one]
      · rw [List.length_drop]
        omega
    · rename_i beyond
      refine ⟨digits ++ List.replicate (exponent.toNat + 1 - digits.length) 0, [0], rfl, ?_, ?_, ?_,
        exponent.toNat + 1 - digits.length + 1, ?_, ?_⟩
      · simp [some_digit]
      · simp
      · simp only [List.mem_append, List.mem_singleton, List.mem_replicate]
        tauto
      · rw [List.append_assoc, ← numberOf_append_zeros, List.replicate_succ']
      · rw [List.length_singleton]
        omega

theorem scientific_placesPoint (first : Nat) (rest : List Nat) (exponent : Int) :
    ∃ fraction, guest.scientific (first :: rest) exponent =
        digitChars [first] ++ '.' :: (digitChars fraction ++ 'E' :: exponentChars exponent) ∧
      PlacesPoint (first :: rest) [first] fraction 0 := by
  cases rest with
  | nil =>
    refine ⟨[0], rfl, ?_, ?_, ?_, 1, ?_, ?_⟩
    · simp
    · simp
    · simp
    · exact numberOf_append_zeros [first] 1
    · simp
  | cons second others =>
    refine ⟨second :: others, rfl, ?_, ?_, ?_, 0, ?_, ?_⟩
    · simp
    · simp
    · exact fun n member => .inr member
    · rw [pow_zero, Nat.mul_one]
      rfl
    · simp

/-- The numeral with the point elsewhere denotes the same number if its exponent makes up for it. -/
theorem magnitude_of_placesPoint {whole fraction : List Nat} {places : Int} {exponent : Option Int}
    (some_digit : d.digits ≠ []) (point : PlacesPoint d.digits whole fraction places)
    (moved : places + exponent.getD 0 = d.exponent) :
    (Numeral.mk d.negative whole fraction exponent).magnitude = d.numeral.magnitude := by
  obtain ⟨k, number, length⟩ := point.number
  refine Numeral.magnitude_eq_of_zeros (k := k) ?_ ?_
  · rw [digits_numeral]
    exact number
  · rw [power_numeral some_digit]
    simp only [Numeral.power]
    omega

/-- What a numeral shows that has the point of a decimal elsewhere. -/
theorem Normalized.shows (normalized : d.Normalized) {whole fraction : List Nat} {places : Int}
    {exponent : Option Int} (point : PlacesPoint d.digits whole fraction places)
    (moved : places + exponent.getD 0 = d.exponent)
    (few : exponent = none ↔ -3 ≤ d.exponent ∧ d.exponent < 7)
    (one : exponent ≠ none → ∃ first, first ≠ 0 ∧ whole = [first]) :
    (Numeral.mk d.negative whole fraction exponent).Shows d.numeral.value := by
  have magnitude := magnitude_of_placesPoint normalized.ne_nil point moved
  have positive : 0 < d.numeral.magnitude :=
    lt_of_lt_of_le (by positivity) normalized.magnitude_bounds.1
  refine ⟨⟨?_, point.before⟩, point.after, ?_, ?_, ?_, one⟩
  · intro n member
    rcases point.listed n member with rfl | listed
    · decide
    · exact normalized.small n listed
  · unfold Numeral.value
    rw [magnitude]
    rfl
  · exact Numeral.negative_iff (n := d.numeral) positive
  · exact few.trans normalized.few_iff

theorem layout_guest (d : Decimal) :
    guest.layout d = (if d.negative then ['-'] else []) ++
      if -3 ≤ d.exponent ∧ d.exponent < 7 then plain d.digits d.exponent
      else guest.scientific d.digits d.exponent := by
  unfold layout
  cases d.negative <;> rfl

theorem Normalized.layout_shows (normalized : d.Normalized) :
    ∃ n : Numeral, guest.layout d = n.text 'E' ∧ n.Shows d.numeral.value := by
  obtain ⟨first, rest, digits, nonzero⟩ := normalized.leading
  by_cases few : -3 ≤ d.exponent ∧ d.exponent < 7
  · obtain ⟨whole, fraction, text, point⟩ := plain_placesPoint normalized.ne_nil d.exponent
    refine ⟨⟨d.negative, whole, fraction, none⟩, ?_, normalized.shows point ?_ ?_ ?_⟩
    · rw [layout_guest, if_pos few, text]
      simp [Numeral.text, Numeral.signText, Numeral.fractionText, Numeral.exponentText,
        point.after]
    · exact Int.add_zero _
    · exact iff_of_true rfl few
    · exact fun h => absurd rfl h
  · obtain ⟨fraction, text, point⟩ := scientific_placesPoint first rest d.exponent
    refine ⟨⟨d.negative, [first], fraction, some d.exponent⟩, ?_,
      normalized.shows (digits ▸ point) ?_ ?_ ?_⟩
    · rw [layout_guest, if_neg few, digits, text]
      simp [Numeral.text, Numeral.signText, Numeral.fractionText, Numeral.exponentText,
        point.after]
    · exact Int.zero_add _
    · exact iff_of_false nofun few
    · exact fun _ => ⟨first, nonzero, rfl⟩

/-- The text is the one that guest programs see of the decimal: that of a numeral that shows its
number, and a text of no other number. -/
def ShownAs (d : Decimal) (text : List Char) : Prop :=
  ∃ n : Numeral, text = n.text 'E' ∧ n.Shows d.numeral.value ∧
    ∀ q, Numeral.Denotes 'E' text q ↔ q = d.numeral.value

theorem Normalized.shownAs_layout (normalized : d.Normalized) : d.ShownAs (guest.layout d) := by
  obtain ⟨n, text, shows⟩ := normalized.layout_shows
  refine ⟨n, text, shows, fun q => ?_⟩
  rw [text, Numeral.denotes_text_iff shows.wellFormed rfl (by decide), shows.value]

/-- The scientific text of a decimal is laid out as the decimal is. -/
theorem Normalized.relayout?_text (normalized : d.Normalized) (least : -2147483648 ≤ d.exponent)
    (greatest : d.exponent ≤ 2147483647) :
    relayout? (d.numeral.text 'e') = some (guest.layout d) := by
  rw [text_numeral normalized.ne_nil]
  exact relayout?_scientific normalized.ne_nil normalized.small least greatest

/-- What guest programs see of a number of a format: the decimal with the shortest digits, made from
its scientific text. -/
theorem write_shortest {f : FloatFormat} {k : Nat} (bounded : f.Bounded k)
    (narrow : 2 ^ (f.fractionBits + 1) ≤ 10 ^ 16) {bits significand : Nat} {negative : Bool}
    {exponent : Int} (h : f.read bits = .finite negative significand exponent)
    (nonzero : significand ≠ 0) :
    let d := shortest f negative significand exponent
    d.Normalized ∧ ∃ text, relayout? (d.numeral.text 'e') = some text ∧
      guest.write f (f.read bits) = String.ofList text ∧ d.ShownAs text := by
  intro d
  obtain ⟨-, small, least, greatest⟩ := bounded.shortest h
  have significant := (FloatFormat.read_bounds h).1
  have normalized : d.Normalized :=
    ⟨small, shortest_leading nonzero (significant.trans_le narrow) narrow negative exponent⟩
  refine ⟨normalized, guest.layout d, normalized.relayout?_text least greatest, ?_,
    normalized.shownAs_layout⟩
  rw [h]
  exact if_neg nonzero

/-- Every decimal whose first digit is not zero is laid out as a text that denotes its number and
no other, with its sign, with digits on each side of the point, and with a power of ten exactly if
it is below a thousandth or not below ten million. So is what a scientific text of such a decimal
says, and what guest programs see of a number other than zero is made from the scientific text of
such a decimal, the one with the shortest digits. -/
theorem layout_exact :
    (∀ d : Decimal, d.Normalized → d.ShownAs (guest.layout d)) ∧
    (∀ d : Decimal, d.Normalized → -2147483648 ≤ d.exponent → d.exponent ≤ 2147483647 →
      ∃ text, relayout? (d.numeral.text 'e') = some text ∧ d.ShownAs text) ∧
    (∀ (x : Binary32) (negative : Bool) (significand : Nat) (exponent : Int),
      x.read = .finite negative significand exponent → significand ≠ 0 →
      (shortest .binary32 negative significand exponent).Normalized ∧
      ∃ text, relayout? ((shortest .binary32 negative significand exponent).numeral.text 'e') =
          some text ∧
        x.text .guest = String.ofList text ∧
        (shortest .binary32 negative significand exponent).ShownAs text) ∧
    ∀ (x : Binary64) (negative : Bool) (significand : Nat) (exponent : Int),
      x.read = .finite negative significand exponent → significand ≠ 0 →
      (shortest .binary64 negative significand exponent).Normalized ∧
      ∃ text, relayout? ((shortest .binary64 negative significand exponent).numeral.text 'e') =
          some text ∧
        x.text .guest = String.ofList text ∧
        (shortest .binary64 negative significand exponent).ShownAs text := by
  refine ⟨fun d => Normalized.shownAs_layout, ?text, ?single, ?double⟩
  case text =>
    exact fun d normalized least greatest =>
      ⟨_, normalized.relayout?_text least greatest, normalized.shownAs_layout⟩
  case single =>
    exact fun x negative significand exponent =>
      write_shortest FloatFormat.bounded_binary32 (by decide)
  case double =>
    exact fun x negative significand exponent =>
      write_shortest FloatFormat.bounded_binary64 (by decide)

theorem layout_exact_bounds :
    (Decimal.mk true [1, 2, 5] 1).ShownAs "-12.5".toList ∧
    (∃ text, relayout? "-1.25e1".toList = some text ∧
      (Decimal.mk true [1, 2, 5] 1).ShownAs text) ∧
    (∃ text, relayout? "1e7".toList = some text ∧
      (Binary32.mk 0x4B189680).text .guest = String.ofList text ∧
      (Decimal.mk false [1] 7).ShownAs text) ∧
    ∃ text, relayout? "1e-3".toList = some text ∧
      (Binary64.mk 0x3F50624DD2F1A9FC).text .guest = String.ofList text ∧
      (Decimal.mk false [1] (-3)).ShownAs text := by
  obtain ⟨decimals, texts, singles, doubles⟩ := layout_exact
  have normalized : (Decimal.mk true [1, 2, 5] 1).Normalized :=
    ⟨by decide, 1, [2, 5], rfl, by decide⟩
  have single : shortest .binary32 false 10000000 0 = ⟨false, [1], 7⟩ := by decide +kernel
  have double : shortest .binary64 false 0x10624DD2F1A9FC (-62) = ⟨false, [1], -3⟩ := by
    decide +kernel
  obtain ⟨-, single_shown⟩ := singles ⟨0x4B189680⟩ false 10000000 0 (by decide +kernel) (by decide)
  obtain ⟨-, double_shown⟩ := doubles ⟨0x3F50624DD2F1A9FC⟩ false 0x10624DD2F1A9FC (-62)
    (by decide +kernel) (by decide)
  rw [single] at single_shown
  rw [double] at double_shown
  exact ⟨decimals _ normalized, texts _ normalized (by decide) (by decide), single_shown,
    double_shown⟩

end Decimal

end JavaMachine
