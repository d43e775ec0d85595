import JavaMachine.Proofs.DecimalText

/-!
# Leading digits

The grids on which the shortest digits of a number are looked for begin with that of the number's
leading digit, so no number lies below the first point of any of them. Seventeen digits make a grid
finer than what lies between two numbers of either format, so a point is always found, and it is
not zero.
-/
namespace JavaMachine.Decimal

theorem digitsOf_leading {n : Nat} (positive : n ≠ 0) :
    ∃ first rest, digitsOf n = first :: rest ∧ first ≠ 0 := by
  induction n using Nat.strong_induction_on with
  | _ n ih =>
    unfold digitsOf
    by_cases lone : n < 10
    · have back : ∀ k < 10, (Nat.digitChar k).toNat - '0'.toNat = k := by decide
      refine ⟨n, [], ?_, positive⟩
      rw [Nat.toDigits_of_lt_base lone, List.map_singleton, back n lone]
    · obtain ⟨first, rest, digits, nonzero⟩ := ih (n / 10) (by omega) (by omega)
      unfold digitsOf at digits
      rw [Nat.toDigits_of_base_le (by decide) (by omega), List.map_append, digits]
      exact ⟨first, _, List.cons_append, nonzero⟩

theorem pow_length_le {n : Nat} (positive : n ≠ 0) :
    ∃ k, length n = k + 1 ∧ 10 ^ k ≤ n := by
  have some_digit : 0 < (Nat.toDigits 10 n).length :=
    List.length_pos_iff.2 Nat.toDigits_ne_nil
  obtain ⟨k, length⟩ : ∃ k, (Nat.toDigits 10 n).length = k + 1 := ⟨_, (Nat.succ_pred_eq_of_pos
    some_digit).symm⟩
  refine ⟨k, by rw [Decimal.length, if_neg positive, length], ?_⟩
  rcases Nat.eq_zero_or_pos k with rfl | several
  · exact Nat.one_le_iff_ne_zero.2 positive
  · refine Nat.le_of_not_lt fun small => ?_
    have := (Nat.length_toDigits_le_iff (by decide) several).2 small
    omega

theorem lt_pow_length (n : Nat) : n < 10 ^ length n := by
  unfold length
  split
  · rename_i zero
    rw [zero]
    decide
  · exact (Nat.length_toDigits_le_iff (by decide)
      (List.length_pos_iff.2 Nat.toDigits_ne_nil)).1 (Nat.le_refl _)

theorem scale_leadingExponent {num den : Nat} (positive : 0 < num) (divides : 0 < den) :
    (scale num den (leadingExponent num den)).2 ≤ (scale num den (leadingExponent num den)).1 := by
  unfold leadingExponent
  split
  · rename_i above
    obtain ⟨k, length, least⟩ := pow_length_le (n := num / den)
      (Nat.div_ne_zero_iff.2 ⟨Nat.ne_of_gt divides, above⟩)
    have power : ((k + 1 : Nat) : Int) - 1 = k := by omega
    rw [length, power, scale, if_pos (Int.natCast_nonneg k), Int.toNat_natCast]
    rw [Nat.mul_comm]
    exact (Nat.le_div_iff_mul_le divides).1 least
  · rename_i below
    have round : den ≤ (den + num - 1) / num * num := by
      have := Nat.div_add_mod (den + num - 1) num
      have := Nat.mod_lt (den + num - 1) positive
      rw [Nat.mul_comm]
      omega
    have inverse : 2 ≤ (den + num - 1) / num :=
      (Nat.le_div_iff_mul_le positive).2 (by omega)
    have high := lt_pow_length ((den + num - 1) / num - 1)
    obtain ⟨k, length, -⟩ := pow_length_le (n := (den + num - 1) / num - 1) (by omega)
    rw [length] at high ⊢
    rw [scale, if_neg (by omega), Int.neg_neg, Int.toNat_natCast]
    dsimp only
    calc den ≤ (den + num - 1) / num * num := round
      _ ≤ 10 ^ (k + 1) * num := Nat.mul_le_mul_right num (by omega)
      _ = num * 10 ^ (k + 1) := Nat.mul_comm _ _

theorem scale_finer {num den : Nat} {power : Int}
    (h : (scale num den power).2 ≤ (scale num den power).1) (n : Nat) :
    10 ^ n * (scale num den (power - n)).2 ≤ (scale num den (power - n)).1 := by
  unfold scale at h ⊢
  by_cases whole : 0 ≤ power
  · rw [if_pos whole] at h
    by_cases finer : 0 ≤ power - n
    · have split : power.toNat = (power - n).toNat + n := by omega
      rw [if_pos finer]
      rw [split] at h
      calc 10 ^ n * (den * 10 ^ (power - n).toNat) = den * 10 ^ ((power - n).toNat + n) := by
            rw [Nat.pow_add]
            ac_rfl
        _ ≤ num := h
    · have split : n = power.toNat + (-(power - n)).toNat := by omega
      rw [if_neg finer]
      calc 10 ^ n * den = den * 10 ^ power.toNat * 10 ^ (-(power - n)).toNat := by
            conv_lhs => rw [split, Nat.pow_add]
            ac_rfl
        _ ≤ num * 10 ^ (-(power - n)).toNat := Nat.mul_le_mul_right _ h
  · have split : (-(power - n)).toNat = (-power).toNat + n := by omega
    rw [if_neg whole] at h
    rw [if_neg (by omega), split]
    calc 10 ^ n * den ≤ 10 ^ n * (num * 10 ^ (-power).toNat) := Nat.mul_le_mul_left _ h
      _ = num * 10 ^ ((-power).toNat + n) := by
        rw [Nat.pow_add]
        ac_rfl

theorem scale_den_pos (num : Nat) {den : Nat} (divides : 0 < den) (power : Int) :
    0 < (scale num den power).2 := by
  unfold scale
  split
  · exact Nat.mul_pos divides (Nat.pow_pos (by decide))
  · exact divides

theorem scale_mul (factor num den : Nat) (power : Int) :
    scale (factor * num) den power =
      (factor * (scale num den power).1, (scale num den power).2) := by
  unfold scale
  split
  · rfl
  · rw [Nat.mul_assoc]

/-- The numbers that read back as a number of a format with few digits are more than a unit of the
seventeenth digit apart. -/
theorem width_around {f : FloatFormat} {significand : Nat} (small : significand < 10 ^ 16)
    (narrow : 2 ^ (f.fractionBits + 1) ≤ 10 ^ 16) (exponent : Int) :
    10 ^ 16 * (Interval.around f significand exponent).low +
        (Interval.around f significand exponent).middle <
      10 ^ 16 * (Interval.around f significand exponent).high := by
  unfold Interval.around
  dsimp only
  split
  · rename_i least
    have : significand = 2 ^ f.fractionBits := by
      simp only [Bool.and_eq_true, decide_eq_true_eq] at least
      exact least.1
    rw [Nat.pow_succ] at narrow
    omega
  · omega

/-- The grid of the seventeenth digit has a point in every such interval. -/
theorem exists_onGrid? {i : Interval} {num den : Nat} {power : Int}
    (wide : 10 ^ 16 * i.low + i.middle < 10 ^ 16 * i.high)
    (above : 10 ^ 16 * (scale num den power).2 ≤ i.middle * (scale num den power).1)
    (grid : 0 < (scale num den power).2) : ∃ point, i.onGrid? num den power = some point := by
  rcases onGrid?_cases i num den power with ⟨point, found, -⟩ | ⟨-, coarse⟩
  · exact ⟨point, found⟩
  generalize (scale num den power).1 = a at above coarse
  generalize (scale num den power).2 = b at above coarse grid
  have unit : 0 < a := by
    refine Nat.pos_of_ne_zero fun zero => ?_
    rw [zero, Nat.mul_zero] at above
    omega
  have : 10 ^ 16 * i.high * a < 10 ^ 16 * i.high * a := by
    calc 10 ^ 16 * i.high * a = 10 ^ 16 * (i.high * a) := Nat.mul_assoc _ _ _
      _ ≤ 10 ^ 16 * (i.low * a + b) := Nat.mul_le_mul_left _ coarse
      _ = 10 ^ 16 * i.low * a + 10 ^ 16 * b := by rw [Nat.mul_add, Nat.mul_assoc]
      _ ≤ 10 ^ 16 * i.low * a + i.middle * a := Nat.add_le_add_left above _
      _ = (10 ^ 16 * i.low + i.middle) * a := (Nat.add_mul _ _ _).symm
      _ < 10 ^ 16 * i.high * a := Nat.mul_lt_mul_of_pos_right wide unit
  exact absurd this (Nat.lt_irrefl _)

theorem onGrid?_ne_zero {i : Interval} {num den point n : Nat} {power : Int}
    (above : 10 ^ n * (scale num den power).2 ≤ i.middle * (scale num den power).1)
    (grid : 0 < (scale num den power).2) (found : i.onGrid? num den power = some point) :
    point ≠ 0 := by
  have least := (onGrid?_eq_some found).1
  have first := (Nat.le_div_iff_mul_le grid).2 above
  have := Nat.pow_pos (n := n) (show 0 < 10 by decide)
  omega

/-- The shortest digits of a number begin with one that is not zero. -/
theorem shortest_leading {f : FloatFormat} {significand : Nat} (positive : significand ≠ 0)
    (small : significand < 10 ^ 16) (narrow : 2 ^ (f.fractionBits + 1) ≤ 10 ^ 16)
    (negative : Bool) (exponent : Int) :
    ∃ first rest, (shortest f negative significand exponent).digits = first :: rest ∧
      first ≠ 0 := by
  unfold shortest
  extract_lets quarter num den interval leading found
  have numerator : 0 < num := by
    simp only [num]
    split
    · exact Nat.pow_pos (by decide)
    · decide
  have denominator : 0 < den := by
    simp only [den]
    split
    · decide
    · exact Nat.pow_pos (by decide)
  have middle : 0 < interval.middle := by
    simp only [interval, Interval.around]
    omega
  have grid (n : Nat) : 0 < (scale num den (leading - n)).2 := scale_den_pos num denominator _
  have above (n : Nat) : 10 ^ n * (scale num den (leading - n)).2 ≤
      interval.middle * (scale num den (leading - n)).1 := by
    have finer := scale_finer
      (scale_leadingExponent (Nat.mul_pos middle numerator) denominator) n
    rwa [scale_mul] at finer
  obtain ⟨last, onLast⟩ := exists_onGrid? (width_around small narrow exponent) (above 16) (grid 16)
  obtain ⟨⟨point, n⟩, finds⟩ : ∃ p, found = some p := by
    refine Option.ne_none_iff_exists'.1 fun missing => ?_
    have := List.findSome?_eq_none_iff.1 missing 16 (List.mem_range.2 (by decide))
    rw [onLast] at this
    cases this
  have nonzero : point ≠ 0 := by
    obtain ⟨m, -, mapped⟩ := List.exists_of_findSome?_eq_some finds
    obtain ⟨q, onGrid, same⟩ := Option.map_eq_some_iff.1 mapped
    cases same
    exact onGrid?_ne_zero (above n) (grid n) onGrid
  obtain ⟨first, rest, digits, leads⟩ := digitsOf_leading nonzero
  simp only [finds, Option.getD_some, digits]
  split
  · exact ⟨first, rest.take n, List.take_succ_cons, leads⟩
  · exact ⟨first, rest, rfl, leads⟩

end JavaMachine.Decimal
