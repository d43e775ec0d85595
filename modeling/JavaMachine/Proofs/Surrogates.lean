import JavaMachine.Text.Utf16

/-!
# Texts and surrogates

Every text is the same after it has been written in units and read again. Units that are read and
written again are the same exactly if they are well-formed: a surrogate stands only in a pair of a
high one and a low one. Every other surrogate comes back as the unit of the replacement character.
-/
namespace JavaMachine.Utf16

variable {u v : UInt16} {us vs : List UInt16} {c : Char} {n : Nat}

theorem isHighSurrogate_iff : isHighSurrogate u = true ↔ 0xD800 ≤ u.toNat ∧ u.toNat < 0xDC00 := by
  simp [isHighSurrogate, UInt16.le_iff_toNat_le, UInt16.lt_iff_toNat_lt]

theorem isLowSurrogate_iff : isLowSurrogate u = true ↔ 0xDC00 ≤ u.toNat ∧ u.toNat < 0xE000 := by
  simp [isLowSurrogate, UInt16.le_iff_toNat_le, UInt16.lt_iff_toNat_lt]

/-- The unit belongs into a pair. -/
def IsSurrogate (u : UInt16) : Prop := isHighSurrogate u = true ∨ isLowSurrogate u = true

instance (u : UInt16) : Decidable (IsSurrogate u) :=
  inferInstanceAs (Decidable (isHighSurrogate u = true ∨ isLowSurrogate u = true))

theorem isSurrogate_iff : IsSurrogate u ↔ 0xD800 ≤ u.toNat ∧ u.toNat < 0xE000 := by
  unfold IsSurrogate
  rw [isHighSurrogate_iff, isLowSurrogate_iff]
  omega

theorem toNat_ofNat_unit (h : n < 0x10000) : (UInt16.ofNat n).toNat = n :=
  UInt16.toNat_ofNat_of_lt' h

theorem toNat_ofNat_char (h : n.isValidChar) : (Char.ofNat n).toNat = n := by
  unfold Char.ofNat
  rw [dif_pos h]
  rfl

theorem isValidChar_toNat (c : Char) : c.toNat.isValidChar := c.valid

theorem single_eq (u : UInt16) :
    single u = if IsSurrogate u then replacement else Char.ofNat u.toNat := by
  by_cases surrogate : IsSurrogate u
  · rw [if_pos surrogate]
    exact if_pos ((Bool.or_eq_true _ _).mpr surrogate)
  · rw [if_neg surrogate]
    exact if_neg fun either => surrogate ((Bool.or_eq_true _ _).mp either)

/-! ### Reading what has been written -/

theorem decode_cons (plain : ¬ IsSurrogate u) (us : List UInt16) :
    decode (u :: us) = Char.ofNat u.toNat :: decode us := by
  have alone : single u = Char.ofNat u.toNat := (single_eq u).trans (if_neg plain)
  cases us with
  | nil => rw [decode, decode, alone]
  | cons v us =>
    have first : isHighSurrogate u = false := Bool.eq_false_iff.2 fun high => plain (.inl high)
    rw [decode, first, Bool.false_and, if_neg Bool.false_ne_true, alone]

theorem decode_pair (high : isHighSurrogate u = true) (low : isLowSurrogate v = true)
    (us : List UInt16) : decode (u :: v :: us) = joinSurrogates u v :: decode us := by
  rw [decode, high, low]
  rfl

theorem encodeChar_cases (c : Char) :
    (∃ u, encodeChar c = [u] ∧ ¬ IsSurrogate u ∧ Char.ofNat u.toNat = c) ∨
      ∃ u v, encodeChar c = [u, v] ∧ isHighSurrogate u = true ∧ isLowSurrogate v = true ∧
        joinSurrogates u v = c := by
  have valid := isValidChar_toNat c
  rcases Nat.lt_or_ge c.toNat 0x10000 with basic | above
  · have unit := toNat_ofNat_unit basic
    refine .inl ⟨UInt16.ofNat c.toNat, if_pos basic, ?_, ?_⟩
    · rw [isSurrogate_iff, unit]
      omega
    · rw [unit, Char.ofNat_toNat]
  · have first := toNat_ofNat_unit (n := 0xD800 + (c.toNat - 0x10000) / 0x400) (by omega)
    have second := toNat_ofNat_unit (n := 0xDC00 + (c.toNat - 0x10000) % 0x400) (by omega)
    refine .inr ⟨_, _, if_neg (Nat.not_lt.2 above), ?_, ?_, ?_⟩
    · rw [isHighSurrogate_iff, first]
      omega
    · rw [isLowSurrogate_iff, second]
      omega
    · unfold joinSurrogates
      rw [first, second]
      calc Char.ofNat _ = Char.ofNat c.toNat := congrArg Char.ofNat (by omega)
        _ = c := Char.ofNat_toNat c

theorem encode_cons (c : Char) (text : List Char) :
    encode (c :: text) = encodeChar c ++ encode text := List.flatMap_cons

@[simp] theorem decode_encode (text : List Char) : decode (encode text) = text := by
  induction text with
  | nil => rfl
  | cons c text ih =>
    rw [encode_cons]
    obtain ⟨u, written, plain, read⟩ | ⟨u, v, written, high, low, read⟩ := encodeChar_cases c
    · rw [written, List.singleton_append, decode_cons plain, read, ih]
    · rw [written, List.cons_append, List.singleton_append, decode_pair high low, read, ih]

theorem encode_injective : Function.Injective encode :=
  Function.LeftInverse.injective decode_encode

/-! ### Writing what has been read -/

def repairUnit (u : UInt16) : UInt16 := if IsSurrogate u then 0xFFFD else u

/-- The units with the replacement for each surrogate that stands in no pair. -/
def repair : List UInt16 → List UInt16
  | [] => []
  | [u] => [repairUnit u]
  | u :: v :: us =>
    if isHighSurrogate u && isLowSurrogate v then u :: v :: repair us
    else repairUnit u :: repair (v :: us)

/-- Surrogates stand only in pairs. -/
inductive WellFormed : List UInt16 → Prop
  | nil : WellFormed []
  | cons {u : UInt16} {us : List UInt16} (plain : ¬ IsSurrogate u) (h : WellFormed us) :
      WellFormed (u :: us)
  | pair {u v : UInt16} {us : List UInt16} (high : isHighSurrogate u = true)
      (low : isLowSurrogate v = true) (h : WellFormed us) : WellFormed (u :: v :: us)

theorem encodeChar_single (u : UInt16) : encodeChar (single u) = [repairUnit u] := by
  rw [single_eq]
  unfold repairUnit
  split
  · decide
  · rename_i plain
    rw [isSurrogate_iff] at plain
    have below : u.toNat < 0x10000 := u.toNat_lt
    have unit : (Char.ofNat u.toNat).toNat = u.toNat := by
      apply toNat_ofNat_char
      unfold Nat.isValidChar
      omega
    unfold encodeChar
    rw [unit, if_pos below, UInt16.ofNat_toNat]

theorem encodeChar_joinSurrogates (high : isHighSurrogate u = true)
    (low : isLowSurrogate v = true) : encodeChar (joinSurrogates u v) = [u, v] := by
  rw [isHighSurrogate_iff] at high
  rw [isLowSurrogate_iff] at low
  have joined : (joinSurrogates u v).toNat =
      0x10000 + (u.toNat - 0xD800) * 0x400 + (v.toNat - 0xDC00) := by
    apply toNat_ofNat_char
    unfold Nat.isValidChar
    omega
  have first : 0xD800 + ((joinSurrogates u v).toNat - 0x10000) / 0x400 = u.toNat := by omega
  have second : 0xDC00 + ((joinSurrogates u v).toNat - 0x10000) % 0x400 = v.toNat := by omega
  unfold encodeChar
  rw [if_neg (by omega)]
  change [UInt16.ofNat _, UInt16.ofNat _] = _
  rw [first, second, UInt16.ofNat_toNat, UInt16.ofNat_toNat]

/-- Units that are read and written again come back repaired. -/
theorem encode_decode (us : List UInt16) : encode (decode us) = repair us := by
  induction us using decode.induct with
  | case1 => rfl
  | case2 u =>
    rw [decode, repair, encode_cons, encodeChar_single]
    rfl
  | case3 u v us pair ih =>
    have both := Bool.and_eq_true_iff.1 pair
    rw [decode, repair, if_pos pair, if_pos pair, encode_cons,
      encodeChar_joinSurrogates both.1 both.2, ih]
    rfl
  | case4 u v us apart ih =>
    rw [decode, repair, if_neg apart, if_neg apart, encode_cons, encodeChar_single, ih]
    rfl

theorem wellFormed_encode (text : List Char) : WellFormed (encode text) := by
  induction text with
  | nil => exact .nil
  | cons c text ih =>
    rw [encode_cons]
    obtain ⟨u, written, plain, -⟩ | ⟨u, v, written, high, low, -⟩ := encodeChar_cases c
    · rw [written]
      exact .cons plain ih
    · rw [written]
      exact .pair high low ih

/-- Exactly the well-formed units come back as they were. -/
theorem repair_eq_self_iff : repair us = us ↔ WellFormed us := by
  constructor
  · intro same
    rw [← same, ← encode_decode]
    exact wellFormed_encode _
  · intro h
    rw [← encode_decode]
    induction h with
    | nil => rfl
    | @cons u us plain h ih =>
      have unit : encodeChar (Char.ofNat u.toNat) = [u] := by
        have single := encodeChar_single u
        rwa [single_eq, repairUnit, if_neg plain, if_neg plain] at single
      rw [decode_cons plain, encode_cons, unit, ih]
      rfl
    | pair high low h ih =>
      rw [decode_pair high low, encode_cons, encodeChar_joinSurrogates high low, ih]
      rfl

end JavaMachine.Utf16
