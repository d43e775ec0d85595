import JavaMachine.Code.Cursor
import Mathlib.Data.List.Basic

/-!
# Exact reads

A format says which byte strings stand for which values. A read is exact for a format when it
takes the strings of the format and no others, whatever stands before and after them, and fails as
truncated when the code ends in the middle of one. Exactness composes: the format of a sequence of
reads is the concatenation of their formats.
-/
namespace JavaMachine

namespace Cursor

variable {α β : Type} {p : Nat}

/-- The cursor with `read` behind it and `ahead` before it. -/
def between (read ahead : List UInt8) : Cursor := ⟨(read ++ ahead).toArray, read.length⟩

theorem between_append (read bytes ahead : List UInt8) :
    between (read ++ bytes) ahead =
      ⟨(read ++ (bytes ++ ahead)).toArray, read.length + bytes.length⟩ := by
  simp [between]

/-- Every cursor within its code is of this form. -/
theorem between_take_drop {code : Array UInt8} (h : p ≤ code.size) :
    between (code.toList.take p) (code.toList.drop p) = ⟨code, p⟩ := by
  simp [between, h]

@[simp] theorem remaining_between (read ahead : List UInt8) :
    (between read ahead).remaining = ahead.length := by simp [between, remaining]

abbrev Format (α : Type) := List UInt8 → α → Prop

/-- Started `p` bytes into the code, `x` reads the strings of the format and no others. -/
structure Exact (p : Nat) (x : Reading α) (S : Format α) : Prop where
  accepts : ∀ {bytes a} (read ahead : List UInt8), read.length = p → S bytes a →
    x (between read (bytes ++ ahead)) = .ok a (between (read ++ bytes) ahead)
  refuses : ∀ {start lost a} (read : List UInt8), read.length = p → S (start ++ lost) a →
    lost ≠ [] → ∃ k c, x (between read start) = .error (.truncatedInstruction k) c
  reads : ∀ {read ahead a c}, read.length = p → x (between read ahead) = .ok a c →
    ∃ bytes after, ahead = bytes ++ after ∧ S bytes a

namespace Exact

variable {x : Reading α} {S T : Format α}

theorem congr (h : Exact p x S) (same : ∀ {bytes a}, T bytes a ↔ S bytes a) : Exact p x T where
  accepts read ahead here read_as := h.accepts read ahead here (same.1 read_as)
  refuses read here read_as := h.refuses read here (same.1 read_as)
  reads here ran := by
    obtain ⟨bytes, after, rfl, read_as⟩ := h.reads here ran
    exact ⟨bytes, after, rfl, same.2 read_as⟩

theorem ends {read ahead : List UInt8} {a : α} {c : Cursor} (h : Exact p x S)
    (here : read.length = p) (ran : x (between read ahead) = .ok a c) :
    ∃ bytes after, ahead = bytes ++ after ∧ S bytes a ∧ c = between (read ++ bytes) after := by
  obtain ⟨bytes, after, rfl, read_as⟩ := h.reads here ran
  rw [h.accepts read after here read_as] at ran
  cases ran
  exact ⟨bytes, after, rfl, read_as, rfl⟩

theorem pure (a : α) : Exact p (Pure.pure a) fun bytes b => bytes = [] ∧ b = a where
  accepts read ahead _ := by
    rintro ⟨rfl, rfl⟩
    simp [Pure.pure, EStateM.pure]
  refuses read _ := by
    rintro ⟨nothing, -⟩ lost
    exact absurd (List.append_eq_nil_iff.1 nothing).2 lost
  reads _ ran := by
    cases ran
    exact ⟨[], _, rfl, rfl, rfl⟩

theorem guard {b : Prop} [Decidable b] {y : Reading α} (fails : ∀ c, ∃ e c', y c = .error e c')
    (h : Exact p x S) : Exact p (if b then y else x) fun bytes a => ¬b ∧ S bytes a where
  accepts read ahead here := by
    rintro ⟨hb, read_as⟩
    rw [if_neg hb, h.accepts read ahead here read_as]
  refuses read here := by
    rintro ⟨hb, read_as⟩ short
    rw [if_neg hb]
    exact h.refuses read here read_as short
  reads {read ahead a c} here ran := by
    by_cases hb : b
    · obtain ⟨e, c', failed⟩ := fails (between read ahead)
      rw [if_pos hb, failed] at ran
      cases ran
    · rw [if_neg hb] at ran
      obtain ⟨bytes, after, split, read_as⟩ := h.reads here ran
      exact ⟨bytes, after, split, hb, read_as⟩

theorem bind {f : α → Reading β} {T : α → Format β} (first : Exact p x S)
    (second : ∀ {bytes a}, S bytes a → Exact (p + bytes.length) (f a) (T a)) :
    Exact p (x >>= f) fun bytes b =>
      ∃ front back a, bytes = front ++ back ∧ S front a ∧ T a back b where
  accepts := by
    rintro _ b read ahead rfl ⟨front, back, a, rfl, fst, snd⟩
    have ran := first.accepts read (back ++ ahead) rfl fst
    have went := (second fst).accepts (read ++ front) ahead (by simp) snd
    simp only [Bind.bind, EStateM.bind, List.append_assoc] at went ⊢
    rw [ran]
    exact went
  refuses := by
    rintro start lost b read rfl ⟨front, back, a, split, fst, snd⟩ short
    obtain ⟨missing, rfl, rfl⟩ | ⟨more, rfl, rfl⟩ := List.append_eq_append_iff.1 split
    · cases missing with
      | nil =>
        have ran := first.accepts read [] rfl fst
        obtain ⟨k, c, failed⟩ :=
          (second fst).refuses (read ++ (start ++ [])) (by simp) (List.nil_append back ▸ snd) short
        simp only [List.append_nil] at ran failed
        exact ⟨k, c, by simp only [Bind.bind, EStateM.bind, ran, failed]⟩
      | cons byte missing =>
        obtain ⟨k, c, failed⟩ := first.refuses read rfl fst (List.cons_ne_nil byte missing)
        exact ⟨k, c, by simp only [Bind.bind, EStateM.bind, failed]⟩
    · have ran := first.accepts read more rfl fst
      obtain ⟨k, c, failed⟩ := (second fst).refuses (read ++ front) (by simp) snd short
      exact ⟨k, c, by simp only [Bind.bind, EStateM.bind, ran, failed]⟩
  reads := by
    rintro read ahead b c rfl ran
    cases went : x (between read ahead) with
    | error e c' => simp [Bind.bind, EStateM.bind, went] at ran
    | ok a c' =>
      obtain ⟨front, after, rfl, fst, rfl⟩ := first.ends rfl went
      simp only [Bind.bind, EStateM.bind, went] at ran
      obtain ⟨back, rest, rfl, snd⟩ := (second fst).reads (by simp) ran
      exact ⟨front ++ back, rest, by simp, front, back, a, rfl, fst, snd⟩

theorem map {f : α → β} (first : Exact p x S) :
    Exact p (do return f (← x)) fun bytes b => ∃ a, S bytes a ∧ b = f a := by
  refine (first.bind fun _ => pure _).congr ?_
  intro bytes b
  constructor
  · rintro ⟨a, read_as, rfl⟩
    exact ⟨bytes, [], a, by simp, read_as, rfl, rfl⟩
  · rintro ⟨front, _, a, rfl, read_as, rfl, rfl⟩
    exact ⟨a, by simpa using read_as, rfl⟩

theorem two {γ : Type} {y : Reading β} {f : α → β → γ} {front : α → List UInt8}
    {back : β → List UInt8} (first : Exact p x fun bytes a => bytes = front a)
    (second : ∀ {q}, Exact q y fun bytes b => bytes = back b) :
    Exact p (do let a ← x; return f a (← y)) fun bytes c =>
      ∃ a b, bytes = front a ++ back b ∧ c = f a b := by
  refine (first.bind fun _ => second.map).congr ?_
  intro bytes c
  constructor
  · rintro ⟨a, b, rfl, rfl⟩
    exact ⟨_, _, a, rfl, rfl, b, rfl, rfl⟩
  · rintro ⟨_, _, a, rfl, rfl, b, rfl, rfl⟩
    exact ⟨a, b, rfl, rfl⟩

end Exact

/-! ### Bytes and padding -/

theorem exact_take (n : Nat) : Exact p (take n) fun bytes a => bytes.length = n ∧ a = bytes where
  accepts := by
    rintro bytes a read ahead rfl ⟨rfl, rfl⟩
    rw [take_of_le (by simp)]
    simp only [between, remaining, List.size_toArray, List.length_append]
    congr 1
    · simp [List.extract_eq_take_drop]
    · congr 1
      · simp
      · omega
  refuses := by
    rintro start lost a read - ⟨rfl, -⟩ short
    have := List.length_pos_iff.2 short
    exact ⟨_, _, take_of_lt (by simpa using this)⟩
  reads := by
    rintro read ahead a c - ran
    by_cases enough : n ≤ (between read ahead).remaining
    · rw [take_of_le enough] at ran
      cases ran
      rw [remaining_between] at enough
      refine ⟨ahead.take n, ahead.drop n, (List.take_append_drop n ahead).symm,
        List.length_take_of_le enough, ?_⟩
      simp [between, List.extract_eq_take_drop]
    · rw [take_of_lt (Nat.not_le.1 enough)] at ran
      cases ran

/-- The bytes in front of the next multiple of four. -/
def Pads (p : Nat) (bytes : List UInt8) : Prop :=
  bytes.length < 4 ∧ (p + bytes.length) % 4 = 0

theorem pads_iff {bytes : List UInt8} : Pads p bytes ↔ bytes.length = padding p := by
  unfold Pads padding
  omega

theorem exact_align : Exact p align fun bytes _ => Pads p bytes where
  accepts := by
    rintro bytes a read ahead rfl pads
    rw [pads_iff] at pads
    simp only [align, remaining_between]
    rw [if_neg (by simp [between, pads])]
    simp [between, pads]
  refuses := by
    rintro start lost a read rfl pads short
    rw [pads_iff] at pads
    have := List.length_pos_iff.2 short
    simp only [List.length_append] at pads
    refine ⟨_, _, if_pos ?_⟩
    rw [remaining_between]
    change start.length < padding read.length
    omega
  reads := by
    rintro read ahead a c rfl ran
    simp only [align, remaining_between] at ran
    split at ran
    · cases ran
    · rename_i enough
      refine ⟨ahead.take (padding read.length), _, (List.take_append_drop _ ahead).symm, ?_⟩
      rw [pads_iff]
      exact List.length_take_of_le (Nat.not_lt.1 enough)

/-! ### Numbers, most significant byte first -/

def shortBytes (n : UInt16) : List UInt8 := [(n >>> 8).toUInt8, n.toUInt8]

def intBytes (n : UInt32) : List UInt8 :=
  [(n >>> 24).toUInt8, (n >>> 16).toUInt8, (n >>> 8).toUInt8, n.toUInt8]

@[simp] theorem length_shortBytes (n : UInt16) : (shortBytes n).length = 2 := rfl

@[simp] theorem length_intBytes (n : UInt32) : (intBytes n).length = 4 := rfl

theorem bigEndian_shortBytes (n : UInt16) : bigEndian (shortBytes n) = n.toNat := by
  have := n.toNat_lt
  simp [bigEndian, shortBytes, Nat.shiftRight_eq_div_pow]
  omega

theorem bigEndian_intBytes (n : UInt32) : bigEndian (intBytes n) = n.toNat := by
  have := n.toNat_lt
  simp [bigEndian, intBytes, Nat.shiftRight_eq_div_pow]
  omega

theorem shortBytes_ofNat {bytes : List UInt8} (two : bytes.length = 2) :
    shortBytes (UInt16.ofNat (bigEndian bytes)) = bytes := by
  obtain ⟨a, b, rfl⟩ := List.length_eq_two.1 two
  have ha := a.toNat_lt
  have hb := b.toNat_lt
  simp only [bigEndian, shortBytes, List.foldl_cons, List.foldl_nil, List.cons.injEq, and_true,
    ← UInt8.toNat_inj]
  simp [Nat.shiftRight_eq_div_pow]
  omega

theorem intBytes_ofNat {bytes : List UInt8} (four : bytes.length = 4) :
    intBytes (UInt32.ofNat (bigEndian bytes)) = bytes := by
  obtain ⟨a, b, c, d, rfl⟩ : ∃ a b c d, bytes = [a, b, c, d] := by
    match bytes, four with
    | [a, b, c, d], _ => exact ⟨a, b, c, d, rfl⟩
  have ha := a.toNat_lt
  have hb := b.toNat_lt
  have hc := c.toNat_lt
  have hd := d.toNat_lt
  simp only [bigEndian, intBytes, List.foldl_cons, List.foldl_nil, List.cons.injEq, and_true,
    ← UInt8.toNat_inj]
  simp [Nat.shiftRight_eq_div_pow]
  omega

/-- Numbers of `n` bytes are read exactly when the bytes of a number and the number of some bytes
are inverse to each other. -/
theorem exact_number {n : Nat} {number : Nat → α} {bytesOf : α → List UInt8}
    (length : ∀ a, (bytesOf a).length = n)
    (number_bytesOf : ∀ a, number (bigEndian (bytesOf a)) = a)
    (bytesOf_number : ∀ {bytes}, bytes.length = n → bytesOf (number (bigEndian bytes)) = bytes) :
    Exact p (do return number (bigEndian (← take n))) fun bytes a => bytes = bytesOf a := by
  refine (exact_take n).map.congr ?_
  intro bytes a
  constructor
  · rintro rfl
    exact ⟨_, ⟨length a, rfl⟩, (number_bytesOf a).symm⟩
  · rintro ⟨_, ⟨enough, rfl⟩, rfl⟩
    exact (bytesOf_number enough).symm

theorem exact_readU8 : Exact p readU8 fun bytes n => bytes = [n] := by
  refine exact_number (fun _ => rfl) (fun n => ?_) fun one => ?_
  · simp [bigEndian]
  · obtain ⟨b, rfl⟩ := List.length_eq_one_iff.1 one
    simp [bigEndian]

theorem exact_readI8 : Exact p readI8 fun bytes n => bytes = [n.toUInt8] := by
  refine exact_number (fun _ => rfl) (fun n => ?_) fun one => ?_
  · simp [bigEndian, ← UInt8.toInt8_ofNat']
  · obtain ⟨b, rfl⟩ := List.length_eq_one_iff.1 one
    simp [bigEndian]

theorem exact_readU16 : Exact p readU16 fun bytes n => bytes = shortBytes n :=
  exact_number (fun _ => rfl) (fun n => by simp [bigEndian_shortBytes]) shortBytes_ofNat

theorem exact_readI16 : Exact p readI16 fun bytes n => bytes = shortBytes n.toUInt16 := by
  refine exact_number (fun _ => rfl) (fun n => ?_) fun two => ?_
  · rw [bigEndian_shortBytes, ← UInt16.toInt16_ofNat', UInt16.ofNat_toNat, Int16.toInt16_toUInt16]
  · rw [Int16.toUInt16_ofNat', shortBytes_ofNat two]

theorem exact_readI32 : Exact p readI32 fun bytes n => bytes = intBytes n.toUInt32 := by
  refine exact_number (fun _ => rfl) (fun n => ?_) fun four => ?_
  · rw [bigEndian_intBytes, ← UInt32.toInt32_ofNat', UInt32.ofNat_toNat, Int32.toInt32_toUInt32]
  · rw [Int32.toUInt32_ofNat', intBytes_ofNat four]

/-! ### Tables of numbers -/

def tableBytes (numbers : List Int32) : List UInt8 := numbers.flatMap fun n => intBytes n.toUInt32

@[simp] theorem tableBytes_nil : tableBytes [] = [] := rfl

@[simp] theorem tableBytes_cons (n : Int32) (numbers : List Int32) :
    tableBytes (n :: numbers) = intBytes n.toUInt32 ++ tableBytes numbers := rfl

theorem length_tableBytes (numbers : List Int32) :
    (tableBytes numbers).length = 4 * numbers.length := by
  induction numbers with
  | nil => rfl
  | cons n numbers ih => simp [ih]; omega

theorem wordsOf_tableBytes (numbers : List Int32) : wordsOf (tableBytes numbers) = numbers := by
  induction numbers with
  | nil => rfl
  | cons n numbers ih =>
    have head : Int32.ofNat (bigEndian (intBytes n.toUInt32)) = n := by
      rw [bigEndian_intBytes, ← UInt32.toInt32_ofNat', UInt32.ofNat_toNat, Int32.toInt32_toUInt32]
    simp only [tableBytes_cons, intBytes, List.cons_append, List.nil_append, wordsOf, ih]
    exact congrArg (· :: numbers) head

theorem tableBytes_wordsOf {n : Nat} {bytes : List UInt8} (length : bytes.length = 4 * n) :
    (wordsOf bytes).length = n ∧ tableBytes (wordsOf bytes) = bytes := by
  induction n generalizing bytes with
  | zero =>
    cases List.length_eq_zero_iff.1 length
    exact ⟨rfl, rfl⟩
  | succ n ih =>
    match bytes, length with
    | a :: b :: c :: d :: rest, length =>
      have fewer : rest.length = 4 * n := by
        simp only [List.length_cons] at length
        omega
      obtain ⟨count, same⟩ := ih fewer
      have head : intBytes (UInt32.ofNat (bigEndian [a, b, c, d])) = [a, b, c, d] :=
        intBytes_ofNat rfl
      simp only [wordsOf, List.length_cons, count, tableBytes_cons, Int32.toUInt32_ofNat', head,
        same, List.cons_append, List.nil_append, and_self]

theorem exact_readI32s (n : Nat) :
    Exact p (readI32s n) fun bytes numbers =>
      numbers.length = n ∧ bytes = tableBytes numbers := by
  refine (exact_take (4 * n)).map.congr ?_
  intro bytes numbers
  constructor
  · rintro ⟨rfl, rfl⟩
    exact ⟨_, ⟨length_tableBytes numbers, rfl⟩, (wordsOf_tableBytes numbers).symm⟩
  · rintro ⟨_, ⟨enough, rfl⟩, rfl⟩
    obtain ⟨count, same⟩ := tableBytes_wordsOf enough
    exact ⟨count, same.symm⟩

end Cursor

end JavaMachine
