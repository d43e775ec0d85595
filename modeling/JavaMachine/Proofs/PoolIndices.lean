import JavaMachine.ConstantPool
import Mathlib.Data.List.Nodup
import Mathlib.Data.List.TakeDrop
import Mathlib.Data.Nat.Find
import Mathlib.Tactic.ByContra

/-!
# The numbers of constants

Each push of a constant gives a number, and numbers have 16 bits. As long as fewer than 65535
numbers are taken, a push gives the next one, and its constant is found there for ever. The first
push after that gives zero or one: zero stands for nothing, and one for the constant that was pushed
first. So the numbers of a sequence stand for its constants exactly if none is pushed that late.
-/
namespace JavaMachine.ConstantPool

variable {p : ConstantPool} {c : Constant} {cs : List Constant} {i n : Nat} {index : UInt16}

def width (c : Constant) : Nat := if c.isWide then 2 else 1

@[simp] theorem size_empty : empty.size = 0 := rfl

@[simp] theorem size_push (p : ConstantPool) (c : Constant) :
    (p.push c).2.size = p.size + width c := by
  unfold push size width
  cases c.isWide <;> simp

theorem index_push (p : ConstantPool) (c : Constant) :
    (p.push c).1 = UInt16.ofNat (p.size + 1) := by
  simp [push, size]

theorem get?_push (p : ConstantPool) (c : Constant) (index : UInt16) :
    (p.push c).2.get? index = if index.toNat = p.size + 1 then some c else p.get? index := by
  have past : p.slots.get? (p.size + 2) = none := by
    apply p.slots.get?_eq_none_of_lt
    simp [size]
  unfold push get? size at *
  cases c.isWide with
  | false =>
    simp only [Bool.false_eq_true, if_false, OneIndexed.get?_push]
    split <;> simp
  | true =>
    simp only [if_true, OneIndexed.get?_push, OneIndexed.size_push]
    by_cases second : index.toNat = p.slots.size + 1 + 1
    · simp [second, past]
    · rw [if_neg second]
      split <;> simp

/-! ### Sequences of pushes -/

def pushAll (p : ConstantPool) (cs : List Constant) : ConstantPool :=
  cs.foldl (fun p c => (p.push c).2) p

/-- The numbers that the pushes of the constants give, one after the other. -/
def indices (p : ConstantPool) : List Constant → List UInt16
  | [] => []
  | c :: rest => (p.push c).1 :: indices (p.push c).2 rest

theorem ofList_eq (cs : List Constant) : ofList cs = empty.pushAll cs := rfl

@[simp] theorem length_indices (p : ConstantPool) (cs : List Constant) :
    (p.indices cs).length = cs.length := by
  induction cs generalizing p with
  | nil => rfl
  | cons c rest ih => simp [indices, ih]

theorem pushAll_append (p : ConstantPool) (cs later : List Constant) :
    p.pushAll (cs ++ later) = (p.pushAll cs).pushAll later := List.foldl_append

theorem getElem?_indices (p : ConstantPool) (h : i < cs.length) :
    (p.indices cs)[i]? = some (UInt16.ofNat ((p.pushAll (cs.take i)).size + 1)) := by
  induction cs generalizing p i with
  | nil => simp at h
  | cons c rest ih =>
    cases i with
    | zero => simp [indices, index_push, pushAll]
    | succ i =>
      have later : i < rest.length := by simpa using h
      simpa [indices, pushAll] using ih (p.push c).2 later

theorem size_le_pushAll (p : ConstantPool) (cs : List Constant) : p.size ≤ (p.pushAll cs).size := by
  induction cs generalizing p with
  | nil => exact Nat.le_refl _
  | cons c rest ih =>
    have first : p.size ≤ (p.push c).2.size := by simp
    exact Nat.le_trans first (ih _)

theorem get?_pushAll_of_le (taken : index.toNat ≤ p.size) (cs : List Constant) :
    (p.pushAll cs).get? index = p.get? index := by
  induction cs generalizing p with
  | nil => rfl
  | cons c rest ih =>
    have later : index.toNat ≤ (p.push c).2.size := by
      rw [size_push]
      omega
    calc ((p.push c).2.pushAll rest).get? index = (p.push c).2.get? index := ih later
      _ = p.get? index := by rw [get?_push, if_neg (by omega)]

theorem pushAll_take_succ (p : ConstantPool) (here : cs[i]? = some c) :
    p.pushAll (cs.take (i + 1)) = ((p.pushAll (cs.take i)).push c).2 := by
  have split : cs.take (i + 1) = cs.take i ++ [c] := by
    rw [List.take_add_one, here]
    rfl
  rw [split, pushAll_append]
  rfl

/-- How many numbers are taken when the `i`-th push comes. -/
def taken (cs : List Constant) (i : Nat) : Nat := (ofList (cs.take i)).size

@[simp] theorem taken_zero (cs : List Constant) : taken cs 0 = 0 := by
  simp [taken, ofList_eq, pushAll]

theorem taken_succ (here : cs[i]? = some c) : taken cs (i + 1) = taken cs i + width c := by
  unfold taken
  rw [ofList_eq, ofList_eq, pushAll_take_succ empty here, size_push]

theorem width_pos (c : Constant) : 1 ≤ width c := by
  unfold width
  split <;> simp

theorem width_le (c : Constant) : width c ≤ 2 := by
  unfold width
  split <;> simp

theorem ofList_take_of_le (cs : List Constant) (h : i ≤ n) :
    ofList (cs.take n) = (ofList (cs.take i)).pushAll ((cs.take n).drop i) := by
  have parts : cs.take n = cs.take i ++ (cs.take n).drop i := by
    calc cs.take n = (cs.take n).take i ++ (cs.take n).drop i := (List.take_append_drop i _).symm
      _ = cs.take i ++ (cs.take n).drop i := by rw [List.take_take, Nat.min_eq_left h]
  conv_lhs => rw [parts]
  rw [ofList_eq, ofList_eq, pushAll_append]

theorem taken_le (h : i ≤ n) : taken cs i ≤ taken cs n := by
  unfold taken
  rw [ofList_take_of_le cs h]
  exact size_le_pushAll _ _

theorem taken_lt (h : i < n) (below : i < cs.length) : taken cs i < taken cs n := by
  have step := taken_succ (List.getElem?_eq_getElem below)
  have wide := width_pos cs[i]
  have later : taken cs (i + 1) ≤ taken cs n := taken_le h
  omega

theorem getElem?_indices_empty (h : i < cs.length) :
    (empty.indices cs)[i]? = some (UInt16.ofNat (taken cs i + 1)) :=
  getElem?_indices empty h

theorem toNat_index (room : taken cs i < 65535) :
    (UInt16.ofNat (taken cs i + 1)).toNat = taken cs i + 1 := by
  apply UInt16.toNat_ofNat_of_lt
  change _ < 65536
  omega

/-- A constant that is pushed while its number can be written is found under it for ever. -/
theorem get?_of_pushed (here : cs[i]? = some c) (room : taken cs i < 65535) (later : i < n) :
    (ofList (cs.take n)).get? (UInt16.ofNat (taken cs i + 1)) = some c := by
  have number := toNat_index room
  have placed : (ofList (cs.take (i + 1))).get? (UInt16.ofNat (taken cs i + 1)) = some c := by
    rw [ofList_eq, pushAll_take_succ empty here, get?_push]
    exact if_pos number
  have inside : (UInt16.ofNat (taken cs i + 1)).toNat ≤ (ofList (cs.take (i + 1))).size := by
    have step := taken_succ here
    have wide := width_pos c
    unfold taken at *
    omega
  rw [ofList_take_of_le cs (Nat.succ_le_of_lt later), get?_pushAll_of_le inside, placed]

theorem indices_take (p : ConstantPool) (cs : List Constant) (n : Nat) :
    p.indices (cs.take n) = (p.indices cs).take n := by
  induction cs generalizing p n with
  | nil => simp [indices]
  | cons c rest ih =>
    cases n with
    | zero => rfl
    | succ n => simp [indices, ih]

/-- A number that no push gives stands for what it stood for before. -/
theorem get?_pushAll_of_not_mem (p : ConstantPool) (h : index ∉ p.indices cs) :
    (p.pushAll cs).get? index = p.get? index := by
  induction cs generalizing p with
  | nil => rfl
  | cons c rest ih =>
    simp only [indices, List.mem_cons, not_or] at h
    have other : index.toNat ≠ p.size + 1 := by
      intro same
      apply h.1
      rw [index_push, ← same, UInt16.ofNat_toNat]
    calc ((p.push c).2.pushAll rest).get? index = (p.push c).2.get? index := ih _ h.2
      _ = p.get? index := by rw [get?_push, if_neg other]

theorem get?_ofList_of_not_mem (h : index ∉ empty.indices cs) (n : Nat) :
    (ofList (cs.take n)).get? index = none := by
  have unused : index ∉ empty.indices (cs.take n) := by
    rw [indices_take]
    exact fun member => h (List.mem_of_mem_take member)
  rw [ofList_eq, get?_pushAll_of_not_mem empty unused]
  unfold get? OneIndexed.get?
  cases index.toNat <;> rfl

/-! ### Numbers that stand for their constants -/

/-- The numbers that the pushes give to a new pool stand for the constants: none is zero, under each
of them its constant is found from the push on, different pushes give different ones, and neither
the number after that of a wide constant nor one that no push gives ever stands for anything. -/
structure Faithful (cs : List Constant) : Prop where
  nonzero : ∀ index ∈ empty.indices cs, index ≠ 0
  stable : ∀ (i : Nat) (c : Constant) (index : UInt16), cs[i]? = some c →
    (empty.indices cs)[i]? = some index → ∀ n, i < n → (ofList (cs.take n)).get? index = some c
  distinct : (empty.indices cs).Nodup
  gap : ∀ (i : Nat) (c : Constant) (index : UInt16), cs[i]? = some c →
    (empty.indices cs)[i]? = some index → c.isWide = true →
    ∀ n, (ofList (cs.take n)).get? (index + 1) = none
  vacant : ∀ index, index ∉ empty.indices cs → ∀ n, (ofList (cs.take n)).get? index = none

/-- Every push finds a number that can be written. -/
def Fits (cs : List Constant) : Prop := ∀ i < cs.length, taken cs i < 65535

namespace Fits

variable (fits : Fits cs)
include fits

theorem exists_taken (h : index ∈ empty.indices cs) :
    ∃ i < cs.length, index.toNat = taken cs i + 1 := by
  obtain ⟨i, below, here⟩ := List.mem_iff_getElem.1 h
  rw [length_indices] at below
  have number := getElem?_indices_empty below
  rw [List.getElem?_eq_getElem (by simpa using below), here, Option.some.injEq] at number
  refine ⟨i, below, ?_⟩
  rw [number, toNat_index (fits i below)]

theorem faithful : Faithful cs := by
  constructor
  case nonzero =>
    intro index member zero
    obtain ⟨i, -, number⟩ := fits.exists_taken member
    simp [zero] at number
  case stable =>
    intro i c index here given n later
    have below := (List.getElem?_eq_some_iff.1 here).1
    rw [getElem?_indices_empty below, Option.some.injEq] at given
    rw [← given]
    exact get?_of_pushed here (fits i below) later
  case distinct =>
    rw [List.nodup_iff_getElem?_ne_getElem?]
    intro i j before below same
    rw [length_indices] at below
    rw [getElem?_indices_empty below, getElem?_indices_empty (by omega), Option.some.injEq] at same
    have numbers := congrArg UInt16.toNat same
    rw [toNat_index (fits i (by omega)), toNat_index (fits j below)] at numbers
    have more : taken cs i < taken cs j := taken_lt before (by omega)
    omega
  case gap =>
    intro i c index here given wide n
    have below := (List.getElem?_eq_some_iff.1 here).1
    rw [getElem?_indices_empty below, Option.some.injEq] at given
    apply get?_ofList_of_not_mem
    intro member
    obtain ⟨j, inside, number⟩ := fits.exists_taken member
    have room := fits i below
    have next : taken cs (i + 1) = taken cs i + 2 := by
      rw [taken_succ here, width, if_pos wide]
    have value : (index + 1).toNat = (taken cs i + 2) % 65536 := by
      rw [← given, UInt16.toNat_add, toNat_index room]
      rfl
    rcases Nat.lt_or_ge i j with later | before
    · have much : taken cs (i + 1) ≤ taken cs j := taken_le later
      omega
    · have few : taken cs j ≤ taken cs i := taken_le before
      omega
  case vacant => exact fun index unused n => get?_ofList_of_not_mem unused n

end Fits

/-- Some push is the first that finds too many numbers taken. -/
theorem exists_first_late (late : ¬ Fits cs) :
    ∃ j, j + 1 < cs.length ∧ taken cs j < 65535 ∧ 65535 ≤ taken cs (j + 1) := by
  have some_late : ∃ i, i < cs.length ∧ 65535 ≤ taken cs i := by
    simpa [Fits] using late
  obtain ⟨below, full⟩ := Nat.find_spec some_late
  have earlier : ∀ j < Nat.find some_late, taken cs j < 65535 := by
    intro j before
    have minimal := Nat.find_min some_late before
    have inside : j < cs.length := Nat.lt_trans before below
    simpa [inside] using minimal
  cases first : Nat.find some_late with
  | zero =>
    rw [first] at full
    simp at full
  | succ j =>
    rw [first] at below full
    exact ⟨j, below, earlier j (by omega), full⟩

/-- The first push that comes too late gives zero, or the number of the first of all. -/
theorem fits_of_faithful (faithful : Faithful cs) : Fits cs := by
  by_contra late
  obtain ⟨j, below, room, full⟩ := exists_first_late late
  have inside : j < cs.length := Nat.lt_of_succ_lt below
  have step := taken_succ (List.getElem?_eq_getElem inside)
  have wide := width_le cs[j]
  have given := getElem?_indices_empty below
  have member : UInt16.ofNat (taken cs (j + 1) + 1) ∈ empty.indices cs :=
    List.mem_of_getElem? given
  obtain one | two : taken cs (j + 1) = 65535 ∨ taken cs (j + 1) = 65536 := by omega
  · apply faithful.nonzero _ member
    rw [one]
    rfl
  · have start : (empty.indices cs)[0]? = some (UInt16.ofNat (taken cs 0 + 1)) :=
      getElem?_indices_empty (by omega)
    have same : UInt16.ofNat (taken cs (j + 1) + 1) = UInt16.ofNat (taken cs 0 + 1) := by
      rw [two, taken_zero]
      rfl
    have apart := List.nodup_iff_getElem?_ne_getElem?.1 faithful.distinct 0 (j + 1)
      (Nat.succ_pos j) (by simpa using below)
    apply apart
    rw [start, given, same]

/-- A constant that is pushed while fewer than 65535 numbers are taken gets the next number, and
is found under it for ever after; a number that no push gives never stands for anything; and the
numbers stand for the constants in every way exactly if no constant is pushed later than that. -/
theorem indices_faithful_iff (cs : List Constant) :
    (∀ (i : Nat) (c : Constant), cs[i]? = some c → taken cs i < 65535 →
      ∃ index : UInt16, (empty.indices cs)[i]? = some index ∧ index.toNat = taken cs i + 1 ∧
        ∀ n, i < n → (ofList (cs.take n)).get? index = some c) ∧
    (∀ index, index ∉ empty.indices cs → ∀ n, (ofList (cs.take n)).get? index = none) ∧
    (Faithful cs ↔ Fits cs) := by
  constructor
  · intro i c here room
    have below := (List.getElem?_eq_some_iff.1 here).1
    exact ⟨_, getElem?_indices_empty below, toNat_index room, fun n later =>
      get?_of_pushed here room later⟩
  constructor
  · exact fun index unused n => get?_ofList_of_not_mem unused n
  · exact ⟨fits_of_faithful, Fits.faithful⟩

def mixedPool : List Constant := [.int 7, .long 9, .string "text"]

theorem indices_faithful_mixed :
    Faithful mixedPool ∧ empty.indices mixedPool = [1, 2, 4] ∧
      (ofList mixedPool).get? 3 = none := by
  have fits : Fits mixedPool := by
    unfold Fits
    decide
  have faithful := (indices_faithful_iff mixedPool).2.2.2 fits
  exact ⟨faithful, by decide, by decide⟩

/-! ### A pool with more constants than numbers -/

theorem size_pushAll_longs (p : ConstantPool) (v : Int64) (n : Nat) :
    (p.pushAll (List.replicate n (.long v))).size = p.size + 2 * n := by
  induction n generalizing p with
  | zero => rfl
  | succ n ih =>
    have first : (p.push (.long v)).2.size = p.size + 2 := size_push p _
    rw [List.replicate_succ]
    change ((p.push (.long v)).2.pushAll (List.replicate n (.long v))).size = _
    rw [ih, first]
    omega

def crowded (n : Nat) : List Constant := List.replicate n (.long 0) ++ [.int 1, .int 2, .int 3]

theorem length_crowded (n : Nat) : (crowded n).length = n + 3 := by
  simp [crowded]

theorem getElem?_crowded (n k : Nat) :
    (crowded n)[n + k]? = ([.int 1, .int 2, .int 3] : List Constant)[k]? := by
  unfold crowded
  rw [List.getElem?_append_right (by simp)]
  simp

theorem taken_crowded (n : Nat) :
    taken (crowded n) n = 2 * n ∧ taken (crowded n) (n + 1) = 2 * n + 1 ∧
      taken (crowded n) (n + 2) = 2 * n + 2 := by
  have longs : (crowded n).take n = List.replicate n (.long 0) := by
    unfold crowded
    exact List.take_left' List.length_replicate
  have before : taken (crowded n) n = 2 * n := by
    unfold taken
    rw [longs, ofList_eq, size_pushAll_longs, size_empty, Nat.zero_add]
  have one : taken (crowded n) (n + 1) = taken (crowded n) n + 1 :=
    taken_succ (getElem?_crowded n 0)
  have two : taken (crowded n) (n + 2) = taken (crowded n) (n + 1) + 1 :=
    taken_succ (getElem?_crowded n 1)
  omega

theorem getElem?_indices_crowded (n : Nat) :
    (empty.indices (crowded n))[n + 1]? = some (UInt16.ofNat (2 * n + 2)) ∧
      (empty.indices (crowded n))[n + 2]? = some (UInt16.ofNat (2 * n + 3)) := by
  have length := length_crowded n
  obtain ⟨-, one, two⟩ := taken_crowded n
  constructor
  · rw [getElem?_indices_empty (by omega), one]
  · rw [getElem?_indices_empty (by omega), two]

/-- When the wide constants leave one number, the second of the others gets zero, and the third
the number of the first wide one. -/
theorem indices_run_out :
    (empty.indices (crowded 32767))[32767 + 1]? = some 0 ∧
      (empty.indices (crowded 32767))[32767 + 2]? = some 1 ∧
      ¬ Faithful (crowded 32767) := by
  obtain ⟨zero, one⟩ := getElem?_indices_crowded 32767
  refine ⟨zero, one, ?_⟩
  intro faithful
  apply faithful.nonzero 0 _ rfl
  exact List.mem_of_getElem? zero

end JavaMachine.ConstantPool
