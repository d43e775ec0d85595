import JavaMachine.Proofs.WellFormedFrames
import Mathlib.Data.List.Induction

/-!
# Histories of local variables

What a variable holds is settled by the attempts to store values that were made so far: a value is
read from where it was stored until a later one takes one of its slots. A value of two slots is gone
as a whole then, whichever half the later one takes, and values that lie apart from it are left
alone. Attempts fail exactly if the value does not fit, and then count for nothing.
-/
namespace JavaMachine

namespace LocalVariables

structure Assignment where
  index : Nat
  value : Value

namespace Assignment

def stop (a : Assignment) : Nat := a.index + a.value.category

/-- Some slot belongs to both values. -/
def Overlaps (a b : Assignment) : Prop := a.index < b.stop ∧ b.index < a.stop

end Assignment

def Accepts (l : LocalVariables) (a : Assignment) : Prop := ∃ l', l.set a.index a.value = .ok l'

/-- The variables after an attempt to store a value, which leaves them alone if it fails. -/
def attempt (l : LocalVariables) (a : Assignment) : LocalVariables :=
  match l.set a.index a.value with
  | .ok l' => l'
  | .error _ => l

/-- The variables after the attempts, one after the other. -/
def attemptAll (l : LocalVariables) (history : List Assignment) : LocalVariables :=
  history.foldl attempt l

/-- The attempt at a position of the history is to make the assignment, and succeeds. -/
def Writes (l : LocalVariables) (history : List Assignment) (k : Nat) (a : Assignment) : Prop :=
  history[k]? = some a ∧ (l.attemptAll (history.take k)).Accepts a

/-- The history makes the assignment, and no later one that it makes overlaps it. -/
def Stands (l : LocalVariables) (history : List Assignment) (a : Assignment) : Prop :=
  ∃ k, l.Writes history k a ∧ ∀ j b, k < j → l.Writes history j b → ¬ b.Overlaps a

variable {l : LocalVariables} {a b : Assignment} {history : List Assignment} {i : Nat} {v : Value}

/-! ### One attempt -/

theorem get_eq_ok_iff : l.get i = .ok v ↔ l.slots[i]? = some (some v) := by
  unfold get
  split <;> simp_all

theorem get_of_empty (inside : i < l.size) (empty : ∀ v, l.get i ≠ .ok v) :
    l.get i = .error (.typeMismatch "initialized local variable" (.emptySlot i)) := by
  unfold get at empty ⊢
  split
  · rename_i v found
    simp [found] at empty
  · rfl
  · rename_i outside
    exact absurd (Array.getElem?_eq_none_iff.1 outside) (Nat.not_le.2 inside)

theorem accepts_iff : l.Accepts a ↔ a.stop ≤ l.size := by
  unfold Accepts
  simp only [set_eq_ok_iff]
  exact ⟨fun ⟨_, fits, _⟩ => fits, fun fits => ⟨_, fits, rfl⟩⟩

/-- A value that does not fit is refused with the first of its slots that is not there. -/
theorem set_of_not_fits (long : l.size < i + v.category) :
    l.set i v = .error (.invalidLocalIndex (max i l.size) l.size) := by
  have two := v.category_le_two
  unfold set
  by_cases outside : l.size ≤ i
  · rw [if_pos outside, Nat.max_eq_left outside]
  · have wide : v.category = 2 ∧ l.size ≤ i + 1 := by omega
    have next : i + 1 = max i l.size := by omega
    rw [if_neg outside, if_pos wide, next]

theorem attempt_of_accepts (accepts : l.Accepts a) : l.attempt a = l.write a.index a.value := by
  unfold attempt
  rw [set_eq_ok_iff.2 ⟨accepts_iff.1 accepts, rfl⟩]

theorem attempt_of_not_accepts (refuses : ¬ l.Accepts a) : l.attempt a = l := by
  unfold attempt
  split
  · rename_i l' stored
    exact absurd ⟨l', stored⟩ refuses
  · rfl

@[simp] theorem size_attempt (l : LocalVariables) (a : Assignment) :
    (l.attempt a).size = l.size := by
  by_cases accepts : l.Accepts a
  · rw [attempt_of_accepts accepts, size_write]
  · rw [attempt_of_not_accepts accepts]

/-- The halves of a pair that a write empties are those of the values that it overlaps. -/
theorem getElem?_write_iff (fits : a.stop ≤ l.size) :
    (l.write a.index a.value).slots[i]? = some (some v) ↔
      a = ⟨i, v⟩ ∨ l.slots[i]? = some (some v) ∧ ¬ a.Overlaps ⟨i, v⟩ := by
  have positive := v.category_pos
  have two := v.category_le_two
  have positive' := a.value.category_pos
  have two' := a.value.category_le_two
  obtain ⟨index, value⟩ := a
  simp only [Assignment.mk.injEq, Assignment.Overlaps, Assignment.stop] at fits positive' two' ⊢
  by_cases inside : i < l.size
  · rw [getElem?_write l index value inside]
    by_cases same : i = index
    · simp only [same, if_true, Option.some.injEq]
      constructor
      · exact fun stored => .inl ⟨trivial, stored⟩
      · rintro (⟨-, stored⟩ | ⟨-, apart⟩)
        · exact stored
        · omega
    · rw [if_neg same]
      by_cases found : l.slots[i]? = some (some v)
      · have wide : l.holdsWide i = true ↔ v.category = 2 := by
          rw [holdsWide_iff]
          simp [found]
        simp only [wide, found, true_and]
        split <;> simp <;> omega
      · simp only [found, false_and, or_false]
        split <;> simp [found, Ne.symm same]
  · have outside : l.size ≤ i := Nat.not_lt.1 inside
    rw [Array.getElem?_eq_none (by rw [← size, size_write]; exact outside),
      Array.getElem?_eq_none outside]
    simp only [reduceCtorEq, false_and, or_false, false_iff, not_and]
    omega

/-- After an attempt a value is read if it has just been stored, or if it was read before and the
attempt has failed or lies apart from it. -/
theorem get_attempt_iff : (l.attempt a).get i = .ok v ↔
    l.Accepts a ∧ a = ⟨i, v⟩ ∨ l.get i = .ok v ∧ (l.Accepts a → ¬ a.Overlaps ⟨i, v⟩) := by
  by_cases accepts : l.Accepts a
  · rw [attempt_of_accepts accepts, get_eq_ok_iff, get_eq_ok_iff,
      getElem?_write_iff (accepts_iff.1 accepts)]
    simp [accepts]
  · rw [attempt_of_not_accepts accepts]
    simp [accepts]

/-! ### Histories -/

theorem attemptAll_append (l : LocalVariables) (history : List Assignment) (a : Assignment) :
    l.attemptAll (history ++ [a]) = (l.attemptAll history).attempt a := by
  simp [attemptAll]

@[simp] theorem size_attemptAll (l : LocalVariables) (history : List Assignment) :
    (l.attemptAll history).size = l.size := by
  induction history using List.reverseRecOn with
  | nil => rfl
  | append_singleton history a ih => rw [attemptAll_append, size_attempt, ih]

theorem wellFormed_attemptAll (maxLocals : Nat) (history : List Assignment) :
    ((empty maxLocals).attemptAll history).WellFormed := by
  induction history using List.reverseRecOn with
  | nil => exact wellFormed_empty maxLocals
  | append_singleton history a ih =>
    rw [attemptAll_append]
    unfold attempt
    split
    · rename_i l' stored
      exact ih.set stored
    · exact ih

theorem lt_of_writes {k : Nat} (h : l.Writes history k b) : k < history.length :=
  (List.getElem?_eq_some_iff.1 h.1).1

theorem writes_append_iff {k : Nat} : l.Writes (history ++ [a]) k b ↔
    l.Writes history k b ∨ k = history.length ∧ b = a ∧ (l.attemptAll history).Accepts a := by
  rcases Nat.lt_trichotomy k history.length with earlier | rfl | outside
  · unfold Writes
    rw [List.getElem?_append_left earlier, List.take_append_of_le_length (Nat.le_of_lt earlier)]
    exact (or_iff_left fun last => Nat.ne_of_lt earlier last.1).symm
  · have none : ¬ l.Writes history history.length b := fun writes =>
      Nat.lt_irrefl _ (lt_of_writes writes)
    rw [or_iff_right none]
    unfold Writes
    rw [List.getElem?_concat_length, List.take_left, Option.some.injEq]
    constructor
    · rintro ⟨rfl, accepts⟩
      exact ⟨rfl, rfl, accepts⟩
    · rintro ⟨-, rfl, accepts⟩
      exact ⟨rfl, accepts⟩
  · refine iff_of_false (fun writes => ?_) ?_
    · have range := lt_of_writes writes
      rw [List.length_append, List.length_singleton] at range
      omega
    · rintro (writes | ⟨rfl, -⟩)
      · exact Nat.lt_asymm outside (lt_of_writes writes)
      · exact Nat.lt_irrefl _ outside

/-- The last attempt stands if it succeeds, and an earlier one that it does not overlap goes on to
stand. -/
theorem stands_append_iff : l.Stands (history ++ [a]) b ↔
    (l.attemptAll history).Accepts a ∧ a = b ∨
      l.Stands history b ∧ ((l.attemptAll history).Accepts a → ¬ a.Overlaps b) := by
  constructor
  · rintro ⟨k, writes, last⟩
    rcases writes_append_iff.1 writes with earlier | ⟨rfl, rfl, accepts⟩
    · refine .inr ⟨⟨k, earlier, fun j c later written => ?_⟩, fun accepts => ?_⟩
      · exact last j c later (writes_append_iff.2 (.inl written))
      · exact last _ a (lt_of_writes earlier) (writes_append_iff.2 (.inr ⟨rfl, rfl, accepts⟩))
    · exact .inl ⟨accepts, rfl⟩
  · rintro (⟨accepts, rfl⟩ | ⟨⟨k, writes, last⟩, apart⟩)
    · refine ⟨_, writes_append_iff.2 (.inr ⟨rfl, rfl, accepts⟩), fun j c later written => ?_⟩
      rcases writes_append_iff.1 written with earlier | ⟨rfl, -⟩
      · exact absurd (lt_of_writes earlier) (Nat.lt_asymm later)
      · exact absurd later (Nat.lt_irrefl _)
    · refine ⟨k, writes_append_iff.2 (.inl writes), fun j c later written => ?_⟩
      rcases writes_append_iff.1 written with earlier | ⟨-, rfl, accepts⟩
      · exact last j c later earlier
      · exact apart accepts

theorem get_attemptAll_iff (maxLocals : Nat) (history : List Assignment) :
    ((empty maxLocals).attemptAll history).get i = .ok v ↔
      (empty maxLocals).Stands history ⟨i, v⟩ := by
  induction history using List.reverseRecOn with
  | nil =>
    have nothing : (empty maxLocals).get i ≠ .ok v := by
      rw [Ne, get_eq_ok_iff]
      simp [empty, Array.getElem?_replicate]
    refine iff_of_false nothing ?_
    rintro ⟨k, writes, -⟩
    exact Nat.not_lt_zero k (lt_of_writes writes)
  | append_singleton history a ih =>
    rw [attemptAll_append, get_attempt_iff, ih, stands_append_iff]

/-- The last write wins. Whatever is tried, a value is read at an index exactly if it was stored
there and nothing that was stored later overlaps it, and otherwise the slot is empty. An attempt
fails exactly if the value does not fit, and then changes nothing. One that succeeds leaves every
value alone that it does not overlap. Of a value that it does overlap nothing is read any more, and
of a value of two slots nothing is ever read at the second one. -/
theorem last_write_wins (maxLocals : Nat) (history : List Assignment) (l : LocalVariables)
    (after : l = (empty maxLocals).attemptAll history) :
    (∀ i v, l.get i = .ok v ↔ (empty maxLocals).Stands history ⟨i, v⟩) ∧
    (∀ i < maxLocals, (∀ v, ¬ (empty maxLocals).Stands history ⟨i, v⟩) →
      l.get i = .error (.typeMismatch "initialized local variable" (.emptySlot i))) ∧
    (∀ a, l.Accepts a ↔ a.stop ≤ maxLocals) ∧
    (∀ i v, maxLocals < i + v.category →
      l.set i v = .error (.invalidLocalIndex (max i maxLocals) maxLocals) ∧
        l.attempt ⟨i, v⟩ = l) ∧
    (∀ i v a, l.get i = .ok v → ¬ a.Overlaps ⟨i, v⟩ → (l.attempt a).get i = .ok v) ∧
    (∀ i v a, l.get i = .ok v → l.Accepts a → a.Overlaps ⟨i, v⟩ →
      ∀ u, (l.attempt a).get i = .ok u → a = ⟨i, u⟩) ∧
    ∀ i v, l.get i = .ok v → v.category = 2 →
      l.get (i + 1) = .error (.typeMismatch "initialized local variable" (.emptySlot (i + 1))) := by
  have reads (i : Nat) (v : Value) :
      l.get i = .ok v ↔ (empty maxLocals).Stands history ⟨i, v⟩ := by
    rw [after]
    exact get_attemptAll_iff maxLocals history
  have size : l.size = maxLocals := by rw [after, size_attemptAll, size_empty]
  refine ⟨reads, fun i inside none => ?empty, fun a => ?fits, fun i v long => ?refused,
    fun i v a before apart => ?apart, fun i v a before accepts overlaps u read => ?gone,
    fun i v here wide => ?second⟩
  case empty =>
    rw [← size] at inside
    exact get_of_empty inside fun v read => none v ((reads i v).1 read)
  case fits => rw [accepts_iff, size]
  case refused =>
    rw [← size] at long ⊢
    refine ⟨set_of_not_fits long, attempt_of_not_accepts fun accepts => ?_⟩
    exact Nat.not_lt.2 (accepts_iff.1 accepts) long
  case apart => exact get_attempt_iff.2 (.inr ⟨before, fun _ => apart⟩)
  case gone =>
    rcases get_attempt_iff.1 read with ⟨-, stored⟩ | ⟨kept, apart⟩
    · exact stored
    · cases before.symm.trans kept
      exact absurd overlaps (apart accepts)
  case second =>
    have next := after ▸ wellFormed_attemptAll maxLocals history
    unfold get
    rw [next i v (get_eq_ok_iff.1 here) wide]

/-- A `long` whose second half is overwritten, a `double` that does not fit any more, and an `int`
beside the one that is left. -/
def halving : List Assignment :=
  [⟨0, .long 5⟩, ⟨1, .int 7⟩, ⟨2, .double .zero⟩, ⟨2, .int 8⟩]

/-- The `long` is gone, the two values of one slot are there, and another `long` would take the
first of them away but not the second. -/
theorem last_write_wins_halving :
    let l := (empty 3).attemptAll halving
    l.get 0 = .error (.typeMismatch "initialized local variable" (.emptySlot 0)) ∧
      l.get 1 = .ok (.int 7) ∧ l.set 2 (.double .zero) = .error (.invalidLocalIndex 3 3) ∧
      l.Accepts ⟨0, .long 9⟩ ∧ (l.attempt ⟨0, .long 9⟩).get 2 = .ok (.int 8) ∧
      (∀ u, (l.attempt ⟨0, .long 9⟩).get 1 ≠ .ok u) ∧
      (empty 3).Stands halving ⟨2, .int 8⟩ := by
  intro l
  obtain ⟨reads, -, fits, refused, apart, gone, -⟩ := last_write_wins 3 halving l rfl
  have accepts : l.Accepts ⟨0, .long 9⟩ := (fits _).2 (by decide)
  refine ⟨rfl, rfl, (refused 2 (.double .zero) (by decide)).1, accepts, ?_, fun u read => ?_, ?_⟩
  · refine apart 2 (.int 8) _ rfl ?_
    unfold Assignment.Overlaps
    decide
  · have overlaps : Assignment.Overlaps ⟨0, .long 9⟩ ⟨1, .int 7⟩ := by
      unfold Assignment.Overlaps
      decide
    cases gone 1 (.int 7) _ rfl accepts overlaps u read
  · exact (reads 2 (.int 8)).1 rfl

end LocalVariables

end JavaMachine
