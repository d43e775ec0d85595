import JavaMachine.Proofs.InstructionEffects
import Mathlib.Data.List.Basic

/-!
# Rearranging slots

The instructions that rearrange the operand stack are specified on slots: a `long` or `double` is
two of them, and each instruction is one fixed rearrangement of the slots on top. Here the stack is
expanded to its slots, and every operator is shown to do to these what it is specified to do, in the
forms for narrow and wide values alike. It does so exactly if there are enough slots, no wide value
lies across a boundary between two groups of slots that the operator moves, and the outcome fits.
-/
namespace JavaMachine

/-- A slot of an operand stack, with the value that it belongs to. -/
inductive Slot
  /-- All of a value that takes one slot. -/
  | whole (v : Value)
  /-- The half on top of a value that takes two slots. -/
  | upper (v : Value)
  /-- The half beneath. -/
  | lower (v : Value)
  deriving DecidableEq

/-- The slots of the value, from the top down. -/
def Value.slots (v : Value) : List Slot :=
  if v.category = 2 then [.upper v, .lower v] else [.whole v]

@[simp] theorem Value.length_slots (v : Value) : v.slots.length = v.category := by
  have two := v.category_le_two
  have some := v.category_pos
  by_cases wide : v.category = 2
  · simp [slots, wide]
  · simp [slots, wide]
    omega

namespace OperandStack

variable {values upper lower group : List Value} {n m : Nat} {s s' : OperandStack}

def expand (values : List Value) : List Slot := values.flatMap Value.slots

@[simp] theorem expand_append (upper lower : List Value) :
    expand (upper ++ lower) = expand upper ++ expand lower := List.flatMap_append

@[simp] theorem length_expand (values : List Value) : (expand values).length = slots values := by
  induction values with
  | nil => rfl
  | cons v rest ih => simp [expand, ← ih]

@[simp] theorem slots_append (upper lower : List Value) :
    slots (upper ++ lower) = slots upper + slots lower := by
  simp [← length_expand]

@[simp] theorem slots_reverse (values : List Value) : slots values.reverse = slots values := by
  induction values with
  | nil => rfl
  | cons v rest ih => simp [ih, Nat.add_comm]

/-- The boundary beneath the `n` slots on top lies inside a value. -/
def Splits (n : Nat) (values : List Value) : Prop :=
  ∃ above v below, values = above ++ v :: below ∧ slots above < n ∧ n < slots above + v.category

/-- The values are cut beneath the `n` slots on top if there are as many and the boundary does not
lie inside a value. -/
theorem exists_cut_iff : (∃ upper lower, values = upper ++ lower ∧ slots upper = n) ↔
    n ≤ slots values ∧ ¬ Splits n values := by
  constructor
  · rintro ⟨upper, lower, rfl, rfl⟩
    refine ⟨by simp, ?_⟩
    rintro ⟨above, v, below, same, short, long⟩
    rcases List.append_eq_append_iff.1 same with ⟨more, rfl, -⟩ | ⟨more, rfl, rest⟩
    · rw [slots_append] at short
      omega
    · cases more with
      | nil => simp at short
      | cons u more =>
        obtain ⟨rfl, -⟩ := List.cons_eq_cons.1 rest
        simp only [slots_append, slots_cons] at long
        omega
  · induction values generalizing n with
    | nil =>
      rintro ⟨enough, -⟩
      exact ⟨[], [], rfl, (Nat.le_zero.1 enough).symm⟩
    | cons v rest ih =>
      rintro ⟨enough, whole⟩
      rcases Nat.eq_zero_or_pos n with rfl | some
      · exact ⟨[], v :: rest, rfl, rfl⟩
      · have covers : v.category ≤ n := by
          apply Nat.le_of_not_lt
          intro inside
          exact whole ⟨[], v, rest, rfl, some, by simpa using inside⟩
        have deeper : n - v.category ≤ slots rest ∧ ¬ Splits (n - v.category) rest := by
          rw [slots_cons] at enough
          refine ⟨by omega, ?_⟩
          rintro ⟨above, u, below, rfl, short, long⟩
          exact whole ⟨v :: above, u, below, rfl, by simp; omega, by simp; omega⟩
        obtain ⟨upper, lower, rfl, cut⟩ := ih deeper
        exact ⟨v :: upper, lower, rfl, by simp; omega⟩

/-! ### Taking groups of slots off and pushing them -/

def withValues (s : OperandStack) (values : List Value) : OperandStack :=
  { s with values := values, size := slots values }

@[simp] theorem values_withValues (s : OperandStack) (values : List Value) :
    (s.withValues values).values = values := rfl

@[simp] theorem maxStack_withValues (s : OperandStack) (values : List Value) :
    (s.withValues values).maxStack = s.maxStack := rfl

theorem WellFormed.withValues_self (h : s.WellFormed) : s.withValues s.values = s := by
  unfold withValues
  rw [← h.size_eq]

theorem WellFormed.withValues (h : slots values ≤ s.maxStack) : (s.withValues values).WellFormed :=
  ⟨rfl, h⟩

theorem WellFormed.pop_of_cons (h : s.WellFormed) {v : Value} {rest : List Value}
    (values : s.values = v :: rest) : OperandStack.pop s = .ok v (s.withValues rest) := by
  have height := h.size_eq
  rw [values, slots_cons] at height
  unfold OperandStack.pop
  rw [values]
  simp [OperandStack.withValues, height]

theorem pop_of_nil (values : s.values = []) : pop s = .error .operandStackUnderflow s := by
  unfold pop
  rw [values]

theorem popAs_of_nil {α : Type} (expected : String) (read? : Value → Option α)
    (values : s.values = []) : popAs expected read? s = .error .operandStackUnderflow s := by
  unfold popAs
  rw [bind_of_error (pop_of_nil values)]

theorem popAs_of_cons {α : Type} (expected : String) (read? : Value → Option α)
    (h : s.WellFormed) {v : Value} {rest : List Value} (values : s.values = v :: rest) :
    popAs expected read? s =
      match read? v with
      | some a => .ok a (s.withValues rest)
      | none => .error (.typeMismatch expected (.value v)) (s.withValues rest) := by
  unfold popAs
  rw [bind_of_ok (h.pop_of_cons values)]
  cases read? v <;> rfl

theorem slots_eq_one_iff : slots group = 1 ↔ ∃ v, group = [v] ∧ v.category = 1 := by
  cases group with
  | nil => simp
  | cons v rest =>
    have some := v.category_pos
    cases rest with
    | nil => simp
    | cons u rest =>
      have more := u.category_pos
      simp
      omega

theorem slots_eq_two_iff : slots group = 2 ↔
    (∃ v, group = [v] ∧ v.category = 2) ∨
      ∃ u v, group = [u, v] ∧ u.category = 1 ∧ v.category = 1 := by
  cases group with
  | nil => simp
  | cons u rest =>
    have some := u.category_pos
    cases rest with
    | nil => simp
    | cons v rest =>
      have more := v.category_pos
      cases rest with
      | nil =>
        constructor
        · intro two
          exact .inr ⟨u, v, rfl, by simp at two; omega⟩
        · rintro (⟨_, single, -⟩ | ⟨_, _, ⟨⟩, first, second⟩)
          · cases single
          · simp [first, second]
      | cons x rest =>
        have third := x.category_pos
        simp
        omega

theorem WellFormed.popCategory1_eq_ok (h : s.WellFormed) {v : Value} :
    popCategory1 s = .ok v s' ↔
      ∃ rest, s.values = v :: rest ∧ v.category = 1 ∧ s' = s.withValues rest := by
  unfold popCategory1 popAs
  cases values : s.values with
  | nil =>
    rw [bind_of_error (pop_of_nil values)]
    simp
  | cons u rest =>
    rw [bind_of_ok (h.pop_of_cons values)]
    by_cases narrow : u.category = 1
    · simp only [if_pos narrow]
      constructor
      · rintro ⟨⟩
        exact ⟨rest, rfl, narrow, rfl⟩
      · rintro ⟨_, ⟨⟩, -, rfl⟩
        rfl
    · simp only [if_neg narrow]
      constructor
      · rintro ⟨⟩
      · rintro ⟨_, ⟨⟩, one, -⟩
        exact absurd one narrow

/-- The computation takes the values off that make up the `n` slots on top, and gives them with the
lowest value first. -/
def TakesSlots (n : Nat) (x : Change (List Value)) : Prop :=
  ∀ {s : OperandStack}, s.WellFormed → ∀ {group s'}, x s = .ok group s' ↔
    ∃ lower, s.values = group.reverse ++ lower ∧ slots group = n ∧ s' = s.withValues lower

theorem takesSlots_takeOne : TakesSlots 1 StackOperator.takeOne := by
  intro s h group s'
  unfold StackOperator.takeOne
  rw [bind_eq_ok]
  constructor
  · rintro ⟨v, s₁, popped, ⟨⟩⟩
    obtain ⟨rest, values, narrow, rfl⟩ := h.popCategory1_eq_ok.1 popped
    exact ⟨rest, values, slots_eq_one_iff.2 ⟨v, rfl, narrow⟩, rfl⟩
  · rintro ⟨rest, values, one, rfl⟩
    obtain ⟨v, rfl, narrow⟩ := slots_eq_one_iff.1 one
    exact ⟨v, _, h.popCategory1_eq_ok.2 ⟨rest, values, narrow, rfl⟩, rfl⟩

theorem takesSlots_takeTwo : TakesSlots 2 StackOperator.takeTwo := by
  intro s h group s'
  unfold StackOperator.takeTwo
  cases values : s.values with
  | nil =>
    rw [bind_of_error (pop_of_nil values)]
    constructor
    · rintro ⟨⟩
    · rintro ⟨lower, split, two, -⟩
      obtain ⟨empty, -⟩ := List.append_eq_nil_iff.1 split.symm
      rw [List.reverse_eq_nil_iff.1 empty] at two
      cases two
  | cons u rest =>
    have below : (s.withValues rest).WellFormed := by
      have height := h.size_le
      rw [h.size_eq, values, slots_cons] at height
      exact .withValues (by omega)
    rw [bind_of_ok (h.pop_of_cons values)]
    by_cases wide : u.category = 2
    · rw [if_pos wide]
      constructor
      · rintro ⟨⟩
        exact ⟨rest, rfl, slots_eq_two_iff.2 (.inl ⟨u, rfl, wide⟩), rfl⟩
      · rintro ⟨lower, split, two, rfl⟩
        rcases slots_eq_two_iff.1 two with ⟨v, rfl, -⟩ | ⟨v, u', rfl, -, narrow⟩
        · cases split
          rfl
        · cases split
          omega
    · rw [if_neg wide, bind_eq_ok]
      constructor
      · rintro ⟨v, s₁, popped, ⟨⟩⟩
        obtain ⟨lower, values', narrow, rfl⟩ := below.popCategory1_eq_ok.1 popped
        change rest = _ at values'
        have one : u.category = 1 := by
          have := u.category_pos
          have := u.category_le_two
          omega
        exact ⟨lower, by simp [values'], slots_eq_two_iff.2 (.inr ⟨v, u, rfl, narrow, one⟩), rfl⟩
      · rintro ⟨lower, split, two, rfl⟩
        rcases slots_eq_two_iff.1 two with ⟨v, rfl, wide'⟩ | ⟨v, u', rfl, narrow, -⟩
        · cases split
          exact absurd wide' wide
        · cases split
          exact ⟨v, _, below.popCategory1_eq_ok.2 ⟨lower, rfl, narrow, rfl⟩, rfl⟩

theorem push_eq_ok_iff (h : s.WellFormed) {v : Value} : push v s = .ok () s' ↔
    v.category + slots s.values ≤ s.maxStack ∧ s' = s.withValues (v :: s.values) := by
  unfold push
  dsimp only
  rw [h.size_eq, Nat.add_comm]
  split
  · rename_i high
    constructor
    · rintro ⟨⟩
    · rintro ⟨fits, -⟩
      omega
  · rename_i fits
    constructor
    · rintro ⟨⟩
      exact ⟨Nat.not_lt.1 fits, rfl⟩
    · rintro ⟨-, rfl⟩
      rfl

theorem pushAll_eq_ok_iff (h : s.WellFormed) : pushAll group s = .ok () s' ↔
    slots group + slots s.values ≤ s.maxStack ∧ s' = s.withValues (group.reverse ++ s.values) := by
  induction group generalizing s with
  | nil =>
    have fits := h.size_le
    rw [h.size_eq] at fits
    simp only [List.reverse_nil, List.nil_append, h.withValues_self, slots_nil, Nat.zero_add, fits,
      true_and]
    constructor
    · rintro ⟨⟩
      rfl
    · rintro rfl
      rfl
  | cons v rest ih =>
    unfold pushAll
    rw [bind_eq_ok]
    constructor
    · rintro ⟨⟨⟩, s₁, pushed, later⟩
      obtain ⟨room, rfl⟩ := (push_eq_ok_iff h).1 pushed
      have onTop : (s.withValues (v :: s.values)).WellFormed := .withValues room
      obtain ⟨fits, rfl⟩ := (ih onTop).1 later
      simp only [withValues, slots_cons] at fits
      refine ⟨by simp only [slots_cons]; omega, ?_⟩
      simp [withValues]
    · rintro ⟨fits, rfl⟩
      rw [slots_cons] at fits
      have room : slots (v :: s.values) ≤ s.maxStack := by
        rw [slots_cons]
        omega
      refine ⟨(), _, (push_eq_ok_iff h).2 ⟨room, rfl⟩, (ih (.withValues room)).2 ⟨?_, ?_⟩⟩
      · simp only [withValues, slots_cons]
        omega
      · simp [withValues]

/-! ### Expansion -/

theorem splits_append (cut : slots upper = n) (h : Splits m lower) :
    Splits (n + m) (upper ++ lower) := by
  obtain ⟨above, v, below, rfl, short, long⟩ := h
  exact ⟨upper ++ above, v, below, by simp, by simp; omega, by simp; omega⟩

/-- The computation rearranges the slots: it gives the stack with the rearranged slots, and succeeds
exactly if there are enough of them, no value lies across one of the boundaries, and the slots fit
afterwards. -/
structure Rearranges (g : List Slot → Option (List Slot)) (boundaries : List Nat)
    (x : Change Unit) (s : OperandStack) : Prop where
  gives : ∀ s', x s = .ok () s' → g (expand s.values) = some (expand s'.values) ∧
    s'.WellFormed ∧ s'.maxStack = s.maxStack
  succeeds_iff : (∃ s', x s = .ok () s') ↔ ∃ r, g (expand s.values) = some r ∧
    (∀ n ∈ boundaries, ¬ Splits n s.values) ∧ r.length ≤ s.maxStack

section Groups

variable {g : List Slot → Option (List Slot)} {x y : Change (List Value)}

theorem TakesSlots.bind_eq_ok_iff (hx : TakesSlots n x) {k : List Value → Change Unit}
    (h : s.WellFormed) : (x >>= k) s = .ok () s' ↔
      ∃ a lower, s.values = a.reverse ++ lower ∧ slots a = n ∧
        k a (s.withValues lower) = .ok () s' := by
  rw [bind_eq_ok]
  constructor
  · rintro ⟨a, s₁, taken, later⟩
    obtain ⟨lower, values, height, rfl⟩ := (hx h).1 taken
    exact ⟨a, lower, values, height, later⟩
  · rintro ⟨a, lower, values, height, later⟩
    exact ⟨a, _, (hx h).2 ⟨lower, values, height, rfl⟩, later⟩

theorem WellFormed.beneath (h : s.WellFormed) (values : s.values = upper ++ lower) :
    (s.withValues lower).WellFormed := by
  have fits := h.size_le
  rw [h.size_eq, values, slots_append] at fits
  apply WellFormed.withValues
  omega

/-- A group is taken off, and its slots are pushed as the rearrangement says. -/
theorem rearranges_one (hx : TakesSlots n x) {f : List Value → List Value}
    {F : List Slot → List Slot} (expands : ∀ a, expand (f a).reverse = F (expand a.reverse))
    (needs : ∀ l r, g l = some r → ∀ k ∈ [n], k ≤ l.length)
    (moves : ∀ A rest, A.length = n → g (A ++ rest) = some (F A ++ rest)) (h : s.WellFormed) :
    Rearranges g [n] (x >>= fun a => pushAll (f a)) s := by
  have moved (a lower : List Value) (values : s.values = a.reverse ++ lower)
      (height : slots a = n) :
      g (expand s.values) = some (expand ((f a).reverse ++ lower)) := by
    rw [values, expand_append, moves _ _ (by simp [height]), expand_append, expands]
  have forward (s' : OperandStack) (ran : (x >>= fun a => pushAll (f a)) s = .ok () s') :
      ∃ a lower, s.values = a.reverse ++ lower ∧ slots a = n ∧
        slots (f a) + slots lower ≤ s.maxStack ∧ s' = s.withValues ((f a).reverse ++ lower) := by
    obtain ⟨a, lower, values, height, pushed⟩ := (hx.bind_eq_ok_iff h).1 ran
    obtain ⟨fits, rfl⟩ := (pushAll_eq_ok_iff (h.beneath values)).1 pushed
    exact ⟨a, lower, values, height, fits, rfl⟩
  constructor
  case gives =>
    intro s' ran
    obtain ⟨a, lower, values, height, fits, rfl⟩ := forward s' ran
    exact ⟨moved a lower values height, .withValues (by simpa using fits), rfl⟩
  case succeeds_iff =>
    constructor
    · rintro ⟨s', ran⟩
      obtain ⟨a, lower, values, height, fits, -⟩ := forward s' ran
      refine ⟨_, moved a lower values height, ?_, by simpa using fits⟩
      have cut := exists_cut_iff.1 ⟨a.reverse, lower, values, rfl⟩
      simpa [height] using cut.2
    · rintro ⟨r, rearranged, whole, fits⟩
      have enough := needs _ _ rearranged n (by simp)
      rw [length_expand] at enough
      obtain ⟨upper, lower, values, cut⟩ := exists_cut_iff.2 ⟨enough, whole n (by simp)⟩
      have values' : s.values = upper.reverse.reverse ++ lower := by simpa using values
      have height : slots upper.reverse = n := by simpa using cut
      rw [moved _ _ values' height, Option.some.injEq] at rearranged
      subst rearranged
      exact ⟨_, (hx.bind_eq_ok_iff h).2 ⟨_, lower, values', height,
        (pushAll_eq_ok_iff (h.beneath values)).2 ⟨by simpa using fits, rfl⟩⟩⟩

/-- Two groups are taken off, and their slots are pushed as the rearrangement says. -/
theorem rearranges_two (hx : TakesSlots n x) (hy : TakesSlots m y)
    {f : List Value → List Value → List Value} {F : List Slot → List Slot → List Slot}
    (expands : ∀ a b, expand (f a b).reverse = F (expand a.reverse) (expand b.reverse))
    (needs : ∀ l r, g l = some r → ∀ k ∈ [n, n + m], k ≤ l.length)
    (moves : ∀ A B rest, A.length = n → B.length = m →
      g (A ++ (B ++ rest)) = some (F A B ++ rest)) (h : s.WellFormed) :
    Rearranges g [n, n + m] (x >>= fun a => y >>= fun b => pushAll (f a b)) s := by
  have moved (a b lower : List Value) (values : s.values = a.reverse ++ (b.reverse ++ lower))
      (height : slots a = n) (height' : slots b = m) :
      g (expand s.values) = some (expand ((f a b).reverse ++ lower)) := by
    rw [values, expand_append, expand_append, moves _ _ _ (by simp [height]) (by simp [height']),
      expand_append, expands]
  have forward (s' : OperandStack)
      (ran : (x >>= fun a => y >>= fun b => pushAll (f a b)) s = .ok () s') :
      ∃ a b lower, s.values = a.reverse ++ (b.reverse ++ lower) ∧ slots a = n ∧ slots b = m ∧
        slots (f a b) + slots lower ≤ s.maxStack ∧
          s' = s.withValues ((f a b).reverse ++ lower) := by
    obtain ⟨a, middle, values, height, later⟩ := (hx.bind_eq_ok_iff h).1 ran
    obtain ⟨b, lower, values', height', pushed⟩ := (hy.bind_eq_ok_iff (h.beneath values)).1 later
    change middle = _ at values'
    subst values'
    obtain ⟨fits, rfl⟩ := (pushAll_eq_ok_iff ((h.beneath values).beneath rfl)).1 pushed
    exact ⟨a, b, lower, values, height, height', fits, rfl⟩
  constructor
  case gives =>
    intro s' ran
    obtain ⟨a, b, lower, values, height, height', fits, rfl⟩ := forward s' ran
    exact ⟨moved a b lower values height height', .withValues (by simpa using fits), rfl⟩
  case succeeds_iff =>
    constructor
    · rintro ⟨s', ran⟩
      obtain ⟨a, b, lower, values, height, height', fits, -⟩ := forward s' ran
      refine ⟨_, moved a b lower values height height', ?_, by simpa using fits⟩
      have both : s.values = (a.reverse ++ b.reverse) ++ lower := by simp [values]
      have first := exists_cut_iff.1 ⟨a.reverse, _, values, rfl⟩
      have second := exists_cut_iff.1 ⟨a.reverse ++ b.reverse, lower, both, rfl⟩
      rw [slots_reverse, height] at first
      rw [slots_append, slots_reverse, slots_reverse, height, height'] at second
      simpa using ⟨first.2, second.2⟩
    · rintro ⟨r, rearranged, whole, fits⟩
      have enough := needs _ _ rearranged (n + m) (by simp)
      rw [length_expand] at enough
      have within : n ≤ slots s.values := by omega
      obtain ⟨upper, middle, values, cut⟩ := exists_cut_iff.2 ⟨within, whole n (by simp)⟩
      have deeper : m ≤ slots middle ∧ ¬ Splits m middle := by
        rw [values, slots_append] at enough
        refine ⟨by omega, ?_⟩
        intro across
        exact whole (n + m) (by simp) (values ▸ splits_append cut across)
      obtain ⟨between, lower, rfl, cut'⟩ := exists_cut_iff.2 deeper
      have values' : s.values = upper.reverse.reverse ++ (between.reverse.reverse ++ lower) := by
        simpa using values
      have height : slots upper.reverse = n := by simpa using cut
      have height' : slots between.reverse = m := by simpa using cut'
      rw [moved _ _ _ values' height height', Option.some.injEq] at rearranged
      subst rearranged
      have pushed := (pushAll_eq_ok_iff ((h.beneath values).beneath rfl)).2
        ⟨by simpa using fits, rfl⟩
      exact ⟨_, (hx.bind_eq_ok_iff h).2 ⟨_, between ++ lower, by simpa using values', height,
        (hy.bind_eq_ok_iff (h.beneath values)).2
          ⟨_, lower, by simp [withValues], height', pushed⟩⟩⟩

section Forms

variable (needs : ∀ l r, g l = some r → ∀ k ∈ [n], k ≤ l.length) (h : s.WellFormed)
include needs h

theorem rearranges_drop (hx : TakesSlots n x)
    (moves : ∀ A, A.length = n → ∀ rest, g (A ++ rest) = some rest) :
    Rearranges g [n] (x >>= fun _ => pure ()) s :=
  rearranges_one (f := fun _ => []) (F := fun _ => []) hx (fun _ => rfl) needs
    (fun A rest length => moves A length rest) h

theorem rearranges_double (hx : TakesSlots n x)
    (moves : ∀ A, A.length = n → ∀ rest, g (A ++ rest) = some (A ++ A ++ rest)) :
    Rearranges g [n] (x >>= fun a => pushAll (a ++ a)) s :=
  rearranges_one (F := fun A => A ++ A) hx (by simp) needs
    (fun A rest length => moves A length rest) h

end Forms

section Forms

variable (needs : ∀ l r, g l = some r → ∀ k ∈ [n, n + m], k ≤ l.length) (h : s.WellFormed)
include needs h

theorem rearranges_insert (hx : TakesSlots n x) (hy : TakesSlots m y)
    (moves : ∀ A, A.length = n → ∀ B, B.length = m → ∀ rest,
      g (A ++ (B ++ rest)) = some (A ++ B ++ A ++ rest)) :
    Rearranges g [n, n + m] (x >>= fun a => y >>= fun b => pushAll (a ++ b ++ a)) s :=
  rearranges_two (F := fun A B => A ++ B ++ A) hx hy (by simp) needs
    (fun A B rest first second => moves A first B second rest) h

theorem rearranges_exchange (hx : TakesSlots n x) (hy : TakesSlots m y)
    (moves : ∀ A, A.length = n → ∀ B, B.length = m → ∀ rest,
      g (A ++ (B ++ rest)) = some (B ++ A ++ rest)) :
    Rearranges g [n, n + m] (x >>= fun a => y >>= fun b => pushAll (a ++ b)) s :=
  rearranges_two (F := fun A B => B ++ A) hx hy (by simp) needs
    (fun A B rest first second => moves A first B second rest) h

end Forms

end Groups

end OperandStack

open OperandStack

namespace StackOperator

/-- The slots after the rearrangement, from the top down, if there are enough of them. -/
def rearrange {α : Type} : StackOperator → List α → Option (List α)
  | pop, _ :: rest => some rest
  | pop2, _ :: _ :: rest => some rest
  | dup, a :: rest => some (a :: a :: rest)
  | dupX1, a :: b :: rest => some (a :: b :: a :: rest)
  | dupX2, a :: b :: c :: rest => some (a :: b :: c :: a :: rest)
  | dup2, a :: b :: rest => some (a :: b :: a :: b :: rest)
  | dup2X1, a :: b :: c :: rest => some (a :: b :: c :: a :: b :: rest)
  | dup2X2, a :: b :: c :: d :: rest => some (a :: b :: c :: d :: a :: b :: rest)
  | swap, a :: b :: rest => some (b :: a :: rest)
  | _, _ => none

/-- The heights from the top at which the rearrangement takes the slots apart. -/
def boundaries : StackOperator → List Nat
  | pop | dup => [1]
  | pop2 | dup2 => [2]
  | dupX1 | swap => [1, 2]
  | dupX2 => [1, 3]
  | dup2X1 => [2, 3]
  | dup2X2 => [2, 4]

variable {op : StackOperator} {s s' : OperandStack}

/-- A rearrangement needs the slots down to its deepest boundary. -/
theorem le_length_of_rearrange {α : Type} {l r : List α} (h : op.rearrange l = some r) :
    ∀ n ∈ op.boundaries, n ≤ l.length := by
  unfold rearrange at h
  split at h
  all_goals first
    | contradiction
    | simp [boundaries]

theorem forall_of_length_one {α : Type} {P : List α → Prop} (h : ∀ a, P [a]) :
    ∀ A, A.length = 1 → P A := by
  intro A one
  obtain ⟨a, rfl⟩ := List.length_eq_one_iff.1 one
  exact h a

theorem forall_of_length_two {α : Type} {P : List α → Prop} (h : ∀ a b, P [a, b]) :
    ∀ A, A.length = 2 → P A := by
  intro A two
  obtain ⟨a, b, rfl⟩ := List.length_eq_two.1 two
  exact h a b

/-- Every operator rearranges the slots as it is specified to. -/
theorem rearranges_run (op : StackOperator) (h : s.WellFormed) :
    Rearranges op.rearrange op.boundaries op.run s := by
  have needs (l r : List Slot) (moved : op.rearrange l = some r) := le_length_of_rearrange moved
  cases op with
  | pop =>
    refine rearranges_drop needs h takesSlots_takeOne ?_
    exact forall_of_length_one fun _ _ => rfl
  | pop2 =>
    refine rearranges_drop needs h takesSlots_takeTwo ?_
    exact forall_of_length_two fun _ _ _ => rfl
  | dup =>
    refine rearranges_double needs h takesSlots_takeOne ?_
    exact forall_of_length_one fun _ _ => rfl
  | dup2 =>
    refine rearranges_double needs h takesSlots_takeTwo ?_
    exact forall_of_length_two fun _ _ _ => rfl
  | dupX1 =>
    refine rearranges_insert needs h takesSlots_takeOne takesSlots_takeOne ?_
    exact forall_of_length_one fun _ => forall_of_length_one fun _ _ => rfl
  | dupX2 =>
    refine rearranges_insert needs h takesSlots_takeOne takesSlots_takeTwo ?_
    exact forall_of_length_one fun _ => forall_of_length_two fun _ _ _ => rfl
  | dup2X1 =>
    refine rearranges_insert needs h takesSlots_takeTwo takesSlots_takeOne ?_
    exact forall_of_length_two fun _ _ => forall_of_length_one fun _ _ => rfl
  | dup2X2 =>
    refine rearranges_insert needs h takesSlots_takeTwo takesSlots_takeTwo ?_
    exact forall_of_length_two fun _ _ => forall_of_length_two fun _ _ _ => rfl
  | swap =>
    refine rearranges_exchange needs h takesSlots_takeOne takesSlots_takeOne ?_
    exact forall_of_length_one fun _ => forall_of_length_one fun _ _ => rfl

end StackOperator

namespace Instruction

open Execution

variable {natives : NativeRegistry} {callers : List Frame} {a : Activation}

theorem change_eq_ok_iff {x : OperandStack.Change Unit} {action : Action} {a' : Activation} :
    change x a = .ok action a' ↔ ∃ s', x a.frame.stack = .ok () s' ∧ action = .proceed ∧
      a' = { a with frame := { a.frame with stack := s' } } := by
  unfold change proceeding
  rw [bind_eq_ok]
  constructor
  · rintro ⟨⟨⟩, a₁, ran, ⟨⟩⟩
    obtain ⟨s', done, rfl⟩ := onStack_eq_ok.1 ran
    exact ⟨s', done, rfl, rfl⟩
  · rintro ⟨s', ran, rfl, rfl⟩
    exact ⟨(), _, onStack_eq_ok.2 ⟨s', ran, rfl⟩, rfl⟩

/-- An instruction that rearranges the stack does to its slots what it is specified to do and leaves
everything else alone. It succeeds exactly if there are enough slots, no value of two slots lies
across a boundary of the rearrangement, and the slots fit afterwards. -/
theorem execute_rearranges (natives : NativeRegistry) (callers : List Frame) (op : StackOperator)
    (h : a.frame.stack.WellFormed) :
    (∀ action a', (Instruction.stack op).execute natives callers a = .ok action a' →
      op.rearrange (expand a.frame.stack.values) = some (expand a'.frame.stack.values) ∧
      a'.frame.stack.WellFormed ∧ a'.frame.stack.maxStack = a.frame.stack.maxStack ∧
      a' = { a with frame := { a.frame with stack := a'.frame.stack } } ∧ action = .proceed) ∧
    ((∃ action a', (Instruction.stack op).execute natives callers a = .ok action a') ↔
      ∃ slots, op.rearrange (expand a.frame.stack.values) = some slots ∧
        (∀ n ∈ op.boundaries, ¬ Splits n a.frame.stack.values) ∧
        slots.length ≤ a.frame.stack.maxStack) := by
  have rearranges := op.rearranges_run h
  constructor
  · intro action a' ran
    obtain ⟨s', done, rfl, rfl⟩ := change_eq_ok_iff.1 ran
    obtain ⟨moved, wellFormed, limit⟩ := rearranges.gives s' done
    exact ⟨moved, wellFormed, limit, rfl, rfl⟩
  · rw [← rearranges.succeeds_iff]
    constructor
    · rintro ⟨action, a', ran⟩
      obtain ⟨s', done, -⟩ := change_eq_ok_iff.1 ran
      exact ⟨s', done⟩
    · rintro ⟨s', ran⟩
      exact ⟨.proceed, _, change_eq_ok_iff.2 ⟨s', ran, rfl, rfl⟩⟩

def mixedActivation : Activation where
  frame := ⟨0, default, 0, 1, .empty 0, ⟨[.long 7, .int 2, .int 1], 4, 6⟩⟩
  world := .empty .working 0

theorem execute_rearranges_mixed :
    mixedActivation.frame.stack.WellFormed ∧
    ∃ a', (stack .dup2X2).execute .standard [] mixedActivation = .ok .proceed a' ∧
      StackOperator.dup2X2.rearrange (expand [.long 7, .int 2, .int 1]) =
        some (expand [.long 7, .int 2, .int 1, .long 7]) ∧
      a'.frame.stack.values = [.long 7, .int 2, .int 1, .long 7] := by
  have wellFormed : mixedActivation.frame.stack.WellFormed := ⟨rfl, by decide⟩
  obtain ⟨gives, -⟩ := execute_rearranges .standard [] .dup2X2 wellFormed
  obtain ⟨moved, -⟩ := gives .proceed _ rfl
  exact ⟨wellFormed, _, rfl, moved, rfl⟩

end Instruction

end JavaMachine
