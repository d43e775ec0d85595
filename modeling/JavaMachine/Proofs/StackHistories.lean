import JavaMachine.Proofs.ArgumentPassing
import JavaMachine.Proofs.SlotRearrangement
import Mathlib.Data.List.Induction

/-!
# Histories of operand stacks

An operand stack is a bounded stack of whole values, whatever is called on it in whatever order and
however much of that fails. What is on top is what was pushed last of all that has not been removed,
and every pop answers with that, in the width that it asks for. A push that does not fit and a pop
that finds nothing change nothing, and a pop that finds a value of the wrong kind removes that value
and no other.
-/
namespace JavaMachine

/-- What a pop asks of the value on top. -/
inductive Demand
  | any
  | oneSlot
  | reference
  | typed (t : FieldType)

namespace Demand

/-- The value is of the kind that is asked for. -/
def Accepts : Demand → Value → Prop
  | any, _ => True
  | oneSlot, v => v.category = 1
  | reference, v => ∃ r, v = .reference r
  | typed t, v => v.Represents t

def give : Demand → Value → Value
  | typed t, v => t.reduce v
  | _, v => v

def expected : Demand → String
  | any => "value"
  | oneSlot => "category 1 value"
  | typed (.primitive p) => p.stackKind
  | reference | typed _ => "reference"

end Demand

/-- A call on an operand stack. -/
inductive StackCall
  | push (v : Value)
  | pushScalar (s : Scalar)
  | pop
  | popCategory1
  | popInt
  | popFloat
  | popLong
  | popDouble
  | popReference
  | popScalar (p : Primitive)
  | popTyped (t : FieldType)
  | popArguments (parameters : List FieldType) (hasReceiver : Bool)
  | peek
  | clear

namespace StackCall

def perform : StackCall → OperandStack.Change (List Value)
  | push v => do
    OperandStack.push v
    return []
  | pushScalar s => do
    OperandStack.pushScalar s
    return []
  | pop => do return [← OperandStack.pop]
  | popCategory1 => do return [← OperandStack.popCategory1]
  | popInt => do return [.int (← OperandStack.popInt)]
  | popFloat => do return [.float (← OperandStack.popFloat)]
  | popLong => do return [.long (← OperandStack.popLong)]
  | popDouble => do return [.double (← OperandStack.popDouble)]
  | popReference => do return [.reference (← OperandStack.popReference)]
  | popScalar p => do return [(← OperandStack.popScalar p).widen]
  | popTyped t => do return [← OperandStack.popTyped t]
  | popArguments parameters hasReceiver => OperandStack.popArguments parameters hasReceiver
  | peek => do return [← ofExcept (← get).peek]
  | clear => do
    modify OperandStack.clear
    return []

/-- The value that the call is to push. -/
def pushed? : StackCall → Option Value
  | push v => some v
  | pushScalar s => some s.widen
  | _ => none

/-- What a call that pops asks of the values on top, one after the other. -/
def demands? : StackCall → Option (List Demand)
  | pop => some [.any]
  | popCategory1 => some [.oneSlot]
  | popInt => some [.typed (.primitive .int)]
  | popFloat => some [.typed (.primitive .float)]
  | popLong => some [.typed (.primitive .long)]
  | popDouble => some [.typed (.primitive .double)]
  | popReference => some [.reference]
  | popScalar p => some [.typed (.primitive p)]
  | popTyped t => some [.typed t]
  | popArguments parameters hasReceiver =>
    some (parameters.reverse.map .typed ++ if hasReceiver then [.reference] else [])
  | push _ | pushScalar _ | peek | clear => none

end StackCall

namespace OperandStack

variable {s s' : OperandStack} {v u : Value} {rest : List Value} {d : Demand} {ds : List Demand}
  {taken : List Value} {call : StackCall} {calls : List StackCall} {maxStack k i : Nat}

/-- The values on top are taken off one after the other and put before those already taken, as long
as there are any and each is of the kind that is asked for. One of the wrong kind is taken off too.
-/
inductive Collects : List Demand → List Value → OperandStack →
    EStateM.Result Error OperandStack (List Value) → Prop
  | done (taken : List Value) (s : OperandStack) : Collects [] taken s (.ok taken s)
  | nothing {d : Demand} {ds : List Demand} {taken : List Value} {s : OperandStack}
      (empty : s.values = []) : Collects (d :: ds) taken s (.error .operandStackUnderflow s)
  | mismatch {d : Demand} {ds : List Demand} {taken rest : List Value} {s : OperandStack}
      {v : Value} (top : s.values = v :: rest) (refuses : ¬ d.Accepts v) :
      Collects (d :: ds) taken s
        (.error (.typeMismatch d.expected (.value v)) (s.withValues rest))
  | next {d : Demand} {ds : List Demand} {taken rest : List Value} {s : OperandStack} {v : Value}
      {r : EStateM.Result Error OperandStack (List Value)} (top : s.values = v :: rest)
      (accepts : d.Accepts v) (h : Collects ds (d.give v :: taken) (s.withValues rest) r) :
      Collects (d :: ds) taken s r

/-- The stack after the calls, one after the other, whether or not they fail. -/
def callAll (s : OperandStack) (calls : List StackCall) : OperandStack :=
  calls.foldl (fun s call => endState (call.perform s)) s

/-- The number of values that are there before the call at a position. -/
def heightAt (s : OperandStack) (calls : List StackCall) (k : Nat) : Nat :=
  (s.callAll (calls.take k)).values.length

/-- The call at a position is to push the value, and succeeds. -/
def Pushes (s : OperandStack) (calls : List StackCall) (k : Nat) (v : Value) : Prop :=
  ∃ call s', calls[k]? = some call ∧ call.pushed? = some v ∧
    OperandStack.push v (s.callAll (calls.take k)) = .ok () s'

/-- Since the call at a position there have always been more values than before it, so what it has
pushed has not been removed. -/
def Remains (s : OperandStack) (calls : List StackCall) (k : Nat) : Prop :=
  ∀ j, k < j → j ≤ calls.length → s.heightAt calls k < s.heightAt calls j

/-- A call has pushed the value at the height, and it has not been removed since. -/
def Present (s : OperandStack) (calls : List StackCall) (i : Nat) (v : Value) : Prop :=
  ∃ k, s.Pushes calls k v ∧ s.heightAt calls k = i ∧ s.Remains calls k

/-! ### Pops -/

/-- The computation takes the value on top off and gives it in the width that is asked for. -/
structure Meets (d : Demand) (x : Change Value) : Prop where
  nothing : ∀ s : OperandStack, s.values = [] → x s = .error .operandStackUnderflow s
  accepted : ∀ (s : OperandStack) v rest, s.WellFormed → s.values = v :: rest → d.Accepts v →
    x s = .ok (d.give v) (s.withValues rest)
  refused : ∀ (s : OperandStack) v rest, s.WellFormed → s.values = v :: rest → ¬ d.Accepts v →
    x s = .error (.typeMismatch d.expected (.value v)) (s.withValues rest)

/-- A pop that reads what its demand accepts, and nothing else, meets it. -/
theorem meets_popAs {α : Type} (read? : Value → Option α) (write : α → Value)
    (accepts : ∀ v, d.Accepts v → (read? v).map write = some (d.give v))
    (refuses : ∀ v, ¬ d.Accepts v → read? v = none) :
    Meets d (do return write (← popAs d.expected read?)) := by
  refine ⟨fun s values => ?_, fun s v rest h values accepted => ?_,
    fun s v rest h values refused => ?_⟩
  · rw [bind_of_error (popAs_of_nil d.expected read? values)]
  · have popped := popAs_of_cons d.expected read? h values
    obtain ⟨a, read, given⟩ := Option.map_eq_some_iff.1 (accepts v accepted)
    rw [read] at popped
    rw [bind_of_ok popped, given]
    rfl
  · have popped := popAs_of_cons d.expected read? h values
    rw [refuses v refused] at popped
    rw [bind_of_error popped]

theorem ofValue?_of_not_represents {p : Primitive} (h : ¬ v.Represents (.primitive p)) :
    Scalar.ofValue? p v = none := by
  cases p <;> cases v <;> first | rfl | exact absurd (by constructor) h

theorem meets_pop : Meets .any pop where
  nothing _ := pop_of_nil
  accepted _ _ _ h values _ := h.pop_of_cons values
  refused _ _ _ _ _ refused := absurd trivial refused

theorem meets_popCategory1 : Meets .oneSlot popCategory1 := by
  have meets := meets_popAs (d := .oneSlot) (fun v => if v.category = 1 then some v else none) id
    (fun v one => by rw [if_pos (by exact one)]; rfl) (fun v other => if_neg other)
  simp only [id, bind_pure] at meets
  exact meets

theorem meets_popPrimitive {α : Type} (p : Primitive) (read? : Value → Option α)
    (write : α → Value)
    (reads : ∀ v, (read? v).map write = (Scalar.ofValue? p v).map Scalar.widen) :
    Meets (.typed (.primitive p)) (do return write (← popAs p.stackKind read?)) := by
  refine meets_popAs read? write (fun v accepts => ?_) fun v refused => ?_
  · obtain ⟨x, read, -, widened⟩ := Value.Represents.ofValue? accepts
    rw [reads, read, Option.map_some, widened]
    rfl
  · have unread := reads v
    rw [ofValue?_of_not_represents refused] at unread
    exact Option.map_eq_none_iff.1 unread

theorem meets_popScalar (p : Primitive) :
    Meets (.typed (.primitive p)) (do return (← popScalar p).widen) :=
  meets_popPrimitive p (Scalar.ofValue? p) Scalar.widen fun _ => rfl

theorem meets_popReference (expected : d.expected = "reference") (gives : ∀ v, d.give v = v)
    (accepts : ∀ v, d.Accepts v ↔ ∃ r, v = .reference r) :
    Meets d (do return .reference (← popReference)) := by
  have meets := meets_popAs (d := d) Value.reference? Value.reference ?_ ?_
  · rw [expected] at meets
    exact meets
  · intro v accepted
    obtain ⟨r, rfl⟩ := (accepts v).1 accepted
    rw [gives]
    rfl
  · intro v refused
    cases v with
    | reference r => exact absurd ((accepts _).2 ⟨r, rfl⟩) refused
    | _ => rfl

theorem meets_reference : Meets .reference (do return .reference (← popReference)) :=
  meets_popReference rfl (fun _ => rfl) fun _ => .rfl

theorem meets_popTyped (t : FieldType) : Meets (.typed t) (popTyped t) := by
  have references (t : FieldType) (none : ∀ p, t ≠ .primitive p) (v : Value) :
      v.Represents t ↔ ∃ r, v = .reference r := by
    constructor
    · rintro (_ | _)
      all_goals first | exact ⟨_, rfl⟩ | exact absurd rfl (none _)
    · rintro ⟨r, rfl⟩
      cases t with
      | primitive p => exact absurd rfl (none p)
      | object name => exact .object r name
      | array type => exact .array r type
  cases t with
  | primitive p => exact meets_popScalar p
  | object name => exact meets_popReference rfl (fun _ => rfl) (references _ nofun)
  | array type => exact meets_popReference rfl (fun _ => rfl) (references _ nofun)

/-- What comes after a pop collects the rest. -/
theorem Meets.collects {x : Change Value} (hx : Meets d x) (k : List Value → Change (List Value))
    (taken : List Value) (h : s.WellFormed)
    (next : ∀ s' taken, s'.WellFormed → Collects ds taken s' (k taken s')) :
    Collects (d :: ds) taken s ((x >>= fun v => k (v :: taken)) s) := by
  cases values : s.values with
  | nil =>
    rw [bind_of_error (hx.nothing s values)]
    exact .nothing values
  | cons v rest =>
    by_cases accepted : d.Accepts v
    · rw [bind_of_ok (hx.accepted s v rest h values accepted)]
      exact .next values accepted
        (next _ _ (h.beneath (show s.values = [v] ++ rest from values)))
    · rw [bind_of_error (hx.refused s v rest h values accepted)]
      exact .mismatch values accepted

theorem Meets.collects_one {x : Change Value} (hx : Meets d x) (h : s.WellFormed) :
    Collects [d] [] s ((do return [← x]) s) :=
  hx.collects pure [] h fun s' taken _ => .done taken s'

theorem collects_popPrimitive {α : Type} (p : Primitive) (read? : Value → Option α)
    (write : α → Value)
    (reads : ∀ v, (read? v).map write = (Scalar.ofValue? p v).map Scalar.widen)
    (h : s.WellFormed) :
    Collects [.typed (.primitive p)] [] s
      ((do return [write (← popAs p.stackKind read?)] : Change (List Value)) s) := by
  have collects := (meets_popPrimitive p read? write reads).collects_one h
  rwa [bind_assoc] at collects

theorem collects_popParameters {k : List Value → Change (List Value)}
    (next : ∀ s' taken, s'.WellFormed → Collects ds taken s' (k taken s'))
    (types : List FieldType) :
    ∀ {s : OperandStack} (taken : List Value), s.WellFormed →
      Collects (types.map .typed ++ ds) taken s ((popParameters types taken >>= k) s) := by
  induction types with
  | nil => exact fun taken h => next _ taken h
  | cons t rest ih =>
    intro s taken h
    unfold popParameters
    rw [bind_assoc]
    exact (meets_popTyped t).collects _ taken h fun s' taken h' => ih taken h'

theorem collects_popArguments (parameters : List FieldType) (hasReceiver : Bool)
    (h : s.WellFormed) :
    Collects (parameters.reverse.map .typed ++ if hasReceiver then [.reference] else []) [] s
      (popArguments parameters hasReceiver s) := by
  refine collects_popParameters (fun s' taken h' => ?_) parameters.reverse [] h
  cases hasReceiver with
  | false => exact .done taken s'
  | true =>
    have collects := meets_reference.collects pure taken h' fun s' taken _ => .done taken s'
    rwa [bind_assoc] at collects

/-- Every call that pops collects what it demands. -/
theorem collects_perform (h : s.WellFormed) (demands : call.demands? = some ds) :
    Collects ds [] s (call.perform s) := by
  cases call with
  | push | pushScalar | peek | clear => cases demands
  | popArguments parameters hasReceiver =>
    cases demands
    exact collects_popArguments parameters hasReceiver h
  | pop =>
    cases demands
    exact meets_pop.collects_one h
  | popCategory1 =>
    cases demands
    exact meets_popCategory1.collects_one h
  | popTyped t =>
    cases demands
    exact (meets_popTyped t).collects_one h
  | popScalar p =>
    cases demands
    exact collects_popPrimitive p (Scalar.ofValue? p) Scalar.widen (fun _ => rfl) h
  | popInt =>
    cases demands
    exact collects_popPrimitive .int Value.int? .int (fun v => by cases v <;> rfl) h
  | popFloat =>
    cases demands
    exact collects_popPrimitive .float Value.float? .float (fun v => by cases v <;> rfl) h
  | popLong =>
    cases demands
    exact collects_popPrimitive .long Value.long? .long (fun v => by cases v <;> rfl) h
  | popDouble =>
    cases demands
    exact collects_popPrimitive .double Value.double? .double (fun v => by cases v <;> rfl) h
  | popReference =>
    cases demands
    have collects := meets_reference.collects_one h
    rwa [bind_assoc] at collects

theorem Collects.of_nil {r : EStateM.Result Error OperandStack (List Value)}
    (h : Collects [d] taken s r) (values : s.values = []) :
    r = .error .operandStackUnderflow s := by
  cases h with
  | nothing => rfl
  | mismatch top | next top =>
    rw [values] at top
    cases top

theorem Collects.of_underflow
    (h : Collects [d] taken s (.error .operandStackUnderflow s')) : s.values = [] ∧ s' = s := by
  cases h with
  | nothing empty => exact ⟨empty, rfl⟩
  | next _ _ h => cases h

theorem Collects.of_cons {r : EStateM.Result Error OperandStack (List Value)}
    (h : Collects [d] [] s r) (values : s.values = v :: rest) :
    (d.Accepts v → r = .ok [d.give v] (s.withValues rest)) ∧
      (¬ d.Accepts v →
        r = .error (.typeMismatch d.expected (.value v)) (s.withValues rest)) := by
  cases h with
  | nothing empty =>
    rw [values] at empty
    cases empty
  | mismatch top refuses =>
    cases values.symm.trans top
    exact ⟨fun accepts => absurd accepts refuses, fun _ => rfl⟩
  | next top accepts h =>
    cases values.symm.trans top
    cases h
    exact ⟨fun _ => rfl, fun refuses => absurd accepts refuses⟩

/-- What is left is what lies beneath some of the values. -/
theorem Collects.left {r : EStateM.Result Error OperandStack (List Value)}
    (h : Collects ds taken s r) (wellFormed : s.WellFormed) :
    ∃ left, endState r = s.withValues left ∧ left <:+ s.values := by
  induction h with
  | done | nothing => exact ⟨_, wellFormed.withValues_self.symm, List.suffix_refl _⟩
  | mismatch top => exact ⟨_, rfl, top ▸ List.suffix_cons _ _⟩
  | @next d ds taken rest s v r top _ _ ih =>
    obtain ⟨left, same, beneath⟩ :=
      ih (wellFormed.beneath (show s.values = [v] ++ rest from top))
    exact ⟨left, same, top ▸ beneath.trans (List.suffix_cons v rest)⟩

/-! ### Calls -/

theorem perform_of_pushed (pushed : call.pushed? = some v) :
    call.perform = do
      push v
      return [] := by
  cases call <;> cases pushed <;> rfl

theorem perform_push (h : s.WellFormed) (pushed : call.pushed? = some v) : call.perform s =
    if s.size + v.category ≤ s.maxStack then .ok [] (s.withValues (v :: s.values))
    else .error (.operandStackOverflow s.maxStack) s := by
  rw [perform_of_pushed pushed]
  split
  · rename_i fits
    rw [h.size_eq, Nat.add_comm] at fits
    rw [bind_of_ok ((push_eq_ok_iff h).2 ⟨fits, rfl⟩)]
    rfl
  · rename_i high
    have refused : push v s = .error (.operandStackOverflow s.maxStack) s :=
      if_pos (Nat.not_le.1 high)
    rw [bind_of_error refused]

theorem perform_peek (s : OperandStack) :
    StackCall.peek.perform s = match s.values with
      | [] => .error .operandStackUnderflow s
      | v :: _ => .ok [v] s := by
  change ((ofExcept s.peek : Change Value) >>= fun v => pure [v]) s = _
  unfold OperandStack.peek
  cases s.values <;> rfl

/-- A call pushes its value, or leaves what lies beneath some of the values. -/
theorem step_cases (h : s.WellFormed) (call : StackCall) :
    (∃ v, call.pushed? = some v ∧ push v s = .ok () (endState (call.perform s))) ∨
      (∀ v s', call.pushed? = some v → push v s ≠ .ok () s') ∧
        ∃ left, endState (call.perform s) = s.withValues left ∧ left <:+ s.values := by
  cases pushed : call.pushed? with
  | some v =>
    rw [perform_of_pushed pushed]
    cases fits : push v s with
    | ok _ s' =>
      rw [bind_of_ok fits]
      exact .inl ⟨v, rfl, fits⟩
    | error e s' =>
      rw [bind_of_error fits]
      cases push_eq_error fits
      refine .inr ⟨?_, _, h.withValues_self.symm, List.suffix_refl _⟩
      rintro u s' ⟨⟩ fits'
      cases fits.symm.trans fits'
  | none =>
    refine .inr ⟨nofun, ?_⟩
    cases demands : call.demands? with
    | some ds => exact (collects_perform h demands).left h
    | none =>
      cases call with
      | peek =>
        refine ⟨_, ?_, List.suffix_refl _⟩
        rw [perform_peek, h.withValues_self]
        cases s.values <;> rfl
      | clear => exact ⟨[], rfl, List.nil_suffix⟩
      | push | pushScalar => cases pushed
      | _ => cases demands

theorem WellFormed.perform (h : s.WellFormed) (call : StackCall) :
    (endState (call.perform s)).WellFormed ∧ (endState (call.perform s)).maxStack = s.maxStack := by
  rcases step_cases h call with ⟨v, -, pushed⟩ | ⟨-, left, same, beneath⟩
  · exact ⟨h.push pushed, maxStack_push pushed⟩
  · obtain ⟨upper, values⟩ := beneath
    rw [same]
    exact ⟨h.beneath values.symm, rfl⟩

/-! ### Histories -/

theorem callAll_append (s : OperandStack) (calls : List StackCall) (call : StackCall) :
    s.callAll (calls ++ [call]) = endState (call.perform (s.callAll calls)) := by
  simp [callAll]

theorem wellFormed_callAll (h : s.WellFormed) (calls : List StackCall) :
    (s.callAll calls).WellFormed ∧ (s.callAll calls).maxStack = s.maxStack := by
  induction calls using List.reverseRecOn with
  | nil => exact ⟨h, rfl⟩
  | append_singleton calls call ih =>
    rw [callAll_append]
    obtain ⟨wellFormed, limit⟩ := ih
    obtain ⟨wellFormed', limit'⟩ := wellFormed.perform call
    exact ⟨wellFormed', limit'.trans limit⟩

theorem lt_of_pushes (h : s.Pushes calls k v) : k < calls.length := by
  obtain ⟨_, _, here, -⟩ := h
  exact (List.getElem?_eq_some_iff.1 here).1

theorem heightAt_append (earlier : k ≤ calls.length) :
    s.heightAt (calls ++ [call]) k = s.heightAt calls k := by
  unfold heightAt
  rw [List.take_append_of_le_length earlier]

theorem heightAt_length (calls : List StackCall) :
    s.heightAt calls calls.length = (s.callAll calls).values.length := by
  unfold heightAt
  rw [List.take_length]

theorem pushes_append_of_lt (earlier : k < calls.length) :
    s.Pushes (calls ++ [call]) k v ↔ s.Pushes calls k v := by
  unfold Pushes
  rw [List.getElem?_append_left earlier, List.take_append_of_le_length (Nat.le_of_lt earlier)]

theorem pushes_append_length : s.Pushes (calls ++ [call]) calls.length v ↔
    ∃ s', call.pushed? = some v ∧ push v (s.callAll calls) = .ok () s' := by
  unfold Pushes
  rw [List.getElem?_concat_length, List.take_left]
  constructor
  · rintro ⟨_, s', ⟨⟩, pushed⟩
    exact ⟨s', pushed⟩
  · rintro ⟨s', pushed⟩
    exact ⟨call, s', rfl, pushed⟩

/-- What an earlier call has pushed remains if it is not uncovered by the last call. -/
theorem remains_append_iff (earlier : k < calls.length) : s.Remains (calls ++ [call]) k ↔
    s.Remains calls k ∧ s.heightAt calls k < (s.callAll (calls ++ [call])).values.length := by
  unfold Remains
  rw [heightAt_append (Nat.le_of_lt earlier), ← heightAt_length (calls ++ [call]),
    List.length_append, List.length_singleton]
  constructor
  · intro remains
    refine ⟨fun j later within => ?_, remains _ (Nat.lt_succ_of_lt earlier) (Nat.le_refl _)⟩
    have higher := remains j later (Nat.le_succ_of_le within)
    rwa [heightAt_append within] at higher
  · rintro ⟨remains, higher⟩ j later within
    rcases Nat.le_or_eq_of_le_succ within with before | rfl
    · rw [heightAt_append before]
      exact remains j later before
    · exact higher

theorem length_of_push (h : push v s = .ok () s') : s'.values.length = s.values.length + 1 := by
  rw [push_eq_ok h]
  rfl

theorem remains_append_length (pushed : call.pushed? = some v)
    (fits : push v (s.callAll calls) = .ok () s') :
    s.Remains (calls ++ [call]) calls.length := by
  intro j later within
  rw [List.length_append, List.length_singleton] at within
  have last : j = (calls ++ [call]).length := by
    rw [List.length_append, List.length_singleton]
    exact Nat.le_antisymm within later
  have after : s.callAll (calls ++ [call]) = s' := by
    rw [callAll_append, perform_of_pushed pushed, bind_of_ok fits]
    rfl
  rw [last, heightAt_append (Nat.le_refl _), heightAt_length, heightAt_length, after,
    length_of_push fits]
  exact Nat.lt_succ_self _

/-- After one more call, what was present is so as far as it is not uncovered, and what the call
has pushed is present at the height that the stack had. -/
theorem present_append_iff : s.Present (calls ++ [call]) i v ↔
    s.Present calls i v ∧ i < (s.callAll (calls ++ [call])).values.length ∨
      (∃ s', call.pushed? = some v ∧ push v (s.callAll calls) = .ok () s') ∧
        i = (s.callAll calls).values.length := by
  constructor
  · rintro ⟨k, pushes, rfl, remains⟩
    have range := lt_of_pushes pushes
    rw [List.length_append, List.length_singleton] at range
    rcases Nat.lt_succ_iff_lt_or_eq.1 range with earlier | rfl
    · obtain ⟨remains, higher⟩ := (remains_append_iff earlier).1 remains
      rw [heightAt_append (Nat.le_of_lt earlier)]
      exact .inl ⟨⟨k, (pushes_append_of_lt earlier).1 pushes, rfl, remains⟩, higher⟩
    · rw [heightAt_append (Nat.le_refl _), heightAt_length]
      exact .inr ⟨pushes_append_length.1 pushes, rfl⟩
  · rintro (⟨⟨k, pushes, rfl, remains⟩, higher⟩ | ⟨⟨s', pushed, fits⟩, rfl⟩)
    · have earlier := lt_of_pushes pushes
      exact ⟨k, (pushes_append_of_lt earlier).2 pushes, heightAt_append (Nat.le_of_lt earlier),
        (remains_append_iff earlier).2 ⟨remains, higher⟩⟩
    · refine ⟨calls.length, pushes_append_length.2 ⟨s', pushed, fits⟩, ?_,
        remains_append_length pushed fits⟩
      rw [heightAt_append (Nat.le_refl _), heightAt_length]

theorem getElem?_reverse_cons (values : List Value) :
    (u :: values).reverse[i]? = some v ↔
      values.reverse[i]? = some v ∨ u = v ∧ i = values.length := by
  rw [List.reverse_cons, List.getElem?_append, List.length_reverse]
  split
  case isTrue inside =>
    exact (or_iff_left fun last => Nat.ne_of_lt inside last.2).symm
  case isFalse outside =>
    have none : values.reverse[i]? = none :=
      List.getElem?_eq_none (Nat.le_trans (Nat.le_of_eq List.length_reverse) (Nat.not_lt.1 outside))
    rw [none, List.getElem?_singleton]
    split <;> simp <;> omega

theorem getElem?_reverse_of_suffix {left values : List Value} (beneath : left <:+ values) :
    left.reverse[i]? = some v ↔ values.reverse[i]? = some v ∧ i < left.length := by
  rw [List.prefix_iff_eq_take.1 (List.reverse_prefix.2 beneath), List.length_reverse,
    List.getElem?_take]
  split <;> simp [*]

/-- The values that are there, counted from the bottom, are those that are present at their
heights. -/
theorem values_iff (maxStack : Nat) (calls : List StackCall) :
    ∀ i v, ((empty maxStack).callAll calls).values.reverse[i]? = some v ↔
      (empty maxStack).Present calls i v := by
  -- what remains is settled by all later calls, so it is the last call that is taken apart
  induction calls using List.reverseRecOn with
  | nil =>
    intro i v
    refine iff_of_false (by rintro ⟨⟩) ?_
    rintro ⟨k, pushes, -⟩
    exact Nat.not_lt_zero k (lt_of_pushes pushes)
  | append_singleton calls call ih =>
    intro i v
    have wellFormed := (wellFormed_callAll (wellFormed_empty maxStack) calls).1
    rw [present_append_iff, ← ih, callAll_append]
    rcases step_cases wellFormed call with ⟨u, pushed, fits⟩ | ⟨refused, left, same, beneath⟩
    · rw [push_eq_ok fits, getElem?_reverse_cons]
      constructor
      · rintro (here | ⟨rfl, rfl⟩)
        · have inside := (List.getElem?_eq_some_iff.1 here).1
          rw [List.length_reverse] at inside
          exact .inl ⟨here, Nat.lt_succ_of_lt inside⟩
        · exact .inr ⟨⟨_, pushed, fits⟩, rfl⟩
      · rintro (⟨here, -⟩ | ⟨⟨s', pushed', -⟩, rfl⟩)
        · exact .inl here
        · cases pushed.symm.trans pushed'
          exact .inr ⟨rfl, rfl⟩
    · rw [same, values_withValues, getElem?_reverse_of_suffix beneath]
      refine (or_iff_left ?_).symm
      rintro ⟨⟨s', pushed, fits⟩, -⟩
      exact refused v s' pushed fits

theorem pushes_unique (h : s.Pushes calls k v) (h' : s.Pushes calls k u) : v = u := by
  obtain ⟨call, _, here, pushed, -⟩ := h
  obtain ⟨call', _, here', pushed', -⟩ := h'
  cases here.symm.trans here'
  cases pushed.symm.trans pushed'
  rfl

theorem Remains.lt_length (h : s.Remains calls k) (pushes : s.Pushes calls k v) :
    s.heightAt calls k < (s.callAll calls).values.length := by
  have higher := h calls.length (lt_of_pushes pushes) (Nat.le_refl _)
  rwa [heightAt_length] at higher

theorem top_of_cons (values : s.values = v :: rest) :
    s.values.reverse[rest.length]? = some v := by
  rw [values]
  exact (getElem?_reverse_cons rest).2 (.inr ⟨rfl, rfl⟩)

/-- What is on top is what was pushed last of all that remains. -/
theorem top_iff (maxStack : Nat) (calls : List StackCall) :
    (∃ rest, ((empty maxStack).callAll calls).values = v :: rest) ↔
      ∃ k, (empty maxStack).Pushes calls k v ∧ (empty maxStack).Remains calls k ∧
        ∀ j u, k < j → (empty maxStack).Pushes calls j u → ¬ (empty maxStack).Remains calls j := by
  constructor
  · rintro ⟨rest, values⟩
    obtain ⟨k, pushes, height, remains⟩ := (values_iff maxStack calls _ v).1 (top_of_cons values)
    refine ⟨k, pushes, remains, fun j u later pushes' remains' => ?_⟩
    have above := remains j later (Nat.le_of_lt (lt_of_pushes pushes'))
    have below := remains'.lt_length pushes'
    rw [values, List.length_cons] at below
    omega
  · rintro ⟨k, pushes, remains, last⟩
    have below := remains.lt_length pushes
    cases values : ((empty maxStack).callAll calls).values with
    | nil =>
      rw [values] at below
      exact absurd below (Nat.not_lt_zero _)
    | cons u rest =>
      obtain ⟨k', pushes', height', remains'⟩ :=
        (values_iff maxStack calls _ u).1 (top_of_cons values)
      rw [values, List.length_cons] at below
      rcases Nat.lt_trichotomy k k' with later | rfl | earlier
      · exact absurd remains' (last k' u later pushes')
      · cases pushes_unique pushes pushes'
        exact ⟨rest, rfl⟩
      · have above := remains' k earlier (Nat.le_of_lt (lt_of_pushes pushes))
        omega

/-- An operand stack is a bounded stack of whole values. After any calls, failed ones included, its
height is that of the values that are there and within the limit, and on top is what was pushed last
of all that has not been removed. From there on, a push fails exactly if there is no room for all
slots of the value, and then changes nothing; a single pop fails for want of a value exactly if
there is none, and then changes nothing, takes a value of the wrong kind off before it reports it,
and answers with the value on top otherwise, in the width that it asks for. The arguments of a call
are popped one after the other in this way, from the last one back to the receiver. -/
theorem bounded_lifo (maxStack : Nat) (calls : List StackCall) {s : OperandStack}
    (after : s = (empty maxStack).callAll calls) :
    (s.size = slots s.values ∧ s.size ≤ maxStack ∧ s.maxStack = maxStack) ∧
    (∀ v, (∃ rest, s.values = v :: rest) ↔
      ∃ k, (empty maxStack).Pushes calls k v ∧ (empty maxStack).Remains calls k ∧
        ∀ j u, k < j → (empty maxStack).Pushes calls j u →
          ¬ (empty maxStack).Remains calls j) ∧
    (∀ (call : StackCall) (v : Value), call.pushed? = some v → call.perform s =
      if s.size + v.category ≤ maxStack then .ok [] (s.withValues (v :: s.values))
      else .error (.operandStackOverflow maxStack) s) ∧
    (∀ (call : StackCall) (d : Demand), call.demands? = some [d] →
      (∀ s', call.perform s = .error .operandStackUnderflow s' ↔ s.values = [] ∧ s' = s) ∧
      ∀ v rest, s.values = v :: rest →
        (d.Accepts v → call.perform s = .ok [d.give v] (s.withValues rest)) ∧
        (¬ d.Accepts v → call.perform s =
          .error (.typeMismatch d.expected (.value v)) (s.withValues rest))) ∧
    (∀ (call : StackCall) (ds : List Demand), call.demands? = some ds →
      Collects ds [] s (call.perform s)) ∧
    (StackCall.peek.perform s = match s.values with
      | [] => .error .operandStackUnderflow s
      | v :: _ => .ok [v] s) ∧
    StackCall.clear.perform s = .ok [] (s.withValues []) := by
  obtain ⟨wellFormed, limit⟩ := wellFormed_callAll (wellFormed_empty maxStack) calls
  rw [← after] at wellFormed limit
  change s.maxStack = maxStack at limit
  have height := wellFormed.size_le
  rw [limit] at height
  refine ⟨⟨wellFormed.size_eq, height, limit⟩, fun v => ?_, fun call v pushed => ?_,
    fun call d demands => ?_, fun call ds => collects_perform wellFormed, perform_peek s, rfl⟩
  · rw [after]
    exact top_iff maxStack calls
  · rw [← limit]
    exact perform_push wellFormed pushed
  · have collects := collects_perform wellFormed demands
    refine ⟨fun s' => ⟨fun failed => ?_, ?_⟩, fun v rest => collects.of_cons⟩
    · rw [failed] at collects
      exact collects.of_underflow
    · rintro ⟨nothing, rfl⟩
      exact collects.of_nil nothing

def crowding : List StackCall :=
  [.push (.int 511), .push (.long 7), .popLong, .push (.long 7), .popInt, .popInt,
    .pushScalar (.short (-2)), .push (.int 511)]

/-- The first `int` is removed by the pop for a `long`, and the `long` by the one for an `int`. Of
the two values that are left, the one on top was pushed last, and its low eight bits are all ones.
-/
theorem bounded_lifo_crowding :
    let s := (empty 2).callAll crowding
    s.size = 2 ∧ s.values = [.int 511, .int (-2)] ∧
      (∃ k, (empty 2).Pushes crowding k (.int 511) ∧ (empty 2).Remains crowding k) ∧
      (StackCall.popScalar .byte).perform s = .ok [.int (-1)] (s.withValues [.int (-2)]) ∧
      StackCall.popDouble.perform s =
        .error (.typeMismatch "double" (.value (.int 511))) (s.withValues [.int (-2)]) ∧
      (StackCall.push (.long 7)).perform s = .error (.operandStackOverflow 2) s := by
  intro s
  obtain ⟨-, top, pushes, pops, -⟩ := bounded_lifo 2 crowding (s := s) rfl
  have byte : Demand.give (.typed (.primitive .byte)) (.int 511) = .int (-1) := by decide
  have refused : ¬ Demand.Accepts (.typed (.primitive .double)) (.int 511) := by rintro ⟨⟩
  obtain ⟨k, pushed, remains, -⟩ := (top (.int 511)).1 ⟨_, rfl⟩
  refine ⟨rfl, rfl, ⟨k, pushed, remains⟩, ?_, ?_, ?_⟩
  · rw [← byte]
    exact ((pops _ _ rfl).2 _ _ rfl).1 (.byte 511)
  · exact ((pops _ _ rfl).2 _ _ rfl).2 refused
  · exact (pushes _ _ rfl).trans (if_neg (by decide))

end OperandStack

end JavaMachine
