import JavaMachine.Native.Intrinsics
import JavaMachine.Proofs.StringHistories

/-!
# Interned strings

The string that is kept for the text of a receiver is the receiver's repaired: it spells the same
units with the replacement for each surrogate that stands in no pair. So it spells the receiver's
units exactly if these are well-formed, and two receivers get the same string exactly if their units
are repaired alike. Different units with lone surrogates may be.
-/
namespace JavaMachine

namespace StringHistory

variable {w w₁ w' : World} {given later : List GivenString}

theorem trans (h : StringHistory w given w₁) (h' : StringHistory w₁ later w') :
    StringHistory w (later ++ given) w' := by
  induction h' with
  | start => exact h
  | made h' text ih =>
    rw [List.append_assoc]
    exact ih.made text
  | interned h' text ih =>
    rw [List.append_assoc]
    exact ih.interned text
  | pushed h' constant natives callers ih =>
    rw [List.append_assoc]
    exact ih.pushed constant natives callers
  | between h' spares ih => exact ih.between spares

end StringHistory

namespace Intrinsics

open World Utf16

variable {w w₁ w₂ w' : World} {r s : Reference} {us vs : List UInt16} {v : Option NativeValue}
  {given later : List GivenString}

theorem intern_eq (receiver : w.Spells r us) : intern [.reference r] w =
    (internString (textOf us) >>= fun s => pure (some (.reference s))) w := by
  have text : w.stringText? r = some (textOf us) := stringText?_eq_some_iff.2 ⟨us, receiver, rfl⟩
  have there : r ≠ .null := by
    rintro rfl
    exact nomatch receiver.isSome
  have given : Intrinsics.read [.reference r] 0 NativeValue.asReference w = .ok r w := rfl
  unfold intern
  rw [bind_of_ok given]
  simp only [if_neg there]
  rw [get_bind, text]

theorem intern_eq_ok_iff (receiver : w.Spells r us) : intern [.reference r] w = .ok v w' ↔
    ∃ s, internString (textOf us) w = .ok s w' ∧ v = some (.reference s) := by
  rw [intern_eq receiver, bind_eq_ok]
  constructor
  · rintro ⟨s, w₁, given, ⟨⟩⟩
    exact ⟨s, given, rfl⟩
  · rintro ⟨s, given, rfl⟩
    exact ⟨s, w', given, rfl⟩

/-- In the course of any history of strings, a receiver is answered as long as a string is kept for
its text or the class of strings has a field for the characters. The answer spells the receiver's
units repaired, which are the receiver's exactly if these are well-formed. Whatever happens to
strings afterwards, another receiver is answered by the same string exactly if its units are
repaired alike; well-formed units are repaired alike only if they are the same. -/
theorem intern_separates_iff {console : Console} {clock : Nat}
    (h : StringHistory (World.start console clock) given w) (receiver : w.Spells r us) :
    ((∃ v w', intern [.reference r] w = .ok v w') ↔
      (∃ s, w.strings.get? (textOf us) = some s) ∨ w.HoldsTexts) ∧
    ∀ v w', intern [.reference r] w = .ok v w' → ∃ s, v = some (.reference s) ∧
      w'.Spells s (repair us) ∧ (w'.Spells s us ↔ WellFormed us) ∧
      ∀ later w₁ q vs u w₂, StringHistory w' later w₁ → w₁.Spells q vs →
        intern [.reference q] w₁ = .ok (some (.reference u)) w₂ →
        (s = u ↔ repair us = repair vs) ∧ (WellFormed us → WellFormed vs → (s = u ↔ us = vs)) := by
  obtain ⟨keeps, -⟩ := h.records (keepsTexts_start console clock)
  constructor
  · rw [← keeps.internString_succeeds_iff]
    simp only [intern_eq_ok_iff receiver]
    constructor
    · rintro ⟨v, w', s, given, -⟩
      exact ⟨s, w', given⟩
    · rintro ⟨s, w', given⟩
      exact ⟨_, w', s, given, rfl⟩
  · intro v w' answered
    obtain ⟨s, given, rfl⟩ := (intern_eq_ok_iff receiver).1 answered
    obtain ⟨-, keeps', found⟩ := keeps.internString (textOf us)
    have kept := found s w' given
    rw [given, endState_ok] at keeps'
    have spelt := keeps'.strings _ s kept
    rw [encode_textOf] at spelt
    refine ⟨s, rfl, spelt, ?_, ?_⟩
    · rw [← repair_eq_self_iff]
      constructor
      · exact spelt.unique
      · exact fun same => same ▸ spelt
    · intro later w₁ q vs u w₂ history receiver' answered'
      have asked := h.interned (textOf us)
      rw [given] at asked
      obtain ⟨keeps₁, recorded⟩ := (asked.trans history).records (keepsTexts_start console clock)
      obtain ⟨-, first⟩ := recorded ⟨textOf us, true, s⟩ (by simp [GivenString.ofResult])
      obtain ⟨t, given', ⟨⟩⟩ := (intern_eq_ok_iff receiver').1 answered'
      obtain ⟨retains, keeps₂, found'⟩ := keeps₁.internString (textOf vs)
      rw [given', endState_ok] at retains keeps₂
      have kept₁ := retains.strings _ s (first rfl)
      have kept₂ := found' u w₂ given'
      have same : s = u ↔ repair us = repair vs := by
        rw [← textOf_eq_iff]
        constructor
        · rintro rfl
          have spelt₁ := keeps₂.strings _ s kept₁
          have spelt₂ := keeps₂.strings _ s kept₂
          exact String.toList_injective (encode_injective (spelt₁.unique spelt₂))
        · intro texts
          rw [texts, kept₂] at kept₁
          exact (Option.some.inj kept₁).symm
      refine ⟨same, fun wellFormed wellFormed' => ?_⟩
      rw [same, repair_eq_self_iff.2 wellFormed, repair_eq_self_iff.2 wellFormed']

/-! ### Two strings -/

/-- What an operation gives, if it does not fail. -/
def answer? {α : Type} : EStateM.Result Error World α → Option α
  | .ok v _ => some v
  | .error _ _ => none

theorem eq_ok_of_answer? {α : Type} {x : EStateM.Result Error World α} {v : α}
    (h : answer? x = some v) : x = .ok v (endState x) := by
  cases x with
  | ok v' w => cases h; rfl
  | error e w => cases h

def madeFirst (units : List UInt16) : EStateM.Result Error World Reference :=
  newStringOfUnits units (World.start .working 0)

def madeSecond (first second : List UInt16) : EStateM.Result Error World Reference :=
  newStringOfUnits second (endState (madeFirst first))

def holding (first second : List UInt16) : World := endState (madeSecond first second)

theorem history_holding (first second : List UInt16) :
    StringHistory (World.start .working 0) [] (holding first second) :=
  .between (.between .start (keeps_newStringOfUnits toleratesAllocation_sparesStrings first _))
    (keeps_newStringOfUnits toleratesAllocation_sparesStrings second _)

theorem spells_holding {first second : List UInt16} (one : answer? (madeFirst first) = some r)
    (two : answer? (madeSecond first second) = some s) :
    (holding first second).Spells r first ∧ (holding first second).Spells s second := by
  have titled := (keepsTexts_start .working 0).titled
  obtain ⟨spares, -, spelt⟩ := newStringOfUnits_eq_ok titled (eq_ok_of_answer? one)
  obtain ⟨spares', -, spelt'⟩ :=
    newStringOfUnits_eq_ok (spares.titled titled) (eq_ok_of_answer? two)
  exact ⟨spares'.spells r first spelt, spelt'⟩

def smileUnits : List UInt16 := [0xE9, 0xD83D, 0xDE00]

set_option maxRecDepth 100000 in
theorem intern_separates_pair : ∃ s w, intern [.reference (.entity 3)] (holding smileUnits []) =
    .ok (some (.reference s)) w ∧ w.Spells s smileUnits := by
  have one : answer? (madeFirst smileUnits) = some (.entity 3) := by decide +kernel
  have two : answer? (madeSecond smileUnits []) = some (.entity 5) := by decide +kernel
  have spelt := (spells_holding one two).1
  obtain ⟨-, units⟩ := intern_separates_iff (history_holding smileUnits []) spelt
  have answered := eq_ok_of_answer? (x := intern [.reference (.entity 3)] (holding smileUnits []))
    (v := some (.reference (.entity 7))) (by decide +kernel)
  obtain ⟨s, named, -, same, -⟩ := units _ _ answered
  rw [named] at answered
  refine ⟨s, _, answered, same.2 ?_⟩
  exact .cons (by decide) (.pair (by decide) (by decide) .nil)

def loneWorld : World := holding [0xD800] [0xDC00]

def highAnswer : EStateM.Result Error World (Option NativeValue) :=
  intern [.reference (.entity 3)] loneWorld

def lowAnswer : EStateM.Result Error World (Option NativeValue) :=
  intern [.reference (.entity 5)] (endState highAnswer)

set_option maxRecDepth 100000 in
/-- Both are answered by the string of the replacement character, so a receiver is answered by other
units, and receivers of different units by one string. -/
theorem intern_merges_surrogates :
    (¬ ∀ (given : List GivenString) (w w₁ : World) (r s : Reference) (us : List UInt16),
      StringHistory (World.start .working 0) given w → w.Spells r us →
      intern [.reference r] w = .ok (some (.reference s)) w₁ → w₁.Spells s us) ∧
    ¬ ∀ (given : List GivenString) (w w₁ w₂ : World) (r q s u : Reference) (us vs : List UInt16),
      StringHistory (World.start .working 0) given w → w.Spells r us → w.Spells q vs →
      intern [.reference r] w = .ok (some (.reference s)) w₁ →
      intern [.reference q] w₁ = .ok (some (.reference u)) w₂ → (s = u ↔ us = vs) := by
  have history : StringHistory (World.start .working 0) [] loneWorld := history_holding _ _
  obtain ⟨high, low⟩ : loneWorld.Spells (.entity 3) [0xD800] ∧
      loneWorld.Spells (.entity 5) [0xDC00] :=
    spells_holding (by decide +kernel) (by decide +kernel)
  have first : highAnswer = .ok (some (.reference (.entity 7))) (endState highAnswer) :=
    eq_ok_of_answer? (by decide +kernel)
  have second : lowAnswer = .ok (some (.reference (.entity 7))) (endState lowAnswer) :=
    eq_ok_of_answer? (by decide +kernel)
  constructor
  · intro preserves
    have same := preserves _ _ _ _ _ _ history high first
    obtain ⟨keeps, -⟩ := history.records (keepsTexts_start .working 0)
    obtain ⟨s, given, ⟨⟩⟩ := (intern_eq_ok_iff high).1 first
    obtain ⟨-, keeps', found⟩ := keeps.internString (textOf [0xD800])
    rw [given, endState_ok] at keeps'
    have spelt := keeps'.strings _ _ (found _ _ given)
    rw [encode_textOf] at spelt
    exact absurd (spelt.unique same) (by decide)
  · intro separates
    have apart := separates _ _ _ _ _ _ _ _ _ _ history high low first second
    exact absurd (apart.1 rfl) (by decide)

end Intrinsics

end JavaMachine
