import JavaMachine.Proofs.Effects

/-!
# Computations made of steps

Most computations do a number of small things one after the other, each chosen from what those
before it gave, and stop at the first that fails. What each of the small things keeps is kept by
the whole. Where the last of them is the only one of its kind, as a write is that comes after all
checks, a failure finds none of that kind done.
-/
namespace JavaMachine

/-- Computations, each from the states in which it may be begun. -/
abbrev Steps (ε σ : Type) := (α : Type) → EStateM ε σ α → σ → Prop

variable {ε σ α β : Type} {E E' L L' : Steps ε σ}

/-- The computation, begun in the state, is made of the steps. -/
inductive Composed (E : Steps ε σ) : {α : Type} → EStateM ε σ α → σ → Prop
  | step {α : Type} {x : EStateM ε σ α} {s : σ} (h : E α x s) : Composed E x s
  | pure {α : Type} (a : α) (s : σ) : Composed E (Pure.pure a) s
  | throw {α : Type} (e : ε) (s : σ) : Composed E (MonadExcept.throw e : EStateM ε σ α) s
  | bind {α β : Type} {x : EStateM ε σ α} {f : α → EStateM ε σ β} {s : σ} (hx : Composed E x s)
      (hf : ∀ a s', x s = .ok a s' → Composed E (f a) s') : Composed E (x >>= f) s

/-- The computation, begun in the state, is made of steps, with at most one of the second kind,
after which nothing can fail. -/
inductive Concluded (E L : Steps ε σ) : {α : Type} → EStateM ε σ α → σ → Prop
  | composed {α : Type} {x : EStateM ε σ α} {s : σ} (h : Composed E x s) : Concluded E L x s
  | last {α : Type} {x : EStateM ε σ α} {s : σ} (h : L α x s) : Concluded E L x s
  | bind {α β : Type} {x : EStateM ε σ α} {f : α → EStateM ε σ β} {s : σ} (hx : Composed E x s)
      (hf : ∀ a s', x s = .ok a s' → Concluded E L (f a) s') : Concluded E L (x >>= f) s
  | map {α β : Type} {x : EStateM ε σ α} {s : σ} (h : Concluded E L x s) (g : α → β) :
      Concluded E L (x >>= fun a => Pure.pure (g a)) s

namespace Composed

variable {x : EStateM ε σ α} {s : σ}

theorem ofExcept (x : Except ε α) (s : σ) :
    Composed E (MonadExcept.ofExcept x : EStateM ε σ α) s := by
  cases x with
  | ok a => exact .pure a s
  | error e => exact .throw e s

theorem ite {p : Prop} [Decidable p] {x y : EStateM ε σ α} (hx : Composed E x s)
    (hy : Composed E y s) : Composed E (if p then x else y) s := by
  split
  · exact hx
  · exact hy

theorem relates {R : σ → σ → Prop} [IsPreorder σ R]
    (hE : ∀ (α : Type) (x : EStateM ε σ α) s, E α x s → R s (endState (x s)))
    (h : Composed E x s) : R s (endState (x s)) := by
  induction h with
  | step h => exact hE _ _ _ h
  | pure a s => exact refl_of R s
  | throw e s => exact refl_of R s
  | bind _ _ ihx ihf => exact Keeps.bind_of_ok ihx fun a s' ended => ihf a s' ended

theorem preserves {P : σ → Prop}
    (hE : ∀ (α : Type) (x : EStateM ε σ α) s, E α x s → P s → P (endState (x s)))
    (h : Composed E x s) : P s → P (endState (x s)) :=
  h.relates (R := fun s s' => P s → P s') hE

/-- Steps of one kind are made of steps of another kind where the property holds that they
preserve. -/
theorem refine {P : σ → Prop}
    (hE : ∀ (α : Type) (x : EStateM ε σ α) s, E α x s → P s → Composed E' x s)
    (preserved : ∀ (α : Type) (x : EStateM ε σ α) s, E α x s → P s → P (endState (x s)))
    (h : Composed E x s) (hs : P s) : Composed E' x s := by
  induction h with
  | step h => exact hE _ _ _ h hs
  | pure a s => exact .pure a s
  | throw e s => exact .throw e s
  | @bind _ _ x _ s hx _ ihx ihf =>
    refine .bind (ihx hs) fun a s' ended => ihf a s' ended ?_
    have kept := hx.preserves preserved hs
    rwa [ended] at kept

theorem mono (hE : ∀ (α : Type) (x : EStateM ε σ α) s, E α x s → E' α x s) (h : Composed E x s) :
    Composed E' x s :=
  h.refine (P := fun _ => True) (fun α x s h _ => .step (hE α x s h)) (fun _ _ _ _ _ => trivial)
    trivial

end Composed

namespace Concluded

variable {x : EStateM ε σ α} {s : σ}

theorem ite {p : Prop} [Decidable p] {x y : EStateM ε σ α} (hx : Concluded E L x s)
    (hy : Concluded E L y s) : Concluded E L (if p then x else y) s := by
  split
  · exact hx
  · exact hy

theorem endState_map (x : EStateM ε σ α) (g : α → β) (s : σ) :
    endState ((x >>= fun a => Pure.pure (g a)) s) = endState (x s) := by
  change endState (EStateM.bind x _ s) = _
  unfold EStateM.bind
  cases x s <;> rfl

theorem relates {R : σ → σ → Prop} [IsPreorder σ R]
    (hE : ∀ (α : Type) (x : EStateM ε σ α) s, E α x s → R s (endState (x s)))
    (hL : ∀ (α : Type) (x : EStateM ε σ α) s, L α x s → R s (endState (x s)))
    (h : Concluded E L x s) : R s (endState (x s)) := by
  induction h with
  | composed h => exact h.relates hE
  | last h => exact hL _ _ _ h
  | bind hx _ ihf => exact Keeps.bind_of_ok (hx.relates hE) fun a s' ended => ihf a s' ended
  | map _ g ih => rwa [endState_map]

theorem preserves {P : σ → Prop}
    (hE : ∀ (α : Type) (x : EStateM ε σ α) s, E α x s → P s → P (endState (x s)))
    (hL : ∀ (α : Type) (x : EStateM ε σ α) s, L α x s → P s → P (endState (x s)))
    (h : Concluded E L x s) : P s → P (endState (x s)) :=
  h.relates (R := fun s s' => P s → P s') hE hL

/-- A computation that fails has done none of the last kind, or one that failed. -/
theorem relates_of_error {R : σ → σ → Prop} [IsPreorder σ R]
    (hE : ∀ (α : Type) (x : EStateM ε σ α) s, E α x s → R s (endState (x s)))
    (hL : ∀ (α : Type) (x : EStateM ε σ α) s e s', L α x s → x s = .error e s' → R s s')
    (h : Concluded E L x s) {e : ε} {s' : σ} (failed : x s = .error e s') : R s s' := by
  induction h with
  | composed h =>
    have kept := h.relates hE
    rwa [failed] at kept
  | last h => exact hL _ _ _ _ _ h failed
  | bind hx _ ihf =>
    have kept := hx.relates hE
    rcases bind_eq_error.1 failed with first | ⟨a, s₁, passed, second⟩
    · rwa [first] at kept
    · rw [passed] at kept
      exact trans_of R kept (ihf a s₁ passed second)
  | map _ g ih =>
    rcases bind_eq_error.1 failed with first | ⟨a, s₁, -, ⟨⟩⟩
    exact ih first

theorem toComposed (h : Concluded E L x s) (hE : ∀ α (x : EStateM ε σ α) s, E α x s → E' α x s)
    (hL : ∀ α (x : EStateM ε σ α) s, L α x s → E' α x s) : Composed E' x s := by
  have steps {α : Type} {x : EStateM ε σ α} {s : σ} (h : Composed E x s) : Composed E' x s :=
    h.mono hE
  induction h with
  | composed h => exact steps h
  | last h => exact .step (hL _ _ _ h)
  | bind hx _ ihf => exact .bind (steps hx) ihf
  | map _ g ih => exact .bind ih fun a s' _ => .pure (g a) s'

end Concluded

end JavaMachine
