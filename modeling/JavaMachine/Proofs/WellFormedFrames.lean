import JavaMachine.Machine.Exception
import JavaMachine.Proofs.Actions

/-!
# Well-formed frames

A frame runs a method with a body, and its stack and its local variables have the sizes that the
body asks for. In the variables a `long` or `double` is always followed by the empty slot that
belongs to it. Calls put only such frames together, and whatever an instruction does to its frame,
the frame stays one of them.
-/
namespace JavaMachine

/-! ### Local variables -/

namespace LocalVariables

variable {l l' : LocalVariables} {index : Nat} {v : Value}

/-- Every value of two slots is followed by an empty slot. -/
def WellFormed (l : LocalVariables) : Prop :=
  ∀ index v, l.slots[index]? = some (some v) → v.category = 2 → l.slots[index + 1]? = some none

theorem holdsWide_iff :
    l.holdsWide index = true ↔ ∃ v, l.slots[index]? = some (some v) ∧ v.category = 2 := by
  unfold holdsWide
  split
  · rename_i v found
    simp [found]
  · rename_i other
    simp only [Bool.false_eq_true, false_iff]
    rintro ⟨v, found, -⟩
    exact other v found

theorem getElem?_emptied (slots : Array (Option Value)) (p : Prop) [Decidable p] (k j : Nat) :
    (if p then slots.setIfInBounds k none else slots)[j]? =
      if p ∧ j = k ∧ j < slots.size then some none else slots[j]? := by
  by_cases held : p
  · rw [if_pos held, Array.getElem?_setIfInBounds]
    by_cases same : j = k
    · subst same
      by_cases range : j < slots.size <;> simp [held, range]
    · simp [same, Ne.symm same]
  · simp [held]

/-- A write fills its slot and empties the other half of each pair that it reaches. -/
theorem getElem?_write (l : LocalVariables) (index : Nat) (v : Value) {j : Nat}
    (range : j < l.size) :
    (l.write index v).slots[j]? =
      if j = index then some (some v)
      else if (j + 1 = index ∧ l.holdsWide j = true) ∨ (j = index + 1 ∧ v.category = 2) then
        some none
      else l.slots[j]? := by
  unfold size at range
  unfold write
  rw [Array.getElem?_setIfInBounds]
  by_cases same : j = index
  · subst same
    simp [range, apply_ite Array.size]
  · rw [if_neg (Ne.symm same), if_neg same]
    simp only [getElem?_emptied, apply_ite Array.size, Array.size_setIfInBounds, ite_self]
    by_cases before : j + 1 = index
    · subst before
      have apart : j ≠ j + 1 + 1 := by omega
      simp [range, apart]
    · have apart : ¬(0 < index ∧ j = index - 1) := by omega
      by_cases next : j = index + 1 <;> grind

theorem wellFormed_empty (maxLocals : Nat) : (empty maxLocals).WellFormed := by
  intro index v found
  simp [empty, Array.getElem?_replicate] at found

/-- A write that fits leaves no half of a pair behind. -/
theorem WellFormed.set (h : l.WellFormed) (hs : l.set index v = .ok l') : l'.WellFormed := by
  obtain ⟨fits, rfl⟩ := set_eq_ok_iff.1 hs
  intro j u found two
  have bound : j < l.size := by
    have := (Array.getElem?_eq_some_iff.1 found).1
    rwa [← size, size_write] at this
  rw [getElem?_write l index v bound] at found
  split at found
  · rename_i same
    cases found
    subst same
    rw [getElem?_write l j v (by omega), if_neg (by omega), if_pos (.inr ⟨rfl, two⟩)]
  · split at found
    · cases found
    · rename_i kept
      have next := h j u found two
      have wide : l.holdsWide j = true := holdsWide_iff.2 ⟨u, found, two⟩
      have apart : j + 1 ≠ index := fun same => kept (.inl ⟨same, wide⟩)
      rw [getElem?_write l index v (Array.getElem?_eq_some_iff.1 next).1, if_neg apart, next,
        ite_self]

theorem WellFormed.setAll {values : List Value} (h : l.WellFormed)
    (hs : l.setAll index values = .ok l') : l'.WellFormed ∧ l'.size = l.size := by
  induction values generalizing l index with
  | nil =>
    cases hs
    exact ⟨h, rfl⟩
  | cons v rest ih =>
    unfold LocalVariables.setAll at hs
    cases first : l.set index v with
    | error e =>
      rw [first] at hs
      cases hs
    | ok l₁ =>
      rw [first] at hs
      obtain ⟨wellFormed, size⟩ := ih (h.set first) hs
      exact ⟨wellFormed, size.trans (size_set first)⟩

end LocalVariables

/-! ### Frames -/

namespace Frame

variable {f f' : Frame} {body : MethodBody}

/-- The frame runs a method with the body, and has the sizes that the body asks for. -/
structure Fits (f : Frame) (body : MethodBody) : Prop where
  runs : f.method.body = some body
  maxStack : f.stack.maxStack = body.maxStack.toNat
  stack : f.stack.WellFormed
  size : f.locals.size = body.maxLocals.toNat
  locals : f.locals.WellFormed

def WellFormed (f : Frame) : Prop := ∃ body, f.Fits body

def StaysWellFormed (f f' : Frame) : Prop := f.WellFormed → f'.WellFormed

instance : IsPreorder Frame StaysWellFormed where
  refl _ := id
  trans _ _ _ h h' := h' ∘ h

theorem Fits.withStack (h : f.Fits body) {stack : OperandStack} (wellFormed : stack.WellFormed)
    (maxStack : stack.maxStack = f.stack.maxStack) : Fits { f with stack := stack } body :=
  ⟨h.runs, maxStack.trans h.maxStack, wellFormed, h.size, h.locals⟩

theorem tolerated_staysWellFormed : Tolerated StaysWellFormed where
  push _ _ _ pushed := fun ⟨body, h⟩ =>
    ⟨body, h.withStack (h.stack.push pushed) (OperandStack.maxStack_push pushed)⟩
  pop _ _ _ popped := fun ⟨body, h⟩ =>
    ⟨body, h.withStack (h.stack.pop popped) (OperandStack.maxStack_pop popped)⟩
  locals _ _ _ _ set := fun ⟨body, h⟩ =>
    ⟨body, h.runs, h.maxStack, h.stack, (LocalVariables.size_set set).trans h.size,
      h.locals.set set⟩
  nextPc _ _ := fun ⟨body, h⟩ => ⟨body, h.runs, h.maxStack, h.stack, h.size, h.locals⟩

theorem wellFormed_of_ofArguments {t : ClassTable} {c : ClassId} {m : Method}
    {arguments : List Value} (h : ofArguments t c m arguments = .ok f) : f.WellFormed := by
  obtain ⟨locals, body, laid, runs, rfl⟩ := ofArguments_eq_ok h
  obtain ⟨wellFormed, size⟩ := (LocalVariables.wellFormed_empty _).setAll laid
  have limit : m.maxLocals = body.maxLocals.toNat := by simp [Method.maxLocals, runs]
  rw [LocalVariables.size_empty] at size
  exact ⟨body, runs, rfl, OperandStack.wellFormed_empty _, size.trans limit, wellFormed⟩

theorem Started.wellFormed (h : f.Started) : f.WellFormed := by
  obtain ⟨t, arguments, made⟩ := h
  exact wellFormed_of_ofArguments made

theorem WellFormed.advance (h : f.WellFormed) : f.advance.WellFormed := by
  obtain ⟨body, h⟩ := h
  exact ⟨body, h.runs, h.maxStack, h.stack, h.size, h.locals⟩

theorem WellFormed.push (h : f.WellFormed) (v : Value) :
    WellFormed { f with stack := endState (OperandStack.push v f.stack) } := by
  obtain ⟨body, h⟩ := h
  have evolves := OperandStack.evolves_push v f.stack
  exact ⟨body, h.withStack (h.stack.evolves evolves) evolves.maxStack⟩

theorem WellFormed.handle (h : f.WellFormed) (exception : Reference) (pc : Nat) :
    (endState (f.handle exception pc)).WellFormed := by
  obtain ⟨body, h⟩ := h
  have cleared : Fits { f with stack := f.stack.clear } body :=
    h.withStack OperandStack.WellFormed.clear rfl
  have evolves := OperandStack.evolves_push (.reference exception) f.stack.clear
  have pushed := cleared.withStack (cleared.stack.evolves evolves) evolves.maxStack
  unfold Frame.handle
  split
  · rename_i stack hp
    rw [hp] at pushed
    exact ⟨body, pushed.runs, pushed.maxStack, pushed.stack, pushed.size, pushed.locals⟩
  · rename_i hp
    rw [hp] at pushed
    exact ⟨body, pushed⟩

end Frame

end JavaMachine
