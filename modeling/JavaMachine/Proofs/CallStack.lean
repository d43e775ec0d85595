import JavaMachine.Machine.Run
import JavaMachine.Proofs.Actions

/-!
# Changes of the call stack

An instruction touches its own frame only. What the machine then does to carry out its request, or
to handle its failure, is one of three things: it gives up frames from the top and goes on in the
next one, it puts one frame on top, or it gives up all frames above the base. The frames that
remain below are the same, whatever happens. Steps and the search for a handler are the first of
these; the next module has the others.
-/
namespace JavaMachine

structure Frame.SameMethod (f f' : Frame) : Prop where
  owner : f'.owner = f.owner
  method : f'.method = f.method

theorem Frame.SamePlace.sameMethod {f f' : Frame} (h : f.SamePlace f') : f.SameMethod f' :=
  ⟨h.owner, h.method⟩

instance : IsPreorder Frame Frame.SameMethod where
  refl _ := ⟨rfl, rfl⟩
  trans _ _ _ h h' := ⟨h'.1.trans h.1, h'.2.trans h.2⟩

/-- Frames are given up from the top of the call stack by a machine that runs above `base`
frames. -/
inductive Retreat (base : Nat) : List Frame → List Frame → Prop
  /-- The frames above `k` are given up, and `k` goes on. -/
  | resume (dropped : List Frame) {below : List Frame} {k k' : Frame} (same : k.SameMethod k')
      (above : base ≤ below.length) : Retreat base (dropped ++ k :: below) (k' :: below)
  /-- The frames above the base are given up. -/
  | clear (dropped : List Frame) {rest : List Frame} (bottom : rest.length = base) :
      Retreat base (dropped ++ rest) rest

/-- A change of the call stack in one cycle. -/
inductive Shift (base : Nat) : List Frame → List Frame → Prop
  | retreat {old new : List Frame} (h : Retreat base old new) : Shift base old new
  /-- A frame is put on top of the executing one. -/
  | push {f f' callee : Frame} {callers : List Frame} (same : f.SameMethod f')
      (above : base ≤ callers.length) : Shift base (f :: callers) (callee :: f' :: callers)

theorem eq_of_suffix_of_length_eq {α : Type} {l₁ l₂ l : List α} (h₁ : l₁ <:+ l) (h₂ : l₂ <:+ l)
    (length : l₁.length = l₂.length) : l₁ = l₂ :=
  (List.suffix_of_suffix_length_le h₁ h₂ (Nat.le_of_eq length)).eq_of_length length

namespace Retreat

variable {base : Nat} {old mid new lower : List Frame} {f f' : Frame} {callers : List Frame}

theorem replace (same : f.SameMethod f') (above : base ≤ callers.length) :
    Retreat base (f :: callers) (f' :: callers) :=
  resume [] same above

theorem trans (h : Retreat base old mid) (h' : Retreat base mid new) : Retreat base old new := by
  cases h with
  | @resume dropped below k k' same above =>
    generalize hmid : k' :: below = mid at h'
    cases h' with
    | resume dropped' same' above' =>
      cases dropped' with
      | nil =>
        cases hmid
        exact resume dropped (trans_of _ same same') above
      | cons x dropped' =>
        cases hmid
        have h := resume (dropped ++ k :: dropped') same' above'
        rwa [List.append_assoc] at h
    | clear dropped' bottom =>
      cases dropped' with
      | nil =>
        cases hmid
        simp only [List.length_cons] at bottom
        omega
      | cons x dropped' =>
        cases hmid
        have h := clear (dropped ++ k :: dropped') bottom
        rwa [List.append_assoc] at h
  | @clear dropped rest bottom =>
    cases h' with
    | resume dropped' same' above' =>
      simp only [List.length_append, List.length_cons] at bottom
      omega
    | clear dropped' bottom' =>
      rw [← List.append_assoc]
      exact clear (dropped ++ dropped') bottom'

theorem cons (h : Retreat base old new) : Retreat base (f :: old) new := by
  cases h with
  | resume dropped same above => exact resume (f :: dropped) same above
  | clear dropped bottom => exact clear (f :: dropped) bottom

theorem length_le (h : Retreat base old new) : new.length ≤ old.length := by
  cases h with
  | resume dropped same above => simp
  | clear dropped bottom => simp

theorem suffix_of_le (h : Retreat base old new) (hl : lower <:+ old)
    (hle : lower.length ≤ base) : lower <:+ new := by
  cases h with
  | @resume dropped below k k' same above =>
    have hb : below <:+ dropped ++ k :: below := ⟨dropped ++ [k], by simp⟩
    exact (List.suffix_of_suffix_length_le hl hb (by omega)).trans (List.suffix_cons k' below)
  | clear dropped bottom =>
    exact List.suffix_of_suffix_length_le hl ⟨dropped, rfl⟩ (by omega)

end Retreat

namespace Shift

variable {base : Nat} {old mid new lower : List Frame}

theorem base_le (h : Shift base old new) : base ≤ new.length := by
  cases h with
  | retreat h =>
    cases h with
    | resume dropped same above => exact Nat.le_succ_of_le above
    | clear dropped bottom => exact Nat.le_of_eq bottom.symm
  | push same above => exact Nat.le_succ_of_le (Nat.le_succ_of_le above)

theorem suffix_of_le (h : Shift base old new) (hl : lower <:+ old) (hle : lower.length ≤ base) :
    lower <:+ new := by
  cases h with
  | retreat h => exact h.suffix_of_le hl hle
  | @push f f' callee callers same above =>
    have hb := List.suffix_of_suffix_length_le hl (List.suffix_cons f callers) (by omega)
    exact hb.trans ⟨[callee, f'], rfl⟩

theorem after (h : Retreat base old mid) (level : mid.length = old.length)
    (h' : Shift base mid new) : Shift base old new := by
  cases h' with
  | retreat h' => exact .retreat (h.trans h')
  | @push f f' callee callers same above =>
    generalize hmid : f :: callers = mid at h level
    cases h with
    | @resume dropped below k k' same' above' =>
      have none : dropped = [] := by
        apply List.eq_nil_of_length_eq_zero
        simp only [List.length_append, List.length_cons] at level
        omega
      subst none
      cases hmid
      exact .push (trans_of _ same' same) above
    | clear dropped bottom =>
      have none : dropped = [] := by
        apply List.eq_nil_of_length_eq_zero
        simp only [List.length_append] at level
        omega
      subst none
      cases hmid
      exact .push same above

/-- As long as the call stack is higher than some frames, these stay what they are, and the frame
just above them runs the same method. -/
theorem kept {top : List Frame} {g : Frame} (h : Shift base (top ++ g :: lower) new)
    (higher : lower.length < new.length) :
    ∃ top' g', new = top' ++ g' :: lower ∧ g.SameMethod g' := by
  have hg : g :: lower <:+ top ++ g :: lower := List.suffix_append top _
  generalize top ++ g :: lower = old at h hg
  rcases h with @⟨_, _, @⟨dropped, below, k, k', same, above⟩ | @⟨dropped, _, bottom⟩⟩ |
    @⟨f, f', callee, callers, same, above⟩
  · rcases Nat.lt_or_ge lower.length below.length with deeper | level
    · have hb : below <:+ dropped ++ k :: below := ⟨dropped ++ [k], by simp⟩
      obtain ⟨rest, rfl⟩ := List.suffix_of_suffix_length_le hg hb deeper
      exact ⟨k' :: rest, g, rfl, refl_of _ g⟩
    · have hk : k :: below <:+ dropped ++ k :: below := List.suffix_append dropped _
      have length : (g :: lower).length = (k :: below).length := by
        simp only [List.length_cons] at higher ⊢
        omega
      obtain ⟨rfl, rfl⟩ := List.cons_eq_cons.1 (eq_of_suffix_of_length_eq hg hk length)
      exact ⟨[], k', rfl, same⟩
  · obtain ⟨rest, rfl⟩ := List.suffix_of_suffix_length_le hg ⟨dropped, rfl⟩ higher
    exact ⟨rest, g, rfl, refl_of _ g⟩
  · rcases List.suffix_cons_iff.1 hg with level | ⟨rest, rfl⟩
    · obtain ⟨rfl, rfl⟩ := List.cons_eq_cons.1 level
      exact ⟨[callee], f', rfl, same⟩
    · exact ⟨callee :: f' :: rest, g, rfl, refl_of _ g⟩

end Shift

namespace World

variable {R : World → World → Prop} [IsPreorder World R]

section Searching

variable (hR : ToleratesLoading R)
include hR

theorem keeps_loadClass? (name : ClassName) : Keeps R (loadClass? name) := by
  intro w
  have h := keeps_loadClass hR name w
  unfold loadClass?
  split <;> rename_i hw <;> rw [hw] at h <;> exact h

theorem keeps_catches (owner c : ClassId) (h : Handler) : Keeps R (catches owner c h) := by
  unfold catches
  refine .ite (.pure _) (.bind .get fun w => .bind (.ofExcept _) fun name => ?_)
  refine .bind (keeps_loadClass? hR name) fun found => ?_
  split
  · exact .bind .get fun w => .pure _
  · exact .pure _

theorem keeps_handlerPc? (owner c : ClassId) (pc : Nat) (handlers : List Handler) :
    Keeps R (handlerPc? owner c pc handlers) := by
  induction handlers with
  | nil => exact .pure none
  | cons h rest ih =>
    unfold handlerPc?
    refine .ite ?_ ih
    refine .bind (keeps_catches hR owner c h) fun caught => ?_
    exact .ite (.pure _) ih

end Searching

theorem keeps_exceptionFor (hR : ToleratesAllocation R) (e : Error) :
    Keeps R (exceptionFor e) := by
  unfold exceptionFor
  refine .reading_at fun w => ?_
  split
  · rintro w rfl
    exact refl_of R w
  · rename_i c known
    obtain ⟨name, -, found⟩ := Option.bind_eq_some_iff.1 known
    dsimp only
    split
    · rintro w rfl
      have plain := Fields.isPlain_initial (w.classes.instanceFields c)
      exact Keeps.bind_from (hR.object w (.scalar name) c _ found plain) fun r => .pure _
    · rename_i message _
      rintro w rfl
      refine Keeps.bind_of_ok (keeps_newString hR message w) fun text w₁ made => ?_
      have same := keeps_newString toleratesAllocation_sameScalars message w
      rw [made] at same
      have plain := (Fields.isPlain_initial (w.classes.instanceFields c)).insert
        (Value.isPlain_reference text) detailField
      refine Keeps.bind_from ?_ fun r => .pure _
      exact hR.object w₁ (.scalar name) c _ ((same name).trans found) plain

end World

namespace Machine

variable {base : Nat} {m m' m₁ : Machine} {f : Frame} {callers : List Frame}

theorem depth_eq (hm : m.frames = f :: callers) : m.depth = callers.length + 1 :=
  congrArg List.length hm

theorem exists_executing (above : base < m.depth) :
    ∃ f callers, m.frames = f :: callers ∧ base ≤ callers.length := by
  obtain ⟨f, callers, hm⟩ := List.exists_cons_of_length_pos (Nat.zero_lt_of_lt above)
  rw [depth_eq hm] at above
  exact ⟨f, callers, hm, Nat.le_of_lt_succ above⟩

def withTop (m : Machine) (callers : List Frame) (a : Activation) : Machine :=
  { m with world := a.world, frames := a.frame :: callers }

def stepResult (m : Machine) (callers : List Frame) :
    EStateM.Result Error Activation Action → EStateM.Result Error Machine Action
  | .ok action a => .ok action (m.withTop callers a)
  | .error e a => .error e (m.withTop callers a)

theorem step_eq (hm : m.frames = f :: callers) :
    (∃ e, Activation.fetch ⟨f, m.world⟩ = .error e ∧ step m = (none, .error e m)) ∨
      ∃ opcode i a, Activation.fetch ⟨f, m.world⟩ = .ok (opcode, i, a) ∧
        step m = (some opcode, m.stepResult callers (i.execute m.natives callers a)) := by
  obtain ⟨world, frames, natives, maxCallDepth⟩ := m
  cases hm
  unfold step
  dsimp only
  cases hf : Activation.fetch ⟨f, world⟩ with
  | error e => exact .inl ⟨e, rfl, rfl⟩
  | ok fetched =>
    obtain ⟨opcode, i, a⟩ := fetched
    refine .inr ⟨opcode, i, a, rfl, ?_⟩
    dsimp only
    cases i.execute natives callers a with
    | ok action a' => rfl
    | error e a' => rfl

theorem fetch_eq_ok {a a' : Activation} {opcode : UInt8} {i : Instruction}
    (h : a.fetch = .ok (opcode, i, a')) :
    ∃ cursor, Instruction.fetch ⟨a.frame.code, a.frame.pc⟩ = .ok (opcode, i) cursor ∧
      a' = ⟨{ a.frame with nextPc := cursor.position }, a.world⟩ := by
  unfold Activation.fetch at h
  split at h
  · rename_i cursor fetched
    cases h
    exact ⟨cursor, fetched, rfl⟩
  · cases h

/-- A step that succeeds has executed the decoded instruction, and what that asks for is accounted
for. -/
theorem step_eq_ok {opcode : Option UInt8} {action : Action} (hm : m.frames = f :: callers)
    (h : step m = (opcode, .ok action m₁)) :
    ∃ byte i cursor a, opcode = some byte ∧
      Instruction.fetch ⟨f.code, f.pc⟩ = .ok (byte, i) cursor ∧
      i.execute m.natives callers ⟨{ f with nextPc := cursor.position }, m.world⟩ = .ok action a ∧
      m₁ = m.withTop callers a := by
  rcases step_eq hm with ⟨e, -, hs⟩ | ⟨byte, i, a, hf, hs⟩
  · rw [hs] at h
    cases h
  · obtain ⟨cursor, fetched, rfl⟩ := fetch_eq_ok hf
    rw [hs] at h
    cases hx : i.execute m.natives callers ⟨{ f with nextPc := cursor.position }, m.world⟩ with
    | ok action' a =>
      rw [hx] at h
      cases h
      exact ⟨byte, i, cursor, a, rfl, fetched, hx, rfl⟩
    | error e a =>
      rw [hx] at h
      cases h

/-- A step changes the executing frame and the world along the relations, and leaves the callers
alone. -/
theorem step_keeps {Q : Frame → Frame → Prop} [IsPreorder Frame Q] {R : World → World → Prop}
    [IsPreorder World R] (hQ : Frame.Tolerated Q) (hR : World.Tolerated R)
    (hn : m.natives.Respects R) (hm : m.frames = f :: callers) :
    ∃ f' w, endState (step m).2 = { m with world := w, frames := f' :: callers } ∧ Q f f' ∧
      R m.world w := by
  rcases step_eq hm with ⟨e, -, h⟩ | ⟨opcode, i, a, hf, h⟩
  · rw [h]
    refine ⟨f, m.world, ?_, refl_of Q f, refl_of R _⟩
    rw [← hm]
    rfl
  · rw [h]
    obtain ⟨cursor, -, rfl⟩ := fetch_eq_ok hf
    have kept := i.keeps_execute hQ hR hn callers
      ⟨{ f with nextPc := cursor.position }, m.world⟩
    have fetched := hQ.nextPc f cursor.position
    cases hx : i.execute m.natives callers ⟨{ f with nextPc := cursor.position }, m.world⟩ with
    | ok action a =>
      rw [hx] at kept
      exact ⟨a.frame, a.world, rfl, trans_of Q fetched kept.frame, kept.world⟩
    | error e a =>
      rw [hx] at kept
      exact ⟨a.frame, a.world, rfl, trans_of Q fetched kept.frame, kept.world⟩

/-! ### Handing exceptions to handlers -/

/-- The machine after frames were given up, in a world that went along the relation. -/
structure Retreats (base : Nat) (R : World → World → Prop) (m m' : Machine) : Prop where
  frames : Retreat base m.frames m'.frames
  world : R m.world m'.world
  natives : m'.natives = m.natives
  maxCallDepth : m'.maxCallDepth = m.maxCallDepth

def Settled (base : Nat) : EStateM.Result Error Machine Bool → Prop
  | .ok false m => m.depth = base
  | .ok true m | .error _ m => base < m.depth

section Handlers

variable {R : World → World → Prop} [IsPreorder World R]

theorem Retreats.trans {m m₁ m' : Machine} (h : m.Retreats base R m₁)
    (h' : m₁.Retreats base R m') : m.Retreats base R m' :=
  ⟨h.frames.trans h'.frames, trans_of R h.world h'.world, h'.natives.trans h.natives,
    h'.maxCallDepth.trans h.maxCallDepth⟩

theorem sameMethod_handle (f : Frame) (exception : Reference) (pc : Nat) :
    f.SameMethod (endState (f.handle exception pc)) := by
  unfold Frame.handle
  split <;> exact ⟨rfl, rfl⟩

variable (hR : World.ToleratesLoading R)
include hR

/-- The search for a handler gives up frames, and all those above the base if it finds none. -/
theorem seek_retreats (exception : Reference) (c : ClassId) (m : Machine) (frames : List Frame) :
    ∀ world, base ≤ frames.length →
      Retreats base R { m with world := world, frames := frames }
          (endState (seekHandler.seek base exception c m world frames)) ∧
        Settled base (seekHandler.seek base exception c m world frames) := by
  induction frames with
  | nil =>
    intro world hle
    have hb : base = 0 := Nat.le_zero.1 hle
    subst hb
    exact ⟨⟨.clear [] rfl, refl_of R _, rfl, rfl⟩, rfl⟩
  | cons f below ih =>
    intro world hle
    unfold seekHandler.seek
    split
    · rename_i hlt
      have bottom : (f :: below).length = base := Nat.le_antisymm hlt hle
      exact ⟨⟨.clear [] bottom, refl_of R _, rfl, rfl⟩, bottom⟩
    · rename_i hge
      have above : base ≤ below.length := Nat.not_lt.1 hge
      have kept := World.keeps_handlerPc? hR f.owner c f.pc f.method.handlers world
      cases hp : World.handlerPc? f.owner c f.pc f.method.handlers world with
      | error e w =>
        rw [hp] at kept
        exact ⟨⟨.replace (refl_of _ f) above, kept, rfl, rfl⟩, Nat.lt_succ_of_le above⟩
      | ok found w =>
        rw [hp] at kept
        cases found with
        | none =>
          obtain ⟨h, settled⟩ := ih w above
          exact ⟨⟨h.frames.cons, trans_of R kept h.world, h.natives, h.maxCallDepth⟩, settled⟩
        | some pc =>
          have same := sameMethod_handle f exception pc
          dsimp only
          cases hh : f.handle exception pc with
          | ok _ k =>
            rw [hh] at same
            exact ⟨⟨.replace same above, kept, rfl, rfl⟩, Nat.lt_succ_of_le above⟩
          | error e k =>
            rw [hh] at same
            exact ⟨⟨.replace same above, kept, rfl, rfl⟩, Nat.lt_succ_of_le above⟩

theorem seekHandler_retreats (exception : Reference) (c : ClassId) (hle : base ≤ m.depth) :
    Retreats base R m (endState (seekHandler base exception c m)) ∧
      Settled base (seekHandler base exception c m) :=
  seek_retreats hR exception c m m.frames m.world hle

omit hR in
theorem hasContext_inContext {opcode : Option UInt8} {locations : List Location} {e : Error}
    (h : locations ≠ []) : (e.inContext opcode locations).hasContext = true := by
  cases locations with
  | nil => exact absurd rfl h
  | cons l callers => rfl

omit hR in
theorem locations_ne_nil (h : base < m.depth) : m.locations ≠ [] := by
  unfold locations
  intro none
  rw [List.map_eq_nil_iff] at none
  simp [depth, none] at h

omit hR in
theorem unwind_eq (exception : Reference) (m : Machine) :
    unwind base exception m =
      match m.world.classOf? exception with
      | none => .error .nullPointer m
      | some c =>
        match seekHandler base exception c m with
        | .ok true m' => .ok () m'
        | .ok false m' => .error ((m'.world.uncaught exception c).inContext none m.locations) m'
        | .error e m' => .error e m' := by
  unfold unwind
  rw [get_bind]
  cases m.world.classOf? exception with
  | none => rfl
  | some c =>
    change EStateM.bind (seekHandler base exception c) _ m = _
    unfold EStateM.bind
    dsimp only
    cases seekHandler base exception c m with
    | ok caught m' => cases caught <;> rfl
    | error e m' => rfl

/-- The ways to hand over an exception: to a handler above the base, out of the run with all frames
above the base given up, or not at all. -/
theorem unwind_cases (exception : Reference) (h : base < m.depth) :
    Retreats base R m (endState (unwind base exception m)) ∧
      match unwind base exception m with
      | .ok _ m' => base < m'.depth
      | .error e m' => (e.hasContext = true ∧ m'.depth = base) ∨
          (m.world.classOf? exception = none ∧ e = .nullPointer ∧ m' = m) ∨
          ∃ c, m.world.classOf? exception = some c ∧ base < m'.depth ∧
            seekHandler base exception c m = .error e m' := by
  rw [unwind_eq]
  cases hc : m.world.classOf? exception with
  | none =>
    refine ⟨⟨?_, refl_of R _, rfl, rfl⟩, .inr (.inl ⟨rfl, rfl, rfl⟩)⟩
    obtain ⟨f, callers, hm, hb⟩ := exists_executing h
    change Retreat base m.frames m.frames
    rw [hm]
    exact .replace (refl_of _ f) hb
  | some c =>
    obtain ⟨retreats, settled⟩ := seekHandler_retreats (m := m) hR exception c (Nat.le_of_lt h)
    dsimp only
    cases hs : seekHandler base exception c m with
    | error e m' =>
      rw [hs] at retreats settled
      exact ⟨retreats, .inr (.inr ⟨c, rfl, settled, hs⟩)⟩
    | ok caught m' =>
      rw [hs] at retreats settled
      cases caught with
      | true => exact ⟨retreats, settled⟩
      | false =>
        exact ⟨retreats, .inl ⟨hasContext_inContext (locations_ne_nil h), settled⟩⟩

end Handlers

end Machine

end JavaMachine
