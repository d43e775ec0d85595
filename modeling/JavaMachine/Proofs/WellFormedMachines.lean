import JavaMachine.Proofs.FrameInvariants

/-!
# Well-formed machines

A machine is well formed if its call stack is within the limit and all of its frames are well
formed. Every part of a machine preserves this, whether or not it fails: instructions on code of
any kind, calls and returns, handlers and initializers, native methods. So it holds in every
machine that is reached from an empty call stack, whatever happens to the world meanwhile.
-/
namespace JavaMachine

/-- A call stack is within a limit if the height of each of its frames is below it. -/
def Frame.FitsAt (limit height : Nat) (f : Frame) : Prop := height < limit ∧ f.WellFormed

theorem Frame.lasting_fitsAt (limit : Nat) : Frame.Lasting limit (Frame.FitsAt limit) where
  begins started _ room := ⟨room, started.wellFormed⟩
  advance h := ⟨h.1, h.2.advance⟩
  push h _ := ⟨h.1, h.2.push _⟩
  handle h exception _ := ⟨h.1, h.2.handle exception _⟩

namespace Machine

variable {limit base : Nat} {m m' m₁ : Machine}

structure WellFormed (m : Machine) : Prop where
  depth : m.depth ≤ m.maxCallDepth
  frames : ∀ f ∈ m.frames, f.WellFormed

theorem guards_fitsAt_iff :
    m.Guards limit 0 (Frame.FitsAt limit) ↔ m.maxCallDepth = limit ∧ m.WellFormed := by
  constructor
  · rintro ⟨same, frames⟩
    rw [AllAbove.iff] at frames
    refine ⟨same, ?_, fun f member => ?_⟩
    · unfold depth
      cases hm : m.frames with
      | nil => exact Nat.zero_le _
      | cons f callers =>
        rw [hm] at frames
        rw [same]
        exact (frames f callers List.suffix_rfl (Nat.zero_le _)).1
    · obtain ⟨upper, below, split⟩ := List.append_of_mem member
      exact (frames f below ⟨upper, split.symm⟩ (Nat.zero_le _)).2
  · rintro ⟨same, deep, frames⟩
    refine ⟨same, AllAbove.iff.2 fun f below suffix _ => ⟨?_, frames f ?_⟩⟩
    · have := suffix.length_le
      unfold depth at deep
      simp only [List.length_cons] at this
      omega
    · exact suffix.subset List.mem_cons_self

theorem guards_step (h : m.Guards limit 0 (Frame.FitsAt limit)) :
    (endState (step m).2).Guards limit 0 (Frame.FitsAt limit) := by
  cases hm : m.frames with
  | nil =>
    obtain ⟨world, frames, natives, maxCallDepth⟩ := m
    cases hm
    exact h
  | cons f callers =>
    obtain ⟨k, w, stepped, kept, -⟩ := step_keeps Frame.tolerated_staysWellFormed
      World.tolerated_any m.natives.respects_any hm
    rw [stepped]
    have frames := h.frames
    rw [hm] at frames
    exact ⟨h.limit, frames.replaceTop fun h => ⟨h.1, kept h.2⟩⟩

theorem fitsAt_of_ofArguments {c : ClassId} {method : Method} {arguments : List Value}
    (t : ClassTable) (f : Frame) (made : Frame.ofArguments t c method arguments = .ok f)
    (height : Nat) (low : height < limit) : f.FitsAt limit height :=
  ⟨low, Frame.wellFormed_of_ofArguments made⟩

/-! ### Every reachable machine -/

theorem invariant_wellFormed (maxCallDepth : Nat) :
    Invariant World.Any fun m => m.maxCallDepth = maxCallDepth ∧ m.WellFormed := by
  simp only [← guards_fitsAt_iff]
  have lasting := Frame.lasting_fitsAt maxCallDepth
  constructor
  case changed => exact fun h _ => stillGuards_withWorld _ _ h
  case step => exact fun h _ => guards_step h
  case attempt => exact fun h _ => guards_attempt lasting (guards_step h) _
  case cycle => exact fun h _ => guards_cycle lasting (guards_step h) _
  case mark => exact fun _ _ h _ => stillGuards_withWorld _ _ h
  case prepare =>
    intro _ m _ _ k _ initializer _ _ h _ enters
    have kept := keeps_enterInitializer k initializer fitsAt_of_ofArguments m h
    rwa [enters] at kept
  case enter =>
    intro m _ c method arguments h enters
    have kept := keeps_enter c method arguments fitsAt_of_ofArguments m h
    rwa [enters] at kept
  case native => exact fun h c method arguments => keeps_callNative c method arguments _ h

theorem wellFormed_start (world : World) (natives : NativeRegistry) (maxCallDepth : Nat) :
    (start world natives maxCallDepth).WellFormed :=
  ⟨Nat.zero_le _, fun _ member => by cases member⟩

/-- Whatever code runs from an empty call stack, and whatever becomes of it, the call stack is
within the limit, and every frame has a body and the shape that the body asks for. -/
theorem frames_fit (world : World) (natives : NativeRegistry) (maxCallDepth : Nat)
    (h : Reachable World.Any (start world natives maxCallDepth) m) :
    m.depth ≤ maxCallDepth ∧ ∀ f ∈ m.frames, ∃ body, f.Fits body := by
  obtain ⟨limit, wellFormed⟩ := (invariant_wellFormed maxCallDepth).reachable
    ⟨rfl, wellFormed_start world natives maxCallDepth⟩ h
  have deep := wellFormed.depth
  rw [limit] at deep
  exact ⟨deep, wellFormed.frames⟩

/-! A method that returns its argument, a `long`, after its first instruction. -/

def echoing : Method :=
  { owner := .scalar "Main"
    signature := ⟨"echo", [.primitive .long], some (.primitive .long)⟩
    flags := Bootstrap.publicFlag ||| Bootstrap.staticFlag
    body := some ⟨2, 2, #[0x1e, 0xad], []⟩ }

def echoingWorld : World :=
  World.ofProgram .working 0
    [{ ClassDefinition.ofName echoing.owner with
        superclass := some 0
        methods := [(echoing.signature, echoing.flags, echoing.body)] }]

def echoingMachine : Machine :=
  endState (enter 5 echoing [.long 7] (start (echoingWorld.markInitialized 5) .standard 1))

set_option maxRecDepth 100000 in
theorem reachable_echoing :
    Reachable World.Any (start echoingWorld .standard 1) (endState (cycle 0 echoingMachine)) := by
  have pending : echoingWorld.uninitialized 5 = [5] := by decide +kernel
  have undeclared : echoingWorld.classes.declared? .initializer 5 = none := by decide +kernel
  have unbridged : (echoingWorld.markInitialized 5).classes.isBridged 5 echoing = false := by
    decide +kernel
  have come : ComesTo [5] (start echoingWorld .standard 1) [] _ := .marked .begins undeclared
  rw [← pending] at come
  have enters : enter 5 echoing [.long 7] (start (echoingWorld.markInitialized 5) .standard 1) =
      .ok () echoingMachine := rfl
  have passes : Passes 0 echoingMachine _ := .ended .refl Nat.one_pos
  exact .calling .start (.method come unbridged enters passes)

theorem frames_fit_echoing :
    (∃ f, (endState (cycle 0 echoingMachine)).frames = [f] ∧ f.stack.values = [.long 7] ∧
      f.locals.slots = #[some (.long 7), none]) ∧
    (endState (cycle 0 echoingMachine)).depth ≤ 1 ∧
      ∀ f ∈ (endState (cycle 0 echoingMachine)).frames, ∃ body, f.Fits body :=
  ⟨⟨_, rfl, rfl, rfl⟩, frames_fit echoingWorld .standard 1 reachable_echoing⟩

end Machine

end JavaMachine
