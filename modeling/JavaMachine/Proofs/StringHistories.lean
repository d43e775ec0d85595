import JavaMachine.Proofs.FieldAccesses
import JavaMachine.Proofs.StringContents

/-!
# Histories of strings

A string is made anew, or the one is given that is kept for its text, on its own or by an
instruction that pushes a constant. Whatever has been asked for, every string that was given has its
text. Of those that are kept two are the same exactly if their texts are, and a new one is none of
the strings before.
-/
namespace JavaMachine

/-- A string that was given for a text, and whether it is the one that is kept for it. -/
structure GivenString where
  text : String
  kept : Bool
  reference : Reference
  deriving DecidableEq

namespace GivenString

/-- What is given when a string is asked for by its text. -/
def ofResult (text : String) (kept : Bool) : EStateM.Result Error World Reference →
    List GivenString
  | .ok r _ => [⟨text, kept, r⟩]
  | .error _ _ => []

/-- What is left on top of the stack when a string is pushed by its text. -/
def ofPush (text : String) : EStateM.Result Error Activation Action → List GivenString
  | .ok .proceed a =>
    match a.frame.stack.values with
    | .reference r :: _ => [⟨text, true, r⟩]
    | _ => []
  | _ => []

end GivenString

open GivenString in
/-- The worlds that come after a world. Strings are asked for with whatever outcome, constants by
any frame, and in between anything may happen that writes into no string. The strings that were
given are listed. -/
inductive StringHistory (w : World) : List GivenString → World → Prop
  | start : StringHistory w [] w
  | made {given : List GivenString} {w₁ : World} (h : StringHistory w given w₁) (text : String) :
      StringHistory w (ofResult text false (World.newString text w₁) ++ given)
        (endState (World.newString text w₁))
  | interned {given : List GivenString} {w₁ : World} (h : StringHistory w given w₁)
      (text : String) :
      StringHistory w (ofResult text true (World.internString text w₁) ++ given)
        (endState (World.internString text w₁))
  | pushed {given : List GivenString} {a : Activation} (h : StringHistory w given a.world)
      {index : UInt16} {text : String}
      (constant : (a.world.classes.pool a.frame.owner).get? index = some (.string text))
      (natives : NativeRegistry) (callers : List Frame) :
      StringHistory w
        (ofPush text ((Instruction.pushConstant index).execute natives callers a) ++ given)
        (endState ((Instruction.pushConstant index).execute natives callers a)).world
  | between {given : List GivenString} {w₁ w' : World} (h : StringHistory w given w₁)
      (spares : w₁.SparesStrings w') : StringHistory w given w'

namespace World

variable {w w₁ w' : World} {r : Reference} {text : String}

/-! ### Strings that are kept -/

/-- Every string that is kept for a text has it. -/
structure KeepsTexts (w : World) : Prop extends titled : Titled w where
  root : ∃ c, w.registry.get? objectName = some c
  strings : ∀ text r, w.strings.get? text = some r → w.Spells r (Utf16.encode text.toList)

structure RetainsStrings (w w' : World) : Prop where
  spells : ∀ r units, w.Spells r units → w'.Spells r units
  strings : ∀ text r, w.strings.get? text = some r → w'.strings.get? text = some r

instance : IsPreorder World RetainsStrings where
  refl _ := ⟨fun _ _ => id, fun _ _ => id⟩
  trans _ _ _ h h' := ⟨fun r units spelt => h'.spells r units (h.spells r units spelt),
    fun text r kept => h'.strings text r (h.strings text r kept)⟩

theorem SparesStrings.retains (h : w.SparesStrings w') : w.RetainsStrings w' where
  spells := h.spells
  strings text r kept := by rwa [h.strings]

/-- The string that is kept for a text is given. If there is none, a new one is made and kept. -/
theorem internString_cases (w : World) (text : String) :
    (∃ r, w.strings.get? text = some r ∧ internString text w = .ok r w) ∨
      w.strings.get? text = none ∧
        ((∃ r w₁, newString text w = .ok r w₁ ∧
            internString text w = .ok r { w₁ with strings := w₁.strings.insert text r }) ∨
          ∃ e w₁, newString text w = .error e w₁ ∧ internString text w = .error e w₁) := by
  unfold internString
  rw [get_bind]
  cases kept : w.strings.get? text with
  | some r => exact .inl ⟨r, rfl, rfl⟩
  | none =>
    refine .inr ⟨rfl, ?_⟩
    cases made : newString text w with
    | ok r w₁ => exact .inl ⟨r, w₁, rfl, bind_of_ok made⟩
    | error e w₁ => exact .inr ⟨e, w₁, rfl, bind_of_error made⟩

namespace KeepsTexts

variable (h : w.KeepsTexts)
include h

theorem spares (later : w.SparesStrings w') : w'.KeepsTexts :=
  { later.titled h.titled with
    root := later.known "java/lang/Object" h.root
    strings := by
      intro text r kept
      rw [later.strings] at kept
      exact later.spells r _ (h.strings text r kept) }

theorem insert (spelt : w.Spells r (Utf16.encode text.toList))
    (new : w.strings.get? text = none) :
    w.RetainsStrings { w with strings := w.strings.insert text r } ∧
      { w with strings := w.strings.insert text r }.KeepsTexts := by
  constructor
  · refine ⟨fun _ _ => id, fun other s kept => ?_⟩
    have distinct : other ≠ text := by
      rintro rfl
      exact nomatch new.symm.trans kept
    exact (FiniteMap.get?_insert_ne _ distinct r).trans kept
  · have titled : { w with strings := w.strings.insert text r }.Titled :=
      h.titled.of_same ⟨rfl, rfl, rfl⟩
    refine { titled with root := h.root, strings := fun other s kept => ?_ }
    change (w.strings.insert text r).get? other = some s at kept
    rw [FiniteMap.get?_insert] at kept
    split at kept
    · rename_i same
      cases kept
      rw [same]
      exact spelt
    · exact h.strings other s kept

/-- Whatever comes of it, strings are kept as before, and what is given is kept for the text. -/
theorem internString (text : String) :
    w.RetainsStrings (endState (internString text w)) ∧
      (endState (World.internString text w)).KeepsTexts ∧
      ∀ r w', World.internString text w = .ok r w' → w'.strings.get? text = some r := by
  have spares := keeps_newString toleratesAllocation_sparesStrings text w
  obtain ⟨r, kept, found⟩ | ⟨new, ⟨r, w₁, made, asked⟩ | ⟨e, w₁, failed, asked⟩⟩ :=
    w.internString_cases text
  · rw [found]
    refine ⟨refl_of _ w, h, ?_⟩
    rintro _ _ ⟨⟩
    exact kept
  · rw [made] at spares
    obtain ⟨-, -, spelt⟩ := newStringOfUnits_eq_ok h.titled made
    obtain ⟨retains, keeps⟩ := (h.spares spares).insert spelt (by rwa [spares.strings])
    rw [asked]
    refine ⟨trans_of _ spares.retains retains, keeps, ?_⟩
    rintro _ _ ⟨⟩
    exact FiniteMap.get?_insert_self _ _ _
  · rw [failed] at spares
    rw [asked]
    exact ⟨spares.retains, h.spares spares, fun _ _ given => nomatch given⟩

theorem newString_succeeds_iff (text : String) :
    (∃ r w', newString text w = .ok r w') ↔ w.HoldsTexts :=
  newStringOfUnits_succeeds_iff h.titled h.root

theorem internString_succeeds_iff (text : String) :
    (∃ r w', World.internString text w = .ok r w') ↔
      (∃ r, w.strings.get? text = some r) ∨ w.HoldsTexts := by
  rw [← h.newString_succeeds_iff text]
  obtain ⟨r, kept, found⟩ | ⟨new, ⟨r, w₁, made, asked⟩ | ⟨e, w₁, failed, asked⟩⟩ :=
    w.internString_cases text
  · simp [kept, found]
  · simp [made, asked]
  · simp [new, failed, asked]

end KeepsTexts

theorem keepsTexts_start (console : Console) (clock : Nat) : (start console clock).KeepsTexts :=
  { (canonical_start console clock).titled with
    root := ⟨0, rfl⟩
    strings := fun _ _ kept => nomatch kept }

end World

namespace Execution

variable {a : Activation} {index : UInt16} {text : String}

theorem pushConstant_eq (index : UInt16) (a : Activation) : pushConstant index a =
    (onWorld (World.constantValue index ((a.world.classes.pool a.frame.owner).get? index)) >>=
      fun v => onStack (OperandStack.push v)) a := rfl

/-- A constant that is a string is asked for by its text and pushed, as far as there is room. -/
theorem execute_pushConstant_cases
    (constant : (a.world.classes.pool a.frame.owner).get? index = some (.string text))
    (natives : NativeRegistry) (callers : List Frame) :
    (∃ r w, World.internString text a.world = .ok r w ∧
      ((∃ a', (Instruction.pushConstant index).execute natives callers a = .ok .proceed a' ∧
          a'.frame.stack.values = .reference r :: a.frame.stack.values ∧ a'.world = w) ∨
        ∃ limit, (Instruction.pushConstant index).execute natives callers a =
          .error (.operandStackOverflow limit) ⟨a.frame, w⟩)) ∨
    ∃ e w, World.internString text a.world = .error e w ∧
      (Instruction.pushConstant index).execute natives callers a = .error e ⟨a.frame, w⟩ := by
  cases asked : World.internString text a.world with
  | error e w =>
    have valued : World.constantValue index (some (.string text)) a.world = .error e w :=
      bind_of_error asked
    have failed : pushConstant index a = .error e ⟨a.frame, w⟩ := by
      rw [pushConstant_eq, constant]
      exact bind_of_error (onWorld_eq_error.2 ⟨w, valued, rfl⟩)
    exact .inr ⟨e, w, rfl, bind_of_error failed⟩
  | ok r w =>
    have valued : World.constantValue index (some (.string text)) a.world = .ok (.reference r) w :=
      bind_of_ok asked
    have pushes : pushConstant index a =
        onStack (OperandStack.push (.reference r)) ⟨a.frame, w⟩ := by
      rw [pushConstant_eq, constant]
      exact bind_of_ok (onWorld_eq_ok.2 ⟨w, valued, rfl⟩)
    refine .inl ⟨r, w, rfl, ?_⟩
    rcases onStack_push_cases (.reference r) ⟨a.frame, w⟩ with ⟨a', pushed⟩ | ⟨limit, full⟩
    · obtain ⟨stack, placed, rfl⟩ := onStack_eq_ok.1 pushed
      exact .inl ⟨_, bind_of_ok (pushes.trans pushed), OperandStack.push_eq_ok placed, rfl⟩
    · exact .inr ⟨limit, bind_of_error (pushes.trans full)⟩

end Execution

namespace StringHistory

open World GivenString

variable {w w₁ w' : World} {given : List GivenString} {r : Reference} {text : String}

/-- The strings that were given have their texts, and those that are kept are found for these. -/
def Records (given : List GivenString) (w : World) : Prop :=
  ∀ x ∈ given, w.Spells x.reference (Utf16.encode x.text.toList) ∧
    (x.kept = true → w.strings.get? x.text = some x.reference)

theorem Records.retains (h : Records given w) (later : w.RetainsStrings w') :
    Records given w' := by
  intro x member
  obtain ⟨spelt, kept⟩ := h x member
  exact ⟨later.spells _ _ spelt, fun isKept => later.strings _ _ (kept isKept)⟩

theorem Records.append {more : List GivenString} (h : Records given w)
    (new : Records more w) : Records (more ++ given) w := by
  intro x member
  rcases List.mem_append.1 member with recent | earlier
  · exact new x recent
  · exact h x earlier

theorem mem_ofResult {x : GivenString} {kept : Bool} {result : EStateM.Result Error World Reference}
    (member : x ∈ ofResult text kept result) :
    x.text = text ∧ x.kept = kept ∧ ∃ w, result = .ok x.reference w := by
  cases result with
  | ok r w =>
    cases List.mem_singleton.1 member
    exact ⟨rfl, rfl, w, rfl⟩
  | error e w => cases member

theorem mem_ofPush {x : GivenString} {result : EStateM.Result Error Activation Action}
    (member : x ∈ ofPush text result) : x.text = text ∧ ∃ a below, result = .ok .proceed a ∧
      a.frame.stack.values = .reference x.reference :: below := by
  unfold ofPush at member
  split at member
  next a =>
    split at member
    next r below values =>
      cases List.mem_singleton.1 member
      exact ⟨rfl, a, below, rfl, values⟩
    next => cases member
  next => cases member

theorem records (h : StringHistory w given w') (initially : w.KeepsTexts) :
    w'.KeepsTexts ∧ Records given w' := by
  induction h with
  | start => exact ⟨initially, fun _ member => nomatch member⟩
  | @made given w₁ h text ih =>
    obtain ⟨keeps, recorded⟩ := ih
    have spares := keeps_newString toleratesAllocation_sparesStrings text w₁
    refine ⟨keeps.spares spares, (recorded.retains spares.retains).append ?_⟩
    intro x member
    obtain ⟨named, new, w₂, done⟩ := mem_ofResult member
    obtain ⟨-, -, spelt⟩ := newStringOfUnits_eq_ok keeps.titled done
    rw [done, named]
    exact ⟨spelt, fun kept => nomatch new.symm.trans kept⟩
  | @interned given w₁ h text ih =>
    obtain ⟨keeps, recorded⟩ := ih
    obtain ⟨retains, keeps', found⟩ := keeps.internString text
    refine ⟨keeps', (recorded.retains retains).append ?_⟩
    intro x member
    obtain ⟨named, -, w₂, done⟩ := mem_ofResult member
    have kept := found _ _ done
    rw [done] at keeps' ⊢
    rw [named]
    exact ⟨keeps'.strings text _ kept, fun _ => kept⟩
  | @pushed given a h index text constant natives callers ih =>
    obtain ⟨keeps, recorded⟩ := ih
    obtain ⟨retains, keeps', found⟩ := keeps.internString text
    obtain ⟨r, w₁, asked, ⟨a', done, values, rfl⟩ | ⟨limit, full⟩⟩ | ⟨e, w₁, asked, failed⟩ :=
      Execution.execute_pushConstant_cases constant natives callers
    · rw [asked] at retains keeps'
      rw [done]
      refine ⟨keeps', (recorded.retains retains).append ?_⟩
      intro x member
      obtain ⟨named, _, below, ⟨⟩, top⟩ := mem_ofPush member
      cases values.symm.trans top
      have kept := found _ _ asked
      rw [named]
      exact ⟨keeps'.strings text _ kept, fun _ => kept⟩
    · rw [asked] at retains keeps'
      rw [full]
      exact ⟨keeps', recorded.retains retains⟩
    · rw [asked] at retains keeps'
      rw [failed]
      exact ⟨keeps', recorded.retains retains⟩
  | between h spares ih => exact ⟨ih.1.spares spares, ih.2.retains spares.retains⟩

/-- Whatever a loader was asked for before and whatever was created in between: every string that
was given has its text. Two that are kept are the same exactly if their texts are. A new string is
none of those before. Strings are given as long as their class has a field for the characters, and
one that is kept in any case. A constant is given by the same rule and pushed, as far as the operand
stack has room for it. -/
theorem strings_canonical {console : Console} {clock : Nat}
    (h : StringHistory (World.start console clock) given w) :
    (∀ x ∈ given, w.stringText? x.reference = some x.text) ∧
    (∀ x ∈ given, ∀ y ∈ given, x.kept = true → y.kept = true →
      (x.reference = y.reference ↔ x.text = y.text)) ∧
    (∀ text r w', newString text w = .ok r w' →
      (∀ s, (w.stringText? s).isSome = true → r ≠ s) ∧ ∀ x ∈ given, r ≠ x.reference) ∧
    (∀ text, ((∃ r w', newString text w = .ok r w') ↔ w.HoldsTexts) ∧
      ((∃ r w', internString text w = .ok r w') ↔
        (∃ r, w.strings.get? text = some r) ∨ w.HoldsTexts)) ∧
    ∀ (f : Frame) (index : UInt16) (text : String) (natives : NativeRegistry)
      (callers : List Frame), (w.classes.pool f.owner).get? index = some (.string text) →
      (∃ r w', internString text w = .ok r w' ∧
        ((∃ a, (Instruction.pushConstant index).execute natives callers ⟨f, w⟩ = .ok .proceed a ∧
            a.frame.stack.values = .reference r :: f.stack.values ∧ a.world = w') ∨
          ∃ limit, (Instruction.pushConstant index).execute natives callers ⟨f, w⟩ =
            .error (.operandStackOverflow limit) ⟨f, w'⟩)) ∨
      ∃ e w', internString text w = .error e w' ∧
        (Instruction.pushConstant index).execute natives callers ⟨f, w⟩ = .error e ⟨f, w'⟩ := by
  obtain ⟨keeps, recorded⟩ := h.records (keepsTexts_start console clock)
  refine ⟨?_, ?_, ?_, ?_, ?_⟩
  · intro x member
    exact (recorded x member).1.text
  · intro x hx y hy kept kept'
    obtain ⟨spelt, found⟩ := recorded x hx
    obtain ⟨spelt', found'⟩ := recorded y hy
    constructor
    · intro same
      rw [same] at spelt
      exact String.toList_injective (Utf16.encode_injective (spelt.unique spelt'))
    · intro same
      have entry := found kept
      rw [same, found' kept'] at entry
      exact (Option.some.inj entry).symm
  · intro text r w' made
    obtain ⟨-, fresh, -⟩ := newStringOfUnits_eq_ok keeps.titled made
    have other {s : Reference} {units : List UInt16} (spelt : w.Spells s units) : r ≠ s := by
      rintro rfl
      have here := spelt.isSome
      rw [fresh] at here
      cases here
    refine ⟨fun s here => ?_, fun x member => other (recorded x member).1⟩
    obtain ⟨text', read⟩ := Option.isSome_iff_exists.1 here
    obtain ⟨units, spelt, -⟩ := stringText?_eq_some_iff.1 read
    exact other spelt
  · intro text
    exact ⟨keeps.newString_succeeds_iff text, keeps.internString_succeeds_iff text⟩
  · intro f index text natives callers constant
    exact Execution.execute_pushConstant_cases (a := ⟨f, w⟩) constant natives callers

/-! A text with a character above the basic plane is asked for in three ways. -/

def smile : String := "é😀"

def smiling : World :=
  endState (newString smile (endState (internString smile (World.start .working 0))))

def smilingClass : ClassDefinition :=
  { ClassDefinition.ofName (.scalar "Main") with pool := .ofList [.string smile] }

def smilingFrame : Frame :=
  { owner := 7
    method :=
      { owner := smilingClass.name
        signature := ⟨"run", [], none⟩
        flags := Bootstrap.staticFlag
        body := some ⟨1, 0, #[0x12, 1, 0xb1], []⟩ }
    pc := 0
    nextPc := 2
    locals := .empty 0
    stack := ⟨[], 0, 1⟩ }

def smilingPush : EStateM.Result Error Activation Action :=
  (Instruction.pushConstant 1).execute .standard [] ⟨smilingFrame, (smiling.define smilingClass).2⟩

def smiles : List GivenString :=
  [⟨smile, true, .entity 3⟩, ⟨smile, false, .entity 5⟩, ⟨smile, true, .entity 3⟩]

set_option maxRecDepth 100000 in
theorem smiles_eq : ofPush smile smilingPush ++ (ofResult smile false
      (newString smile (endState (internString smile (World.start .working 0)))) ++
    (ofResult smile true (internString smile (World.start .working 0)) ++ [])) = smiles := by
  decide +kernel

set_option maxRecDepth 100000 in
theorem history_smiling :
    StringHistory (World.start .working 0) smiles (endState smilingPush).world := by
  have constant : ((smiling.define smilingClass).2.classes.pool smilingFrame.owner).get? 1 =
      some (.string smile) := by
    decide +kernel
  have defined := ((StringHistory.start (w := World.start .working 0)).interned smile).made smile
    |>.between (smiling.sparesStrings_define smilingClass)
  have pushed := StringHistory.pushed (a := ⟨smilingFrame, (smiling.define smilingClass).2⟩) defined
    constant .standard []
  rw [← smiles_eq]
  exact pushed

theorem strings_canonical_smiling : ∃ x y z, smiles = [x, y, z] ∧ x.reference = z.reference ∧
    (endState smilingPush).world.stringText? x.reference = some smile ∧
    (endState smilingPush).world.stringText? y.reference = some smile := by
  obtain ⟨texts, same, -⟩ := strings_canonical history_smiling
  refine ⟨_, _, _, rfl, (same _ ?_ _ ?_ rfl rfl).2 rfl, texts _ ?_, texts _ ?_⟩
  all_goals simp [smiles]

end StringHistory

end JavaMachine
