import JavaMachine.Proofs.Bracketing
import JavaMachine.Proofs.Loading
import JavaMachine.Proofs.StringContents

/-!
# The handler that an exception finds

An exception goes to the innermost frame above the base that has a handler for it, and there to the
first such entry of the table. Consulting an entry may load its class, so the search changes the
world on its way; which entries catch the exception is nevertheless settled when it is thrown, and
that is how handlers are described here.
-/
namespace JavaMachine

namespace World

variable {w w₁ : World} {owner c : ClassId} {pc : Nat}

/-- The catch type of the handler means something: everything, or a class. -/
def Readable (w : World) (owner : ClassId) (h : Handler) : Prop :=
  h.catchType = 0 ∨ ∃ name, (w.classes.pool owner).classAt h.catchType = .ok name

/-- The handler is for everything, or for a class that can be loaded and that exceptions of the
class `c` may be stored as. -/
def Catches (w : World) (owner c : ClassId) (h : Handler) : Prop :=
  h.catchType = 0 ∨ ∃ name k w', (w.classes.pool owner).classAt h.catchType = .ok name ∧
    loadClass name w = .ok k w' ∧ w'.classes.isAssignable c k = true

theorem Catches.readable {h : Handler} (catches : w.Catches owner c h) : w.Readable owner h :=
  catches.imp_right fun ⟨name, _, _, read, _⟩ => ⟨name, read⟩

/-- The search at a position goes past the handlers. -/
def Passes (w : World) (owner c : ClassId) (pc : Nat) (handlers : List Handler) : Prop :=
  ∀ h ∈ handlers, h.covers pc = true → w.Readable owner h ∧ ¬ w.Catches owner c h

theorem linked_ofProgram (console : Console) (clock : Nat) (program : List ClassDefinition) :
    (ofProgram console clock program).Linked :=
  program.foldlRecOn _ (linked_start console clock) fun _ linked d _ => linked.define d

theorem Loads.pool_eq (h : w.Loads w₁) (owner : ClassId) :
    w₁.classes.pool owner = w.classes.pool owner := by
  unfold ClassTable.pool
  rcases Nat.lt_or_ge owner w.classes.size with below | above
  · rw [h.agree owner below]
  · rw [ClassTable.get?_eq_none above]
    cases made : w₁.classes.get? owner with
    | none => rfl
    | some k => rcases h.made owner k above made with ⟨p, rfl⟩ | ⟨_, _, _, _, rfl⟩ <;> rfl

/-- Loading a class after some other loading finds it as well, and an exception may be stored as
the one if it may be stored as the other. -/
theorem loadClass_loads (loads : w.Loads w₁) (hc : c < w.classes.size) (name : ClassName) :
    (∃ k w', loadClass name w₁ = .ok k w' ∧ w.Loads w' ∧
      (w'.classes.isAssignable c k = true ↔
        ∃ k' w'', loadClass name w = .ok k' w'' ∧ w''.classes.isAssignable c k' = true)) ∨
    (∃ text w', loadClass name w₁ = .error (.classNotFound text) w' ∧ w.Loads w' ∧
      ∀ k' w'', loadClass name w ≠ .ok k' w'') := by
  have now := typeClass_settles loads name.type
  have before := typeClass_settles (Loads.refl loads.known) name.type
  rw [← loadClass_eq] at now before
  cases h : loadClass name w₁ with
  | ok k w' =>
    rw [h] at now
    obtain ⟨loads', represents⟩ := now
    refine .inl ⟨k, w', rfl, loads', ?_⟩
    cases h' : loadClass name w with
    | ok k' w'' =>
      rw [h'] at before
      have alike := before.2.alike loads.known represents
      have agree : ClassTable.Agree w.classes.size w''.classes w'.classes := by
        intro i below
        rw [loads'.agree i below, before.1.agree i below]
      rw [agree.isAssignable_eq hc alike]
      constructor
      · intro stored
        exact ⟨k', w'', rfl, stored⟩
      · rintro ⟨_, _, ⟨⟩, stored⟩
        exact stored
    | error e w'' =>
      rw [h'] at before
      exact absurd represents.loadable before.2.1
  | error e w' =>
    rw [h] at now
    obtain ⟨loads', unknown, text, rfl⟩ := now
    refine .inr ⟨text, w', rfl, loads', ?_⟩
    intro k' w'' h'
    rw [h'] at before
    exact unknown before.2.loadable

theorem catches_eq {h : Handler} {name : ClassName} (some : h.catchType ≠ 0)
    (read : (w.classes.pool owner).classAt h.catchType = .ok name) :
    catches owner c h w =
      match loadClass? name w with
      | .ok (.some k) w' => .ok (w'.classes.isAssignable c k) w'
      | .ok none w' => .ok false w'
      | .error e w' => .error e w' := by
  unfold catches
  rw [if_neg some]
  change EStateM.bind (ofExcept ((w.classes.pool owner).classAt h.catchType)) _ w = _
  rw [read]
  change EStateM.bind (loadClass? name) _ w = _
  unfold EStateM.bind
  split
  · rename_i found w' loaded
    rw [loaded]
    cases found <;> rfl
  · rename_i e w' loaded
    rw [loaded]

/-- Consulting a handler after some loading tells whether it caught the exception before. -/
theorem catches_loads (loads : w.Loads w₁) (hc : c < w.classes.size) {h : Handler}
    (readable : w.Readable owner h) :
    ∃ caught w', catches owner c h w₁ = .ok caught w' ∧ w.Loads w' ∧
      (caught = true ↔ w.Catches owner c h) := by
  by_cases all : h.catchType = 0
  · have caught : catches owner c h w₁ = .ok true w₁ := by
      unfold catches
      rw [if_pos all]
      rfl
    exact ⟨true, w₁, caught, loads, by simp [Catches, all]⟩
  · obtain ⟨name, read⟩ := readable.resolve_left all
    have read' : (w₁.classes.pool owner).classAt h.catchType = .ok name := by
      rw [loads.pool_eq, read]
    have meaning : w.Catches owner c h ↔
        ∃ k w', loadClass name w = .ok k w' ∧ w'.classes.isAssignable c k = true := by
      simp [Catches, all, read]
    rw [meaning, catches_eq all read']
    rcases loadClass_loads loads hc name with
      ⟨k, w', loaded, loads', iff⟩ | ⟨text, w', missing, loads', unknown⟩
    · have found : loadClass? name w₁ = .ok (some k) w' := by simp [loadClass?, loaded]
      rw [found]
      exact ⟨_, w', rfl, loads', iff⟩
    · have found : loadClass? name w₁ = .ok none w' := by simp [loadClass?, missing]
      rw [found]
      refine ⟨false, w', rfl, loads', by simp, ?_⟩
      rintro ⟨k, w'', loaded, -⟩
      exact absurd loaded (unknown k w'')

theorem handlerPc?_cons (h : Handler) (rest : List Handler) (loads : w.Loads w₁)
    (hc : c < w.classes.size) (passes : w.Passes owner c pc [h]) :
    ∃ w', handlerPc? owner c pc (h :: rest) w₁ = handlerPc? owner c pc rest w' ∧ w.Loads w' := by
  by_cases covered : h.covers pc = true
  · obtain ⟨readable, misses⟩ := passes h (List.mem_singleton_self h) covered
    obtain ⟨caught, w', consulted, loads', iff⟩ := catches_loads loads hc readable
    have missed : caught = false := by simp [← iff] at misses; exact misses
    refine ⟨w', ?_, loads'⟩
    rw [handlerPc?, if_pos covered]
    change EStateM.bind (catches owner c h) _ w₁ = _
    unfold EStateM.bind
    rw [consulted, missed]
    rfl
  · refine ⟨w₁, ?_, loads⟩
    rw [handlerPc?, if_neg covered]

theorem handlerPc?_append (before rest : List Handler) (loads : w.Loads w₁)
    (hc : c < w.classes.size) (passes : w.Passes owner c pc before) :
    ∃ w', handlerPc? owner c pc (before ++ rest) w₁ = handlerPc? owner c pc rest w' ∧
      w.Loads w' := by
  induction before generalizing w₁ with
  | nil => exact ⟨w₁, rfl, loads⟩
  | cons h before ih =>
    have first : w.Passes owner c pc [h] := fun g member =>
      passes g (List.mem_cons.2 (.inl (List.mem_singleton.1 member)))
    obtain ⟨w₂, eq, loads₂⟩ := handlerPc?_cons h (before ++ rest) loads hc first
    obtain ⟨w', eq', loads'⟩ := ih loads₂ fun g member => passes g (List.mem_cons_of_mem h member)
    exact ⟨w', eq.trans eq', loads'⟩

theorem handlerPc?_of_catches {h : Handler} (rest : List Handler) (loads : w.Loads w₁)
    (hc : c < w.classes.size) (covered : h.covers pc = true) (catches : w.Catches owner c h) :
    ∃ w', handlerPc? owner c pc (h :: rest) w₁ = .ok (some h.handlerPc.toNat) w' ∧
      w.Loads w' := by
  obtain ⟨caught, w', consulted, loads', iff⟩ := catches_loads loads hc catches.readable
  refine ⟨w', ?_, loads'⟩
  rw [handlerPc?, if_pos covered]
  change EStateM.bind (World.catches owner c h) _ w₁ = _
  unfold EStateM.bind
  rw [consulted, iff.2 catches]
  rfl

/-- The search passes all handlers of a table, or stops at the first that catches the exception, or
meets one that cannot be read before. -/
theorem passes_or_stops (w : World) (owner c : ClassId) (pc : Nat) (handlers : List Handler) :
    w.Passes owner c pc handlers ∨ ∃ before h after, handlers = before ++ h :: after ∧
      w.Passes owner c pc before ∧ h.covers pc = true ∧
      (w.Catches owner c h ∨ ¬ w.Readable owner h) := by
  induction handlers with
  | nil => exact .inl (by simp [Passes])
  | cons h rest ih =>
    by_cases stops : h.covers pc = true ∧ (w.Catches owner c h ∨ ¬ w.Readable owner h)
    · exact .inr ⟨[], h, rest, rfl, by simp [Passes], stops.1, stops.2⟩
    · have first : h.covers pc = true → w.Readable owner h ∧ ¬ w.Catches owner c h := by
        intro covered
        have neither := not_or.1 fun either => stops ⟨covered, either⟩
        exact ⟨not_not.1 neither.2, neither.1⟩
      rcases ih with passes | ⟨before, g, after, rfl, passes, stop⟩
      · exact .inl (by simpa [Passes] using ⟨first, passes⟩)
      · exact .inr ⟨h :: before, g, after, rfl, by simpa [Passes] using ⟨first, passes⟩, stop⟩

theorem Loads.heap_eq (h : w.Loads w₁) : w₁.heap = w.heap := by
  rw [h.rest]

theorem Loads.isString_iff (h : w.Loads w₁) (k : ClassId) :
    w₁.classes.name k = .scalar "java/lang/String" ↔
      w.classes.name k = .scalar "java/lang/String" := by
  rcases Nat.lt_or_ge k w.classes.size with below | above
  · rw [h.agree.name_eq below]
  · have unnamed : w.classes.name k = .scalar "" := by
      simp [ClassTable.name, ClassTable.get?_eq_none above]
    rw [unnamed]
    cases made : w₁.classes.get? k with
    | none => simp [ClassTable.name, made]
    | some d =>
      rcases h.made k d above made with ⟨p, rfl⟩ | ⟨type, i, flags, object, rfl⟩
      · have keyword : p.keyword ≠ "java/lang/String" := by
          cases p <;> decide
        simp [ClassTable.name, made, Class.ofPrimitive, keyword]
      · simp [ClassTable.name, made, Class.arrayOf]

/-- The object has the text as its message, in a string that its field for messages refers to. -/
def HasMessage (w : World) (exception : Reference) (text : String) : Prop :=
  ∃ k fields r units, w.heap.get? exception = some (.object k fields) ∧
    FiniteMap.get? fields "detailMessage" = some (.reference r) ∧ w.Spells r units ∧
    Utf16.textOf units = text

theorem detailMessage?_eq_some_iff {exception : Reference} {text : String} :
    w.detailMessage? exception = some text ↔ w.HasMessage exception text := by
  constructor
  · intro read
    unfold detailMessage? at read
    split at read
    next k fields here =>
      split at read
      next r field =>
        obtain ⟨units, spelt, reads⟩ := stringText?_eq_some_iff.1 read
        exact ⟨k, fields, r, units, get?_of_object? here, field, spelt, reads⟩
      next => cases read
    next => cases read
  · rintro ⟨k, fields, r, units, here, field, spelt, reads⟩
    have held : fields.get? detailField = some (.reference r) := field
    unfold detailMessage?
    rw [object?_of_get? here]
    dsimp only
    rw [held]
    exact stringText?_eq_some_iff.2 ⟨units, spelt, reads⟩

theorem Loads.uncaught_eq (h : w.Loads w₁) (hc : c < w.classes.size) (exception : Reference) :
    w₁.uncaught exception c = w.uncaught exception c := by
  have object (r : Reference) : w₁.object? r = w.object? r := by
    unfold object?
    rw [h.heap_eq]
  have text (r : Reference) : w₁.stringText? r = w.stringText? r := by
    unfold stringText? charsText?
    simp only [object, h.isString_iff, h.heap_eq]
  unfold uncaught detailMessage?
  rw [h.agree.name_eq hc, object]
  simp only [text]

end World

namespace Frame

variable {w : World} {c : ClassId} {f : Frame}

def Passes (f : Frame) (w : World) (c : ClassId) : Prop :=
  w.Passes f.owner c f.pc f.method.handlers

/-- The handler is the first one of the frame that catches the exception. -/
def Takes (f : Frame) (w : World) (c : ClassId) (h : Handler) : Prop :=
  ∃ before after, f.method.handlers = before ++ h :: after ∧
    w.Passes f.owner c f.pc before ∧ h.covers f.pc = true ∧ w.Catches f.owner c h

/-- The search comes to a handler of the frame whose catch type is neither 0 nor a class. -/
def Misleads (f : Frame) (w : World) (c : ClassId) : Prop :=
  ∃ before h after, f.method.handlers = before ++ h :: after ∧
    w.Passes f.owner c f.pc before ∧ h.covers f.pc = true ∧ ¬ w.Readable f.owner h

theorem passes_or_stops (f : Frame) (w : World) (c : ClassId) :
    f.Passes w c ∨ (∃ h, f.Takes w c h) ∨ f.Misleads w c := by
  rcases w.passes_or_stops f.owner c f.pc f.method.handlers with
    passes | ⟨before, h, after, split, passes, covered, stop⟩
  · exact .inl passes
  · rcases stop with catches | unreadable
    · exact .inr (.inl ⟨h, before, after, split, passes, covered, catches⟩)
    · exact .inr (.inr ⟨before, h, after, split, passes, covered, unreadable⟩)

theorem handle_eq_ok (exception : Reference) (pc : Nat) (room : 1 ≤ f.stack.maxStack) :
    f.handle exception pc =
      .ok () { f with stack := ⟨[.reference exception], 1, f.stack.maxStack⟩, pc := pc } := by
  have pushed : OperandStack.push (.reference exception) f.stack.clear =
      .ok () ⟨[.reference exception], 1, f.stack.maxStack⟩ := by
    unfold OperandStack.push OperandStack.clear
    have size : 0 + (Value.reference exception).category = 1 := rfl
    dsimp only
    rw [size, if_neg (Nat.not_lt.2 room)]
  unfold handle
  rw [pushed]

end Frame

namespace Machine

variable {base : Nat} {m m' : Machine} {w w₁ : World} {exception : Reference} {c : ClassId}

theorem seek_append (base : Nat) (exception : Reference) (m : Machine) (upper rest : List Frame)
    (loads : w.Loads w₁) (hc : c < w.classes.size) (above : base ≤ rest.length)
    (passes : ∀ g ∈ upper, g.Passes w c) :
    ∃ w', seekHandler.seek base exception c m w₁ (upper ++ rest) =
      seekHandler.seek base exception c m w' rest ∧ w.Loads w' := by
  induction upper generalizing w₁ with
  | nil => exact ⟨w₁, rfl, loads⟩
  | cons g upper ih =>
    have first := passes g List.mem_cons_self
    obtain ⟨w₂, found, loads₂⟩ := World.handlerPc?_append _ [] loads hc first
    rw [List.append_nil] at found
    obtain ⟨w', eq, loads'⟩ := ih loads₂ fun k member => passes k (List.mem_cons_of_mem g member)
    have high : ¬ (upper ++ rest).length < base := by
      rw [List.length_append]
      omega
    refine ⟨w', ?_, loads'⟩
    rw [List.cons_append, seekHandler.seek, if_neg high, found]
    exact eq

theorem seek_takes (exception : Reference) (m : Machine) {f : Frame} {below : List Frame}
    {h : Handler} (loads : w.Loads w₁) (hc : c < w.classes.size) (above : base ≤ below.length)
    (takes : f.Takes w c h) (room : 1 ≤ f.stack.maxStack) :
    ∃ w', w.Loads w' ∧ seekHandler.seek base exception c m w₁ (f :: below) =
      .ok true { m with
        world := w'
        frames := { f with
          stack := ⟨[.reference exception], 1, f.stack.maxStack⟩
          pc := h.handlerPc.toNat } :: below } := by
  obtain ⟨before, after, split, passes, covered, catches⟩ := takes
  obtain ⟨w₂, past, loads₂⟩ := World.handlerPc?_append before (h :: after) loads hc passes
  obtain ⟨w', found, loads'⟩ := World.handlerPc?_of_catches after loads₂ hc covered catches
  refine ⟨w', loads', ?_⟩
  rw [seekHandler.seek, if_neg (Nat.not_lt.2 above), split, past, found]
  dsimp only
  rw [Frame.handle_eq_ok exception _ room]

theorem seek_base (lower : List Frame) (bottom : lower.length = base) :
    seekHandler.seek base exception c m w lower =
      .ok false { m with world := w, frames := lower } := by
  cases lower with
  | nil => rfl
  | cons f below =>
    rw [seekHandler.seek, if_pos (Nat.lt_of_succ_le (Nat.le_of_eq bottom))]

/-- Among frames above a base, the search goes past all, or comes to one first that takes the
exception or has a handler without meaning. -/
theorem search_cases (w : World) (c : ClassId) (upper : List Frame) :
    (∀ g ∈ upper, g.Passes w c) ∨ ∃ past f below, upper = past ++ f :: below ∧
      (∀ g ∈ past, g.Passes w c) ∧ ((∃ h, f.Takes w c h) ∨ f.Misleads w c) := by
  induction upper with
  | nil => exact .inl (by simp)
  | cons f upper ih =>
    rcases f.passes_or_stops w c with first | stops
    · rcases ih with passes | ⟨past, g, below, rfl, passes, stop⟩
      · exact .inl (by simpa using ⟨first, passes⟩)
      · exact .inr ⟨f :: past, g, below, rfl, by simpa using ⟨first, passes⟩, stop⟩
    · exact .inr ⟨[], f, upper, rfl, by simp, stops⟩

/-- The innermost frame that takes an exception goes on at its handler. -/
theorem unwind_of_takes {past below : List Frame} {f : Frame} {h : Handler}
    (linked : m.world.Linked) (object : m.world.classOf? exception = some c)
    (hc : c < m.world.classes.size) (frames : m.frames = past ++ f :: below)
    (above : base ≤ below.length) (passes : ∀ g ∈ past, g.Passes m.world c)
    (takes : f.Takes m.world c h) (room : 1 ≤ f.stack.maxStack) :
    ∃ w, m.world.Loads w ∧ unwind base exception m =
      .ok () { m with
        world := w
        frames := { f with
          stack := ⟨[.reference exception], 1, f.stack.maxStack⟩
          pc := h.handlerPc.toNat } :: below } := by
  obtain ⟨w₁, skipped, loads₁⟩ := seek_append base exception m past (f :: below)
    (World.Loads.refl linked) hc (Nat.le_succ_of_le above) passes
  obtain ⟨w, loads, taken⟩ := seek_takes exception m loads₁ hc above takes room
  have sought := skipped.trans taken
  rw [← frames] at sought
  refine ⟨w, loads, ?_⟩
  rw [unwind_eq, object]
  dsimp only
  unfold seekHandler
  rw [sought]

/-- An exception that no frame above the base takes leaves the run with all frames alive. -/
theorem unwind_of_passes {upper lower : List Frame} (linked : m.world.Linked)
    (above : base < m.depth) (object : m.world.classOf? exception = some c)
    (hc : c < m.world.classes.size) (frames : m.frames = upper ++ lower)
    (bottom : lower.length = base) (passes : ∀ g ∈ upper, g.Passes m.world c) :
    ∃ w l callers message, m.world.Loads w ∧
      (m.frames.map fun f => Location.mk (m.world.classes.name f.owner).text
        f.method.signature.name f.pc) = l :: callers ∧
      (∀ text, message = some text ↔ m.world.HasMessage exception text) ∧
      unwind base exception m = .error (.execution none l callers
        (.uncaughtException (m.world.classes.name c).dotted message))
          { m with world := w, frames := lower } := by
  obtain ⟨w, skipped, loads⟩ := seek_append base exception m upper lower
    (World.Loads.refl linked) hc (Nat.le_of_eq bottom.symm) passes
  have sought := skipped.trans (seek_base lower bottom)
  rw [← frames] at sought
  obtain ⟨l, callers, locations⟩ := List.exists_cons_of_ne_nil (locations_ne_nil above)
  refine ⟨w, l, callers, m.world.detailMessage? exception, loads, locations,
    fun _ => World.detailMessage?_eq_some_iff, ?_⟩
  rw [unwind_eq, object]
  dsimp only
  unfold seekHandler
  rw [sought]
  dsimp only
  rw [locations, loads.uncaught_eq hc]
  rfl

/-- An exception, whose class is one of the table, goes to the innermost frame above the base that
takes it, at the first handler there that catches it; the frames above that one are given up, and
its stack holds the exception only. If no frame takes it, all frames above the base are given up,
and the failure has the class of the exception, its message if it has one, and the class, method and
position of every frame alive when it was thrown. These are all cases, unless the search comes to a
handler whose catch type has no meaning first. -/
theorem unwind_dispatches (linked : m.world.Linked) (above : base < m.depth)
    (object : m.world.classOf? exception = some c) (hc : c < m.world.classes.size) :
    (∀ past f below h, m.frames = past ++ f :: below → base ≤ below.length →
      (∀ g ∈ past, g.Passes m.world c) → f.Takes m.world c h → 1 ≤ f.stack.maxStack →
      ∃ w, m.world.Loads w ∧ unwind base exception m =
        .ok () { m with
          world := w
          frames := { f with
            stack := ⟨[.reference exception], 1, f.stack.maxStack⟩
            pc := h.handlerPc.toNat } :: below }) ∧
    (∀ upper lower, m.frames = upper ++ lower → lower.length = base →
      (∀ g ∈ upper, g.Passes m.world c) →
      ∃ w l callers message, m.world.Loads w ∧
        (m.frames.map fun f => Location.mk (m.world.classes.name f.owner).text
          f.method.signature.name f.pc) = l :: callers ∧
        (∀ text, message = some text ↔ m.world.HasMessage exception text) ∧
        unwind base exception m = .error (.execution none l callers
          (.uncaughtException (m.world.classes.name c).dotted message))
            { m with world := w, frames := lower }) ∧
    ∀ upper lower, m.frames = upper ++ lower → lower.length = base →
      (∀ g ∈ upper, g.Passes m.world c) ∨ ∃ past f below, upper = past ++ f :: below ∧
        (∀ g ∈ past, g.Passes m.world c) ∧
        ((∃ h, f.Takes m.world c h) ∨ f.Misleads m.world c) := by
  refine ⟨?_, ?_, ?_⟩
  · intro past f below h frames high passes takes room
    exact unwind_of_takes linked object hc frames high passes takes room
  · intro upper lower frames bottom passes
    exact unwind_of_passes linked above object hc frames bottom passes
  · intro upper lower _ _
    exact search_cases m.world c upper

/-! A machine with an exception object and two frames, of which the one at the bottom has a handler
for its class. -/

def throwing : Method :=
  { owner := .scalar "app/Main"
    signature := ⟨"fail", [], none⟩
    flags := Bootstrap.publicFlag ||| Bootstrap.staticFlag
    body := some ⟨1, 0, #[0x01, 0xbf], []⟩ }

def catching : Method :=
  { throwing with
    signature := ⟨"run", [], none⟩
    body := some ⟨1, 0, #[0xb8, 0x00, 0x02, 0xb1, 0x57, 0xb1], [⟨0, 4, 4, 1⟩]⟩ }

def boomProgram : List ClassDefinition :=
  [{ ClassDefinition.ofName (.scalar "app/Boom") with superclass := some 0 },
    { ClassDefinition.ofName throwing.owner with
      superclass := some 0
      pool := .ofList [.className (.scalar "app/Boom"),
        .method ⟨throwing.owner, throwing.signature⟩]
      methods := [catching, throwing].map fun m => (m.signature, m.flags, m.body) }]

def bang : Reference × World :=
  match World.newString "bang" (World.ofProgram .working 0 boomProgram) with
  | .ok r w => (r, w)
  | .error _ w => (.null, w)

def boom : Reference × Heap :=
  bang.2.heap.allocate (.object 5 (FiniteMap.empty.insert "detailMessage" (.reference bang.1)))

def boomMachine : Machine :=
  { start { bang.2 with heap := boom.2 } .standard defaultCallDepth with
    frames := [⟨6, throwing, 1, 2, .empty 0, .empty 1⟩, ⟨6, catching, 0, 3, .empty 0, .empty 1⟩] }

set_option maxRecDepth 100000 in
theorem boomMachine_facts :
    boomMachine.world.classOf? boom.1 = some 5 ∧ 5 < boomMachine.world.classes.size ∧
      (boomMachine.world.classes.pool 6).classAt 1 = .ok (.scalar "app/Boom") ∧
      boomMachine.world.registry.get? (.scalar "app/Boom") = some 5 ∧
      (boomMachine.world.classes.name 5).dotted = "app.Boom" ∧
      (boomMachine.world.classes.name 6).text = "app/Main" ∧
      boomMachine.world.detailMessage? boom.1 = some "bang" := by
  decide +kernel

theorem linked_boomMachine : boomMachine.world.Linked := by
  have made := World.keeps_newString World.tolerated_linked.allocation "bang"
    (World.ofProgram .working 0 boomProgram) (World.linked_ofProgram .working 0 boomProgram)
  refine World.toleratesHeap_linked.heap _ _ ?_
  unfold bang
  split
  all_goals
    rename_i done
    rw [done] at made
    exact made

/-- With the whole call stack above the base, the handler at the bottom takes the exception. With
that frame below the base, nothing does. -/
theorem unwind_dispatches_boom :
    (∃ w : World, unwind 0 boom.1 boomMachine = .ok () { boomMachine with
        world := w
        frames := [⟨6, catching, 4, 3, .empty 0, ⟨[.reference boom.1], 1, 1⟩⟩] }) ∧
    ∃ w : World, unwind 1 boom.1 boomMachine =
      .error (.execution none ⟨"app/Main", "fail", 1⟩ [⟨"app/Main", "run", 0⟩]
        (.uncaughtException "app.Boom" (some "bang")))
        { boomMachine with world := w, frames := [⟨6, catching, 0, 3, .empty 0, .empty 1⟩] } := by
  obtain ⟨object, known, read, found, named, owned, told⟩ := boomMachine_facts
  have loaded : World.loadClass (.scalar "app/Boom") boomMachine.world =
      .ok 5 boomMachine.world := by
    simp only [World.loadClass, World.loadScalar, found]
  have passes : ∀ g ∈ [Frame.mk 6 throwing 1 2 (.empty 0) (.empty 1)],
      g.Passes boomMachine.world 5 := by
    intro g member
    cases List.mem_singleton.1 member
    intro h listed
    cases listed
  have takes : (Frame.mk 6 catching 0 3 (.empty 0) (.empty 1)).Takes boomMachine.world 5
      ⟨0, 4, 4, 1⟩ := by
    refine ⟨[], [], rfl, ?_, rfl, ?_⟩
    · intro h listed
      cases listed
    · exact .inr ⟨_, 5, _, read, loaded, ClassTable.isAssignable_refl _ 5⟩
  constructor
  · have above : 0 < boomMachine.depth := by decide
    have dispatch := (unwind_dispatches linked_boomMachine above object known).1
    obtain ⟨w, -, caught⟩ := dispatch [_] _ [] _ rfl (Nat.le_refl 0) passes takes (Nat.le_refl 1)
    exact ⟨w, caught⟩
  · have above : 1 < boomMachine.depth := by decide
    have dispatch := (unwind_dispatches linked_boomMachine above object known).2.1
    obtain ⟨w, l, callers, message, -, places, iff, uncaught⟩ := dispatch [_] [_] rfl rfl passes
    obtain rfl := (iff "bang").2 (World.detailMessage?_eq_some_iff.1 told)
    have frames : boomMachine.frames = [⟨6, throwing, 1, 2, .empty 0, .empty 1⟩,
        ⟨6, catching, 0, 3, .empty 0, .empty 1⟩] := rfl
    rw [frames, List.map_cons, List.map_cons, List.map_nil, owned] at places
    obtain ⟨rfl, rfl⟩ := List.cons.inj places
    rw [named] at uncaught
    exact ⟨w, uncaught⟩

end Machine

end JavaMachine
