import JavaMachine.Proofs.Invocations
import JavaMachine.Proofs.Loading

/-!
# Names of classes

A class that is found under a name has it, one that stands for a primitive type has its keyword,
and every array class has a component class of the type that it is named for. Loading preserves
this, and so does the definition of classes that are not named like arrays. A class of a name may be
defined again, so the component class of an array class is known by its name only.
-/
namespace JavaMachine

def FieldType.className : FieldType → ClassName
  | primitive p => .scalar p.keyword
  | object name => .scalar name
  | array type => .array type

namespace ClassTable

variable {t t' : ClassTable} {c k : ClassId} {d : Class}

theorem agree_push (t : ClassTable) (d : Class) : Agree t.size t (t.push d) := by
  intro i below
  rw [get?_push, if_neg (Nat.ne_of_lt below)]

theorem name_push_self (t : ClassTable) (d : Class) : (t.push d).name t.size = d.name := by
  rw [name, get?_push, if_pos rfl]

theorem lt_size_of_array {type : FieldType} (h : t.name c = .array type) : c < t.size := by
  by_contra above
  rw [name, get?_eq_none (Nat.not_lt.1 above)] at h
  cases h

theorem isAssignable_of_name_eq (h : t.name c = t.name k) : t.isAssignable c k = true := by
  rw [isAssignable_eq, sameName, h]
  simp

end ClassTable

namespace World

variable {w w' : World} {c k : ClassId} {type : FieldType}

/-- Classes have the names that they are found under, and array classes have components of the type
they are named for. -/
structure Named (w : World) : Prop extends linked : Linked w where
  names : ∀ name k, w.registry.get? name = some k → w.classes.name k = name
  keywords : ∀ p k, w.primitives.get? p = some k → w.classes.name k = .scalar p.keyword
  components : ∀ c type, w.classes.name c = .array type →
    ∃ k, w.classes.component? c = some k ∧ w.classes.name k = type.className

namespace Named

variable (h : w.Named)
include h

theorem name_of_finds (found : w.Finds type c) : w.classes.name c = type.className := by
  cases type with
  | primitive p => exact h.keywords p c found
  | object name => exact h.names (.scalar name) c found
  | array type => exact h.names (.array type) c found

theorem lt_size_of_finds (found : w.Finds type c) : c < w.classes.size := by
  cases type with
  | primitive p => exact h.linked.primitives p c found
  | object name => exact h.linked.registry (.scalar name) c found
  | array type => exact h.linked.registry (.array type) c found

theorem of_same (classes : w'.classes = w.classes) (registry : w'.registry = w.registry)
    (primitives : w'.primitives = w.primitives) : w'.Named := by
  refine ⟨h.linked.of_same classes registry primitives, ?_, ?_, ?_⟩
  · rw [classes, registry]
    exact h.names
  · rw [classes, primitives]
    exact h.keywords
  · rw [classes]
    exact h.components

theorem of_push {d : Class} (linked : w'.Linked) (classes : w'.classes = w.classes.push d)
    (names : ∀ name k, w'.registry.get? name = some k →
      w.registry.get? name = some k ∨ k = w.classes.size ∧ name = d.name)
    (keywords : ∀ p k, w'.primitives.get? p = some k →
      w.primitives.get? p = some k ∨ k = w.classes.size ∧ d.name = .scalar p.keyword)
    (components : ∀ type, d.name = .array type →
      ∃ k, d.component = some k ∧ k < w.classes.size ∧ w.classes.name k = type.className) :
    w'.Named := by
  have agree := w.classes.agree_push d
  have same {k : ClassId} (below : k < w.classes.size) : w'.classes.name k = w.classes.name k := by
    rw [classes, agree.name_eq below]
  have new : w'.classes.name w.classes.size = d.name := by
    rw [classes, ClassTable.name_push_self]
  refine { linked := linked, names := ?_, keywords := ?_, components := ?_ }
  · intro name k found
    rcases names name k found with before | ⟨rfl, rfl⟩
    · rw [same (h.linked.registry name k before), h.names name k before]
    · exact new
  · intro p k found
    rcases keywords p k found with before | ⟨rfl, keyword⟩
    · rw [same (h.linked.primitives p k before), h.keywords p k before]
    · rw [new, keyword]
  · intro c type named
    have inside := ClassTable.lt_size_of_array named
    rw [classes, ClassTable.size_push] at inside
    rcases Nat.lt_succ_iff_lt_or_eq.1 inside with below | rfl
    · rw [same below] at named
      obtain ⟨k, component, name⟩ := h.components c type named
      have lower := Nat.lt_trans (ClassTable.component?_lt component) below
      exact ⟨k, by rw [classes, agree.component?_eq below, component], by rw [same lower, name]⟩
    · rw [new] at named
      obtain ⟨k, component, below, name⟩ := components type named
      refine ⟨k, ?_, by rw [same below, name]⟩
      rw [classes, ClassTable.component?, ClassTable.get?_push, if_pos rfl]
      simp [component, ClassTable.earlier, below]

theorem addClass {d : Class} (components : ∀ type, d.name = .array type →
    ∃ k, d.component = some k ∧ k < w.classes.size ∧ w.classes.name k = type.className) :
    (w.addClass d).2.Named := by
  refine h.of_push (h.linked.addClass d) rfl ?_ (fun p k found => .inl found) components
  intro name k found
  simp only [World.addClass] at found
  rw [FiniteMap.get?_insert] at found
  split at found
  · rename_i same
    cases found
    exact .inr ⟨rfl, same⟩
  · exact .inl found

theorem markInitialized (c : ClassId) : (w.markInitialized c).Named := by
  obtain ⟨initialized, marked⟩ := markInitialized_eq w c
  rw [marked]
  exact h.of_same rfl rfl rfl

theorem define {d : ClassDefinition} (scalar : d.name.isArray = false) : (w.define d).2.Named := by
  refine h.addClass fun type named => ?_
  rw [show d.name = .array type from named] at scalar
  cases scalar

end Named

/-- Loading leaves the names right. -/
theorem toleratesLoading_named : ToleratesLoading fun w w' => w.Named → w'.Named where
  marked _ c _ _ h := h.markInitialized c
  primitive w p h := by
    refine h.of_push (tolerated_linked.primitive w p h.linked) rfl (fun _ _ found => .inl found) ?_
      fun type named => by cases named
    intro q k found
    rw [FiniteMap.get?_insert] at found
    split at found
    · rename_i same
      cases found
      exact .inr ⟨rfl, same ▸ rfl⟩
    · exact .inl found
  array w type component flags object _ found _ h := by
    refine (h.addClass fun type' named => ?_).markInitialized _
    cases named
    exact ⟨component, rfl, h.lt_size_of_finds found, h.name_of_finds found⟩

/-! ### Definitions and loading -/

theorem named_empty (console : Console) (clock : Nat) : (World.empty console clock).Named := by
  refine { registry := ?_, primitives := ?_, names := ?_, keywords := ?_, components := ?_ }
  · rintro name k ⟨⟩
  · rintro p k ⟨⟩
  · rintro name k ⟨⟩
  · rintro p k ⟨⟩
  · rintro c type named
    exact absurd (ClassTable.lt_size_of_array named) (Nat.not_lt_zero c)

/-- The classes of the world are there by definition, of classes that are not named like arrays, and
by loading. Whatever else there is may be anything. -/
inductive Defined : World → Prop
  | empty (console : Console) (clock : Nat) : Defined (World.empty console clock)
  | define {w : World} {d : ClassDefinition} (h : Defined w) (scalar : d.name.isArray = false) :
      Defined (w.define d).2
  | load {w : World} (h : Defined w) (name : ClassName) : Defined (endState (loadClass name w))
  | same {w w' : World} (h : Defined w) (classes : w'.classes = w.classes)
      (registry : w'.registry = w.registry) (primitives : w'.primitives = w.primitives) : Defined w'

theorem Defined.named (h : w.Defined) : w.Named := by
  induction h with
  | empty console clock => exact named_empty console clock
  | define _ scalar ih => exact ih.define scalar
  | load _ name ih => exact keeps_loadClass toleratesLoading_named name _ ih
  | same _ classes registry primitives ih => exact ih.of_same classes registry primitives

theorem defined_start (console : Console) (clock : Nat) : (start console clock).Defined :=
  start_induction (.empty console clock) (fun _ _ scalar h => h.define scalar)
    fun _ _ classes registry primitives h => h.same classes registry primitives

theorem defined_ofProgram (console : Console) (clock : Nat) {program : List ClassDefinition}
    (scalar : ∀ d ∈ program, d.name.isArray = false) :
    (ofProgram console clock program).Defined :=
  program.foldlRecOn (motive := Defined) _ (defined_start console clock) fun _ h d member =>
    h.define (scalar d member)

end World

end JavaMachine
