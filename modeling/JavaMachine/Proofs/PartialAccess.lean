import JavaMachine.Native.Hook
import JavaMachine.Proofs.PartialOperations

/-!
# Access to arrays by partial operations

Reading and replacing an element and copying a range, with the partial operations in place of the
total ones. The indexes are signed, so every one of them is compared with the bounds before it is
made a natural number, and a range is checked as a whole before it is cut out.
-/
namespace JavaMachine

namespace World

variable {α : Type} (w : World) (r : Reference)

/-! ### Single elements -/

/-- The position of an index, which is a natural number once it is known not to be negative. -/
def checkIndex? (index : Int32) (length : Nat) : Option (Except Error Nat) :=
  if index.toInt < 0 then some (.error (.arrayIndexOutOfBounds index length))
  else do
    let i ← natural? index.toInt
    return if length ≤ i then .error (.arrayIndexOutOfBounds index length) else .ok i

theorem checkIndex?_eq (index : Int32) (length : Nat) :
    checkIndex? index length = some (checkIndex index length) := by
  unfold checkIndex? checkIndex position?
  by_cases negative : index.toInt < 0
  · rw [if_pos negative, if_neg (by omega)]
  · rw [if_neg negative, natural?_eq (by omega), Option.bind_eq_bind, Option.bind_some]
    by_cases beyond : length ≤ index.toInt.toNat
    · rw [if_pos beyond, if_neg (by omega)]
      rfl
    · rw [if_neg beyond, if_pos (by omega)]
      rfl

theorem checkIndex_lt {index : Int32} {length i : Nat} (h : checkIndex index length = .ok i) :
    i < length := by
  unfold checkIndex at h
  split at h <;> cases h
  exact position?_lt (by assumption)

def elementAt? (elements : Array α) (index : Int32) : Option (Except Error α) := do
  match ← checkIndex? index elements.size with
  | .error e => return .error e
  | .ok i => return .ok (← elements[i]?)

theorem elementAt?_eq (elements : Array α) (index : Int32) (otherwise : α) :
    elementAt? elements index =
      some ((checkIndex index elements.size).map fun i => elements.getD i otherwise) := by
  unfold elementAt?
  rw [checkIndex?_eq, Option.bind_eq_bind, Option.bind_some]
  cases found : checkIndex index elements.size with
  | error e => rfl
  | ok i =>
    have inside := checkIndex_lt found
    simp [Array.getD, inside, Except.map]

/-- Replaces the element at the position of an index, where one has to be. -/
def writeAt? (elements : Array α) (index : Int32) (write : Nat → Operation Unit) :
    Option (EStateM.Result Error World Unit) := do
  match ← checkIndex? index elements.size with
  | .error e => return .error e w
  | .ok i =>
    let _ ← elements[i]?
    return write i w

theorem writeAt?_eq (elements : Array α) (index : Int32) (write : Nat → Operation Unit) :
    w.writeAt? elements index write =
      some ((ofExcept (checkIndex index elements.size) >>= write : Operation Unit) w) := by
  unfold writeAt?
  rw [checkIndex?_eq, Option.bind_eq_bind, Option.bind_some]
  cases found : checkIndex index elements.size with
  | error e => rfl
  | ok i =>
    simp only [Array.getElem?_eq_getElem (checkIndex_lt found)]
    rfl

/-- A position in an array of primitives is one in its elements, if the type is right. -/
theorem storagePosition_eq (s : Storage) (p : Primitive) (index : Int32) :
    s.position p index =
      if s.type = p then checkIndex index s.elements.size else .error (s.mismatch p) := rfl

def readScalar? (p : Primitive) (index : Int32) : Option (Except Error Scalar) :=
  match w.primitiveArray r with
  | .error e => some (.error e)
  | .ok (_, s) => if s.type = p then elementAt? s.elements index else some (.error (s.mismatch p))

def readReference? (index : Int32) : Option (Except Error Reference) :=
  match w.referenceArray r with
  | .error e => some (.error e)
  | .ok (_, elements) => elementAt? elements index

def writeScalar? (index : Int32) (e : Scalar) : Option (EStateM.Result Error World Unit) :=
  match w.primitiveArray r with
  | .error e => some (.error e w)
  | .ok (_, s) =>
    if s.type = e.type then w.writeAt? s.elements index fun i => modifyEntity r (.setScalar i e)
    else some (.error (s.mismatch e.type) w)

def writeReference? (index : Int32) (element : Reference) :
    Option (EStateM.Result Error World Unit) :=
  match w.referenceArray r with
  | .error e => some (.error e w)
  | .ok (_, elements) =>
    w.writeAt? elements index fun i => modifyEntity r (.setReference i element)

theorem readScalar?_eq (p : Primitive) (index : Int32) :
    w.readScalar? r p index = some (w.readScalar r p index) := by
  unfold readScalar? readScalar
  cases w.primitiveArray r with
  | error e => rfl
  | ok found =>
    obtain ⟨_, s⟩ := found
    change _ = some (s.read p index)
    unfold Storage.read
    rw [storagePosition_eq]
    by_cases same : s.type = p
    · simp only [if_pos same, elementAt?_eq s.elements index (.zero p)]
      cases checkIndex index s.elements.size <;> rfl
    · simp only [if_neg same]
      rfl

theorem readReference?_eq (index : Int32) :
    w.readReference? r index = some (w.readReference r index) := by
  unfold readReference? readReference
  cases w.referenceArray r with
  | error e => rfl
  | ok found =>
    obtain ⟨_, elements⟩ := found
    simp only [elementAt?_eq elements index .null]
    cases checked : checkIndex index elements.size <;> simp [bind, Except.bind, checked] <;> rfl

theorem writeScalar?_eq (index : Int32) (e : Scalar) :
    w.writeScalar? r index e = some (writeScalar r index e w) := by
  unfold writeScalar? writeScalar
  rw [get_bind]
  cases w.primitiveArray r with
  | error e => rfl
  | ok found =>
    obtain ⟨_, s⟩ := found
    by_cases same : s.type = e.type
    · simp only [if_pos same, writeAt?_eq]
      change _ = some ((ofExcept (s.position e.type index) >>= _ : Operation Unit) w)
      rw [storagePosition_eq, if_pos same]
    · simp only [if_neg same]
      change _ = some ((ofExcept (s.position e.type index) >>= _ : Operation Unit) w)
      rw [storagePosition_eq, if_neg same]
      rfl

theorem writeReference?_eq (index : Int32) (element : Reference) :
    w.writeReference? r index element = some (writeReference r index element w) := by
  unfold writeReference? writeReference
  rw [get_bind]
  cases w.referenceArray r with
  | error e => rfl
  | ok found =>
    obtain ⟨_, elements⟩ := found
    exact w.writeAt?_eq elements index _

/-! ### Ranges -/

/-- Checks that a range lies in an array and gives its start. The sum of two indexes has room in 64
bits. -/
def checkRange? (position length : Int32) (size : Nat) : Option (Except Error Nat) :=
  let last := position.toInt + length.toInt
  if position.toInt < 0 then some (.error (.arrayIndexOutOfBounds position size))
  else if (size : Int) < last then
    some (.error (.arrayIndexOutOfBounds (Int32.ofInt (min last maxInt)) size))
  else do return .ok (← natural? position.toInt)

def checkRanges? (sourcePosition : Int32) (sourceSize : Nat) (targetPosition : Int32)
    (targetSize : Nat) (length : Int32) : Option (Except Error (Nat × Nat × Nat)) :=
  if length.toInt < 0 then some (.error (.arrayIndexOutOfBounds length sourceSize))
  else do
    match ← checkRange? sourcePosition length sourceSize with
    | .error e => return .error e
    | .ok start =>
      match ← checkRange? targetPosition length targetSize with
      | .error e => return .error e
      | .ok position => return .ok (start, position, ← natural? length.toInt)

/-- Writes the elements one after the other from a position on, up to the first that does not fit.
What is left is given back. -/
def fill? (fits : α → Bool) : Array α → Nat → List α → Option (Array α × List α)
  | target, _, [] => some (target, [])
  | target, position, a :: rest =>
    if fits a then do
      let target ← replaceAt? target position a
      fill? fits target (position + 1) rest
    else some (target, a :: rest)

def copyScalars? (s : Storage) (sourcePosition : Int32) (t : Storage) (target : Reference)
    (targetPosition length : Int32) : Option (EStateM.Result Error World Unit) := do
  match ← checkRanges? sourcePosition s.size targetPosition t.size length with
  | .error e => return .error e w
  | .ok (start, position, count) =>
    let range ← slice? s.elements start (start + count)
    let room ← slice? t.elements position (position + count)
    if range.size = room.size then
      return modifyEntity target (.overwriteScalars position (s.extract start count)) w
    else none

/-- Copies a range of references. The range is cut out, and its elements are written one by one. -/
def copyReferences? (s : Array Reference) (sourcePosition : Int32) (c : ClassId)
    (t : Array Reference) (target : Reference) (targetPosition length : Int32) :
    Option (EStateM.Result Error World Unit) := do
  match ← checkRanges? sourcePosition s.size targetPosition t.size length with
  | .error e => return .error e w
  | .ok (start, position, count) =>
    let range ← slice? s start (start + count)
    let (copied, left) ← fill? (w.storable c) t position range.toList
    let w' := { w with heap := w.heap.modify target fun _ => .references c copied }
    match left with
    | [] => return .ok () w'
    | misfit :: _ =>
      return .error (.arrayStore (w'.dottedClass misfit) (w'.classes.name c).dotted) w'

/-- Copies a range of one array into another. -/
def arrayCopy? (source : Reference) (sourcePosition : Int32) (target : Reference)
    (targetPosition length : Int32) : Option (EStateM.Result Error World Unit) :=
  match w.heap.get? source, w.heap.get? target with
  | none, _ | _, none => some (.error .nullPointer w)
  | some (.primitives _ s), some (.primitives _ t) =>
    if s.type = t.type then w.copyScalars? s sourcePosition t target targetPosition length
    else some (.error (w.incompatibleArrays source target) w)
  | some (.references _ s), some (.references c t) =>
    w.copyReferences? s sourcePosition c t target targetPosition length
  | some _, some _ => some (.error (w.incompatibleArrays source target) w)

theorem checkRange?_eq (position length : Int32) (size : Nat) :
    checkRange? position length size = some (checkRange position length size) := by
  unfold checkRange? checkRange
  by_cases negative : position.toInt < 0
  · simp only [if_pos negative]
  · simp only [if_neg negative, natural?_eq (Int.not_lt.1 negative)]
    split <;> rfl

theorem checkRange_eq_ok {position length : Int32} {size start : Nat}
    (h : checkRange position length size = .ok start) (nonneg : 0 ≤ length.toInt) :
    start + length.toInt.toNat ≤ size := by
  unfold checkRange at h
  dsimp only at h
  split at h
  · cases h
  · split at h <;> cases h
    omega

theorem checkRanges?_eq (sourcePosition : Int32) (sourceSize : Nat) (targetPosition : Int32)
    (targetSize : Nat) (length : Int32) :
    checkRanges? sourcePosition sourceSize targetPosition targetSize length =
      some ((checkRanges sourcePosition sourceSize targetPosition targetSize length).map
        fun starts => (starts.1, starts.2, length.toInt.toNat)) := by
  unfold checkRanges? checkRanges
  by_cases negative : length.toInt < 0
  · simp only [if_pos negative]
    rfl
  · simp only [if_neg negative, checkRange?_eq, natural?_eq (Int.not_lt.1 negative),
      Option.bind_eq_bind, Option.bind_some]
    cases checkRange sourcePosition length sourceSize with
    | error e => rfl
    | ok start =>
      cases checkRange targetPosition length targetSize <;> rfl

theorem checkRanges_eq_ok {sourcePosition targetPosition length : Int32}
    {sourceSize targetSize start position : Nat}
    (h : checkRanges sourcePosition sourceSize targetPosition targetSize length =
      .ok (start, position)) :
    start + length.toInt.toNat ≤ sourceSize ∧ position + length.toInt.toNat ≤ targetSize := by
  unfold checkRanges at h
  by_cases negative : length.toInt < 0
  · simp only [if_pos negative] at h
    cases h
  · simp only [if_neg negative] at h
    cases first : checkRange sourcePosition length sourceSize with
    | error e =>
      rw [first] at h
      cases h
    | ok i =>
      cases second : checkRange targetPosition length targetSize with
      | error e =>
        rw [first, second] at h
        cases h
      | ok j =>
        rw [first, second] at h
        cases h
        exact ⟨checkRange_eq_ok first (Int.not_lt.1 negative),
          checkRange_eq_ok second (Int.not_lt.1 negative)⟩

theorem fill?_eq (fits : α → Bool) {target : Array α} {position : Nat} {range : List α}
    (room : position + range.length ≤ target.size) :
    fill? fits target position range = some
      (Storage.splice target position (range.takeWhile fits),
        range.drop (range.takeWhile fits).length) := by
  induction range generalizing target position with
  | nil => rfl
  | cons a rest ih =>
    unfold fill?
    simp only [List.length_cons] at room
    by_cases fit : fits a
    · rw [if_pos fit, replaceAt?_eq (by omega), Option.bind_eq_bind, Option.bind_some, ih,
        List.takeWhile_cons_of_pos fit]
      · rfl
      · rw [Array.size_setIfInBounds]
        omega
    · rw [if_neg fit, List.takeWhile_cons_of_neg fit]
      rfl

theorem copyScalars?_eq (s : Storage) (sourcePosition : Int32) (t : Storage) (target : Reference)
    (targetPosition length : Int32) :
    w.copyScalars? s sourcePosition t target targetPosition length = some
      ((do
        let (start, position) ←
          ofExcept (checkRanges sourcePosition s.size targetPosition t.size length)
        modifyEntity target
          (.overwriteScalars position (s.extract start length.toInt.toNat)) :
          Operation Unit) w) := by
  unfold copyScalars?
  rw [checkRanges?_eq, Option.bind_eq_bind, Option.bind_some]
  cases checked : checkRanges sourcePosition s.size targetPosition t.size length with
  | error e => rfl
  | ok starts =>
    obtain ⟨start, position⟩ := starts
    obtain ⟨first, second⟩ := checkRanges_eq_ok checked
    simp only [Except.map, slice?_eq (Nat.le_add_right _ _) (show _ ≤ s.elements.size from first),
      slice?_eq (Nat.le_add_right _ _) (show _ ≤ t.elements.size from second), Option.bind_eq_bind,
      Option.bind_some]
    rw [if_pos]
    · rfl
    · unfold Storage.size at first second
      simp only [Array.size_extract]
      omega

theorem modify_congr {h : Heap} {e : Entity} (here : h.get? r = some e) {f g : Entity → Entity}
    (same : f e = g e) : h.modify r f = h.modify r g := by
  cases r with
  | null => rfl
  | entity address =>
    have found : h.entities[address]? = some e := here
    have entities : h.entities.modify address f = h.entities.modify address g := by
      refine Array.ext_getElem? fun i => ?_
      simp only [Array.getElem?_modify]
      by_cases there : address = i
      · subst there
        simp [found, same]
      · simp [there]
    unfold Heap.modify
    simp only [entities]

theorem copyReferences?_eq {s : Array Reference} {c : ClassId} {t : Array Reference}
    {target : Reference} (here : w.heap.get? target = some (.references c t))
    (sourcePosition targetPosition length : Int32) :
    w.copyReferences? s sourcePosition c t target targetPosition length = some
      ((do
        let (start, position) ←
          ofExcept (checkRanges sourcePosition s.size targetPosition t.size length)
        let range := (s.extract start (start + length.toInt.toNat)).toList
        let fitting := range.takeWhile (w.storable c)
        modifyEntity target (.overwriteReferences position fitting)
        match range.drop fitting.length with
        | [] => return ()
        | misfit :: _ =>
          let w ← get
          throw (.arrayStore (w.dottedClass misfit) (w.classes.name c).dotted) :
          Operation Unit) w) := by
  unfold copyReferences?
  rw [checkRanges?_eq, Option.bind_eq_bind, Option.bind_some]
  cases checked : checkRanges sourcePosition s.size targetPosition t.size length with
  | error e => rfl
  | ok starts =>
    obtain ⟨start, position⟩ := starts
    obtain ⟨first, second⟩ := checkRanges_eq_ok checked
    let range := (s.extract start (start + length.toInt.toNat)).toList
    let fitting := range.takeWhile (w.storable c)
    have room : position + range.length ≤ t.size := by
      simp only [range, Array.length_toList, Array.size_extract]
      omega
    have written :
        (w.heap.modify target fun _ => .references c (Storage.splice t position fitting)) =
          w.heap.modify target (.overwriteReferences position fitting) :=
      modify_congr target here rfl
    have filled : fill? (w.storable c) t position
        (s.extract start (start + length.toInt.toNat)).toList =
          some (Storage.splice t position fitting, range.drop fitting.length) := fill?_eq _ room
    simp only [Except.map, slice?_eq (Nat.le_add_right _ _) first, Option.bind_eq_bind,
      Option.bind_some, filled, written]
    change _ = some ((match range.drop fitting.length with
      | [] => pure ()
      | misfit :: _ => do
        let w ← get
        throw (.arrayStore (w.dottedClass misfit) (w.classes.name c).dotted) : Operation Unit) _)
    cases range.drop fitting.length <;> rfl

theorem arrayCopy?_eq (source : Reference) (sourcePosition : Int32) (target : Reference)
    (targetPosition length : Int32) :
    w.arrayCopy? source sourcePosition target targetPosition length =
      some (arrayCopy source sourcePosition target targetPosition length w) := by
  unfold arrayCopy? arrayCopy
  rw [get_bind]
  cases hs : w.heap.get? source with
  | none => rfl
  | some e =>
    cases ht : w.heap.get? target with
    | none => cases e <;> rfl
    | some e' =>
      cases e <;> cases e' <;> try rfl
      case primitives.primitives _ s _ t =>
        by_cases same : s.type = t.type
        · simp only [if_pos same]
          exact w.copyScalars?_eq s sourcePosition t target targetPosition length
        · simp only [if_neg same]
          rfl
      case references.references _ s c t =>
        exact w.copyReferences?_eq ht sourcePosition targetPosition length

end World

end JavaMachine
