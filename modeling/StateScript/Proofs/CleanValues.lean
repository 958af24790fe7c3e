import StateScript.Proofs.FaithfulWrites
import StateScript.Proofs.HiddenNames
import StateScript.Proofs.Replacements

/-!
Values without denied names. Writes keep them so, and among them a value is put in place at a path by the
write that creates what is missing, since there nothing is missing.
-/

namespace StateScript

theorem isDenied_of_position? {name : String} {i : Nat} (position : position? name = some i) :
    isDenied name = false := by
  have missing : ∀ denied ∈ deniedNames, position? denied = none := by decide
  by_contra denied
  rw [missing name (by simpa [isDenied] using denied)] at position
  cases position

theorem isDenied_toString (i : Nat) : isDenied (toString i) = false := by
  refine isDenied_of_not_mem ?_
  simpa [Decimal.numeral] using Decimal.not_mem_numeral i

theorem Segment.isDenied_text {segment : Segment} (allowed : Direct.deniedSegment segment = false) :
    isDenied segment.text = false := by
  cases segment with
  | key name => exact allowed
  | index i => exact isDenied_toString i
  | wildcard => decide

namespace Json

/-- Nothing in a value is found at a path through a denied name. -/
def Clean (value : Json) : Prop :=
  ∀ path, (value.get? path).isSome = true → path.any Direct.deniedSegment = false

theorem clean_iff {value : Json} : value.Clean ↔ ∀ segment child, value.child? segment = some child →
    Direct.deniedSegment segment = false ∧ child.Clean := by
  constructor
  · intro clean segment child found
    have through (path : Path) (there : (child.get? path).isSome = true) :
        Direct.deniedSegment segment = false ∧ path.any Direct.deniedSegment = false := by
      have whole := clean (segment :: path) (by rw [get?, found]; exact there)
      simpa only [List.any_cons, Bool.or_eq_false_iff] using whole
    exact ⟨(through [] rfl).1, fun path there => (through path there).2⟩
  · intro children path there
    cases path with
    | nil => rfl
    | cons segment rest =>
      obtain ⟨below, found⟩ := Option.isSome_iff_exists.mp there
      obtain ⟨child, hit, further⟩ := Option.bind_eq_some_iff.mp found
      obtain ⟨allowed, clean⟩ := children segment child hit
      rw [List.any_cons, allowed, clean rest (by simp [further])]
      rfl

theorem child?_array {items : List Json} {segment : Segment} {child : Json}
    (found : (array items).child? segment = some child) :
    Direct.deniedSegment segment = false ∧ child ∈ items := by
  cases segment with
  | index i => exact ⟨rfl, List.mem_of_getElem? found⟩
  | key name =>
    obtain ⟨i, position, there⟩ := Option.bind_eq_some_iff.mp found
    exact ⟨isDenied_of_position? position, List.mem_of_getElem? there⟩
  | wildcard => cases found

theorem clean_array {items : List Json} : (array items).Clean ↔ ∀ item ∈ items, item.Clean := by
  rw [clean_iff]
  constructor
  · intro children item member
    obtain ⟨i, there⟩ := List.mem_iff_getElem?.mp member
    exact (children (.index i) item there).2
  · intro clean segment child found
    obtain ⟨allowed, member⟩ := child?_array found
    exact ⟨allowed, clean child member⟩

theorem clean_object {ms : Members} : (object ms).Clean ↔ ∀ name value, Members.find? name ms = some value →
    isDenied name = false ∧ value.Clean := by
  rw [clean_iff]
  constructor
  · exact fun children name value found => children (.key name) value found
  · intro clean segment child found
    cases segment with
    | key name => exact clean name child found
    | index i => exact ⟨rfl, (clean (toString i) child found).2⟩
    | wildcard => cases found

theorem clean_of_leaf {value : Json} (leaf : ∀ segment, value.child? segment = none) : value.Clean :=
  clean_iff.mpr fun segment child found => by
    rw [leaf] at found
    cases found

theorem clean_null : null.Clean := clean_of_leaf fun segment => by cases segment <;> rfl

theorem clean_emptyFor (segment : Segment) : (emptyFor segment).Clean := by
  cases segment with
  | index => exact clean_array.mpr (by simp)
  | key | wildcard => exact clean_object.mpr fun name value found => by cases found

section

variable {value new : Json} (clean : value.Clean) (cleanNew : new.Clean)

include clean

theorem Clean.prepared (path : Path) : (value.prepared path).Clean := by
  unfold Json.prepared
  split
  · split
    · exact clean_emptyFor _
    · exact clean
  · exact clean

theorem Clean.started (path : Path) : (value.started path).Clean := by
  unfold Json.started
  split
  · exact clean_emptyFor _
  · exact clean_object.mpr fun name value found => by cases found
  · exact clean

theorem Clean.getD {slot : Option Json} (found : ∀ child, slot = some child → child.Clean) :
    (slot.getD value).Clean := by
  cases slot with
  | none => exact clean
  | some child => exact found child rfl

omit clean

include cleanNew

theorem Clean.insert {ms : Members} (cleanMembers : (object ms).Clean) {name : String}
    (allowed : isDenied name = false) : (object (Members.insert name new ms)).Clean := by
  refine clean_object.mpr fun other value found => ?_
  by_cases same : other = name
  · rw [same, Members.find?_insert_self] at found
    cases found
    exact ⟨same ▸ allowed, cleanNew⟩
  · rw [Members.find?_insert_ne same] at found
    exact clean_object.mp cleanMembers other value found

/-- A write into a clean value leaves it clean, whether it gets to its end or not. -/
theorem Clean.writeBelow {value : Json} (clean : value.Clean) {path : Path} (permitted : forbidden? path = none) :
    (writeBelow value path new).1.Clean := by
  induction path generalizing value with
  | nil => exact cleanNew
  | cons segment rest ih =>
    obtain ⟨plain, allowed, further⟩ := forbidden?_cons_eq_none_iff.mp permitted
    cases value with
    | object ms =>
      have old : ((Members.find? segment.text ms).getD .null).Clean :=
        clean_null.getD fun child found => (clean_object.mp clean segment.text child found).2
      have below := ih (old.prepared rest) further
      simp only [Json.writeBelow]
      exact below.insert clean (Segment.isDenied_text allowed)
    | array items =>
      simp only [Json.writeBelow]
      cases slot items segment with
      | error fault => exact clean
      | ok i =>
        have padding : ∀ item ∈ padded items i, item.Clean := by
          intro item member
          rcases List.mem_append.mp member with old | fill
          · exact clean_array.mp clean item old
          · rw [List.eq_of_mem_replicate fill]
            exact clean_null
        have old : ((padded items i).getD i .null).Clean :=
          clean_null.getD fun child found => padding child (List.mem_of_getElem? found)
        have below := ih (old.prepared rest) further
        refine clean_array.mpr fun item member => ?_
        rcases List.mem_or_eq_of_mem_set member with kept | rfl
        · exact padding item kept
        · exact below
    | _ => exact clean

theorem Clean.write {root : Json} (clean : root.Clean) (path : Path) : (write root path new).1.Clean := by
  unfold Json.write
  cases refused : forbidden? path with
  | some fault => exact clean
  | none => exact cleanNew.writeBelow (clean.started path) refused

end

theorem Clean.below {value child : Json} (clean : value.Clean) {path : Path}
    (found : value.get? path = some child) : child.Clean := by
  induction path generalizing value with
  | nil => exact Option.some.inj found ▸ clean
  | cons segment rest ih =>
    obtain ⟨between, hit, further⟩ := Option.bind_eq_some_iff.mp found
    exact ih (clean_iff.mp clean segment between hit).2 further

/-- What is found at a path without denied names is found at a path that may be written. -/
theorem forbidden?_of_get? {value child : Json} {path : Path} (found : value.get? path = some child)
    (allowed : path.any Direct.deniedSegment = false) : forbidden? path = none := by
  induction path generalizing value with
  | nil => rfl
  | cons segment rest ih =>
    obtain ⟨between, hit, further⟩ := Option.bind_eq_some_iff.mp found
    rw [List.any_cons, Bool.or_eq_false_iff] at allowed
    exact forbidden?_cons_eq_none_iff.mpr ⟨ne_wildcard_of_child? hit, allowed.1, ih further allowed.2⟩

theorem Clean.permits {value child : Json} (clean : value.Clean) {path : Path}
    (found : value.get? path = some child) : forbidden? path = none :=
  forbidden?_of_get? found (clean path (by rw [found]; rfl))

theorem slot_of_child? {items : List Json} {segment : Segment} {child : Json}
    (hit : (array items).child? segment = some child) : ∃ i, slot items segment = .ok i ∧
      items[i]? = some child ∧ ∀ new, (array items).setChild segment new = .array (items.set i new) := by
  rw [child?_items] at hit
  obtain ⟨i, place, there⟩ := Option.bind_eq_some_iff.mp hit
  obtain ⟨within, _⟩ := List.getElem?_eq_some_iff.mp there
  refine ⟨i, ?_, there, setChild_items place items⟩
  rw [slot_of_place? place]
  exact if_neg fun beyond => absurd within (Nat.not_lt.mpr beyond.1)

/-- A null has nothing below it. -/
theorem isNull_of_get? {value old : Json} {segment : Segment} {rest : Path}
    (found : value.get? (segment :: rest) = some old) : value.isNull = false := by
  cases value with
  | null => cases segment <;> cases found
  | _ => rfl

theorem prepared_of_get? {value old : Json} {path : Path} (found : value.get? path = some old) :
    value.prepared path = value := by
  cases path with
  | nil => rfl
  | cons => exact prepared_eq_self (isNull_of_get? found) _

theorem started_of_get? {value old : Json} {path : Path} (found : value.get? path = some old) :
    value.started path = value := by
  cases path with
  | nil => cases value <;> rfl
  | cons => exact started_eq_self (isNull_of_get? found) _

/-- Where a value is found already, a write puts the new one in its place and creates nothing. -/
theorem writeBelow_of_get? {value old : Json} {path : Path} (found : value.get? path = some old)
    (permitted : forbidden? path = none) (new : Json) :
    ∃ left, value.replace? path new = some left ∧ value.writeBelow path new = (left, none) := by
  induction path generalizing value with
  | nil => exact ⟨new, rfl, by cases value <;> rfl⟩
  | cons segment rest ih =>
    obtain ⟨plain, _, further⟩ := forbidden?_cons_eq_none_iff.mp permitted
    obtain ⟨child, hit, below⟩ := Option.bind_eq_some_iff.mp found
    obtain ⟨left, replaced, written⟩ := ih below further
    have put : value.replace? (segment :: rest) new = some (value.setChild segment left) := by
      rw [replace?_cons, hit, Option.bind_some, replaced, Option.map_some]
    refine ⟨_, put, ?_⟩
    cases value with
    | object ms =>
      have member : Members.find? segment.text ms = some child := (child?_object plain ms).symm.trans hit
      simp only [writeBelow, member, Option.getD_some, prepared_of_get? below, written]
      rfl
    | array items =>
      obtain ⟨i, addressed, there, puts⟩ := slot_of_child? hit
      obtain ⟨within, _⟩ := List.getElem?_eq_some_iff.mp there
      have item : items.getD i .null = child := by simp [List.getD, there]
      simp only [writeBelow, addressed, padded_eq_self within, item, prepared_of_get? below, written, puts]
    | null | bool | number | string => cases segment <;> cases hit

theorem write_of_get? {value old : Json} {path : Path} (found : value.get? path = some old)
    (permitted : forbidden? path = none) (new : Json) :
    ∃ left, value.replace? path new = some left ∧ value.write path new = (left, none) := by
  obtain ⟨left, replaced, written⟩ := writeBelow_of_get? found permitted new
  refine ⟨left, replaced, ?_⟩
  simp only [Json.write, permitted, started_of_get? found, written]

theorem Clean.write_of_get? {value old : Json} (clean : value.Clean) {path : Path}
    (found : value.get? path = some old) (new : Json) :
    ∃ left, value.replace? path new = some left ∧ value.write path new = (left, none) :=
  Json.write_of_get? found (clean.permits found) new

end Json

/-- What an edit puts into an array. -/
def ArrayEdit.values : ArrayEdit → List Json
  | append values | prepend values | splice _ _ values => values
  | dropLast | dropFirst => []

theorem ArrayEdit.mem_apply {edit : ArrayEdit} {items : List Json} {item : Json}
    (member : item ∈ edit.apply items) : item ∈ items ∨ item ∈ edit.values := by
  cases edit with
  | append values => exact List.mem_append.mp member
  | prepend values => exact (List.mem_append.mp member).symm
  | dropLast => exact Or.inl (List.mem_of_mem_dropLast member)
  | dropFirst => exact Or.inl (List.mem_of_mem_drop member)
  | splice start deleteCount values =>
    rcases List.mem_append.mp member with front | back
    · rcases List.mem_append.mp front with before | inserted
      · exact Or.inl (List.mem_of_mem_take before)
      · exact Or.inr inserted
    · exact Or.inl (List.mem_of_mem_drop back)

namespace World

section

variable {bindings : Members} (clean : (Json.object bindings).Clean) {first : String} {rest : Path}

include clean

theorem clean_assign {value : Json} (cleanValue : value.Clean) (allowed : isDenied first = false)
    (success : (assign first rest value bindings).2 = none) :
    (Json.object (assign first rest value bindings).1).Clean := by
  have slot : ((Members.find? first bindings).getD .null).Clean :=
    Json.clean_null.getD fun child found => (Json.clean_object.mp clean first child found).2
  rw [assign_of_success success]
  exact (cleanValue.write slot rest).insert clean allowed

/-- In a clean scope, to put a value in place at a path is to assign it. -/
theorem replaceBelow_eq_assign {old : Json}
    (found : (Members.find? first bindings).bind (Json.get? · rest) = some old) (new : Json) :
    assign first rest new bindings = (replaceBelow first rest new bindings, none) := by
  obtain ⟨slot, bound, below⟩ := Option.bind_eq_some_iff.mp found
  obtain ⟨_, cleanSlot⟩ := Json.clean_object.mp clean first slot bound
  obtain ⟨left, replaced, written⟩ := cleanSlot.write_of_get? below new
  simp only [assign, replaceBelow, bound, written, Option.bind_some, replaced]

theorem clean_apply {items : List Json} {edit : ArrayEdit} (cleanValues : ∀ v ∈ edit.values, v.Clean)
    (found : (Members.find? first bindings).bind (Json.get? · rest) = some (.array items)) :
    (Json.array (edit.apply items)).Clean := by
  obtain ⟨slot, bound, below⟩ := Option.bind_eq_some_iff.mp found
  obtain ⟨_, cleanSlot⟩ := Json.clean_object.mp clean first slot bound
  have cleanItems := Json.clean_array.mp (cleanSlot.below below)
  refine Json.clean_array.mpr fun item member => ?_
  rcases ArrayEdit.mem_apply member with old | new
  · exact cleanItems item old
  · exact cleanValues item new

end

end World

end StateScript
