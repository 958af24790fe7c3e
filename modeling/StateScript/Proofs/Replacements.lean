import StateScript.Proofs.PathReads

/-!
Values put in place of others. At a path where something is found, and only there, another value can be put in
its place: it is found there then, and the value that was there before leaves everything as it was.
-/

namespace StateScript

namespace Json

theorem setChild_items {segment : Segment} {i : Nat} (place : segment.place? = some i) (items : List Json)
    (new : Json) : (array items).setChild segment new = .array (items.set i new) := by
  cases segment with
  | index j =>
    cases place
    rfl
  | key name =>
    have position : position? name = some i := place
    simp only [setChild, position, Option.getD_some]
  | wildcard => cases place

section

variable {value old : Json} {segment : Segment} (there : value.child? segment = some old)

include there

theorem ne_wildcard_of_child? : segment ≠ .wildcard := by
  rintro rfl
  cases value <;> cases there

theorem child?_setChild (new : Json) : (value.setChild segment new).child? segment = some new := by
  have plain := ne_wildcard_of_child? there
  cases value with
  | object ms => exact child?_insert plain new ms
  | array items =>
    rw [child?_items] at there
    obtain ⟨i, place, item⟩ := Option.bind_eq_some_iff.mp there
    obtain ⟨within, _⟩ := List.getElem?_eq_some_iff.mp item
    rw [setChild_items place, child?_items, place, Option.bind_some, List.getElem?_set_self within]
  | null | bool | number | string => cases segment <;> cases there

theorem setChild_self : value.setChild segment old = value := by
  have plain := ne_wildcard_of_child? there
  cases value with
  | object ms =>
    rw [child?_object plain] at there
    exact congrArg object (Members.insert_eq_self there)
  | array items =>
    rw [child?_items] at there
    obtain ⟨i, place, item⟩ := Option.bind_eq_some_iff.mp there
    obtain ⟨within, same⟩ := List.getElem?_eq_some_iff.mp item
    rw [setChild_items place, ← same, List.set_getElem_self]
  | null | bool | number | string => cases segment <;> cases there

end

/-- A longer path is read by its parts. -/
theorem get?_append (value : Json) (front back : Path) :
    value.get? (front ++ back) = (value.get? front).bind fun between => between.get? back := by
  induction front generalizing value with
  | nil => rfl
  | cons segment rest ih =>
    rw [List.cons_append, get?, get?]
    cases value.child? segment with
    | none => rfl
    | some child => exact ih child

theorem replace?_cons (value : Json) (segment : Segment) (rest : Path) (new : Json) :
    value.replace? (segment :: rest) new =
      (value.child? segment).bind fun child => (child.replace? rest new).map (value.setChild segment) := by
  rw [replace?]
  cases value.child? segment with
  | none => rfl
  | some child => cases outcome : child.replace? rest new <;> simp [outcome]

theorem isSome_replace? (value : Json) (path : Path) (new : Json) :
    (value.replace? path new).isSome = (value.get? path).isSome := by
  induction path generalizing value with
  | nil => rfl
  | cons segment rest ih =>
    rw [replace?_cons, get?]
    cases value.child? segment with
    | none => rfl
    | some child => simp only [Option.bind_some, Option.isSome_map, ih]

theorem exists_replace? {value old : Json} {path : Path} (found : value.get? path = some old) (new : Json) :
    ∃ left, value.replace? path new = some left := by
  rw [← Option.isSome_iff_exists, isSome_replace?, found]
  rfl

theorem exists_get?_of_replace? {value left new : Json} {path : Path}
    (replaced : value.replace? path new = some left) : ∃ old, value.get? path = some old := by
  rw [← Option.isSome_iff_exists, ← isSome_replace? value path new, replaced]
  rfl

theorem get?_replace? {value left new : Json} {path : Path} (replaced : value.replace? path new = some left) :
    left.get? path = some new := by
  induction path generalizing value left with
  | nil =>
    cases replaced
    rfl
  | cons segment rest ih =>
    rw [replace?_cons] at replaced
    obtain ⟨child, there, more⟩ := Option.bind_eq_some_iff.mp replaced
    obtain ⟨below, further, rfl⟩ := Option.map_eq_some_iff.mp more
    rw [get?, child?_setChild there, Option.bind_some, ih further]

theorem replace?_self {value old : Json} {path : Path} (found : value.get? path = some old) :
    value.replace? path old = some value := by
  induction path generalizing value with
  | nil => exact congrArg some (Option.some.inj found).symm
  | cons segment rest ih =>
    obtain ⟨child, there, below⟩ := Option.bind_eq_some_iff.mp found
    rw [replace?_cons, there, Option.bind_some, ih below, Option.map_some, setChild_self there]

end Json

end StateScript
