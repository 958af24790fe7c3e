import StateScript.Path.Access
import StateScript.Proofs.Members

/-!
What a write that fails leaves behind. Going down a path, a write creates missing containers and
pads arrays before it knows whether it can end. So a failed write leaves a value as it was exactly
when it was refused as a whole, or stopped before it had created anything.
-/

namespace StateScript.Json

/-- Whether a write that fails gets through existing values only to the place where it fails. A
null counts as missing, since a write puts a container in its place. -/
def stopsInPlace : Json → Path → Bool
  | .null, _ => false
  | .object ms, segment :: rest =>
    (Members.find? segment.text ms).any fun child => stopsInPlace child rest
  | .array items, segment :: rest =>
    match slot items segment with
    | .error _ => true
    | .ok i => items[i]?.any fun child => stopsInPlace child rest
  | _, _ => true

@[simp] theorem stopsInPlace_null (path : Path) : stopsInPlace .null path = false := by
  cases path <;> rfl

theorem isNull_iff {value : Json} : value.isNull = true ↔ value = .null := by
  cases value <;> simp [isNull]

@[simp] theorem isNull_emptyFor (segment : Segment) : (emptyFor segment).isNull = false := by
  cases segment <;> rfl

/-- A container stays one while it is written below. -/
theorem writeBelow_isNull (value : Json) (segment : Segment) (rest : Path) (new : Json) :
    (writeBelow value (segment :: rest) new).1.isNull = value.isNull := by
  cases value with
  | array items =>
    simp only [writeBelow]
    cases slot items segment <;> rfl
  | _ => rfl

theorem prepared_not_null (value : Json) (next : Segment) (more : Path) :
    (value.prepared (next :: more)).isNull = false := by
  unfold prepared
  cases empty : value.isNull with
  | false => simpa using empty
  | true => simp

theorem prepared_eq_self {value : Json} (filled : value.isNull = false) (path : Path) :
    value.prepared path = value := by
  cases path <;> simp [prepared, filled]

/-- What is left of a child after a failed write below it, given what a write that fails at the
same place leaves of a container. -/
theorem child_unchanged_iff {child : Json} {rest : Path} {new : Json} {fault : WriteFault}
    (below : ∀ {value : Json}, value.isNull = false → (writeBelow value rest new).2 = some fault →
      ((writeBelow value rest new).1 = value ↔ value.stopsInPlace rest = true))
    (failed : (writeBelow (child.prepared rest) rest new).2 = some fault) :
    (writeBelow (child.prepared rest) rest new).1 = child ↔ child.stopsInPlace rest = true := by
  cases rest with
  | nil => simp [writeBelow] at failed
  | cons next more =>
    cases empty : child.isNull with
    | false =>
      rw [prepared_eq_self empty] at failed ⊢
      exact below empty failed
    | true =>
      have filled : (writeBelow (child.prepared (next :: more)) (next :: more) new).1.isNull = false := by
        rw [writeBelow_isNull, prepared_not_null]
      rw [isNull_iff] at empty
      subst empty
      constructor
      · intro same
        rw [same] at filled
        cases filled
      · simp

theorem started_eq_self {value : Json} (filled : value.isNull = false) (path : Path) :
    value.started path = value := by
  cases value with
  | null => cases filled
  | _ => rfl

theorem started_not_null (value : Json) (next : Segment) (more : Path) :
    (value.started (next :: more)).isNull = false := by
  cases empty : value.isNull with
  | false => rw [started_eq_self empty, empty]
  | true =>
    rw [isNull_iff] at empty
    subst empty
    cases more with
    | nil => exact isNull_emptyFor next
    | cons => rfl

theorem padded_eq_self {items : List Json} {i : Nat} (within : i < items.length) :
    padded items i = items := by
  have enough : i + 1 - items.length = 0 := by omega
  simp [padded, enough]

theorem padded_length {items : List Json} {i : Nat} (beyond : items.length ≤ i) :
    (padded items i).length = i + 1 := by
  simp only [padded, List.length_append, List.length_replicate]
  omega

/-- A failed write below a container leaves it unchanged exactly when it stops in place. -/
theorem writeBelow_unchanged_iff {value new : Json} {path : Path} {fault : WriteFault}
    (filled : value.isNull = false) (failed : (writeBelow value path new).2 = some fault) :
    (writeBelow value path new).1 = value ↔ value.stopsInPlace path = true := by
  induction path generalizing value with
  | nil => simp [writeBelow] at failed
  | cons segment rest ih =>
    cases value with
    | null => cases filled
    | bool | number | string => simp [writeBelow, stopsInPlace]
    | object ms =>
      simp only [writeBelow] at failed
      simp only [writeBelow, stopsInPlace, object.injEq, Members.insert_eq_self_iff]
      cases found : Members.find? segment.text ms with
      | none => simp
      | some child =>
        simp only [found, Option.getD_some] at failed
        simp only [Option.getD_some, Option.some.injEq, Option.any_some]
        rw [eq_comm]
        exact child_unchanged_iff ih failed
    | array items =>
      simp only [writeBelow] at failed
      simp only [writeBelow, stopsInPlace]
      cases addressed : slot items segment with
      | error => simp
      | ok i =>
        simp only [addressed] at failed
        simp only [array.injEq]
        by_cases within : i < items.length
        · rw [padded_eq_self within] at failed ⊢
          have present : items.getD i .null = items[i] := by simp [List.getD, within]
          rw [present] at failed ⊢
          have child := child_unchanged_iff ih failed
          simp only [List.getElem?_eq_getElem within, Option.any_some, ← child]
          constructor
          · intro same
            have entry := congrArg (fun xs => xs[i]?) same
            simpa [within] using entry
          · intro same
            rw [same]
            exact List.set_getElem_self within
        · have missing : items[i]? = none := List.getElem?_eq_none (Nat.le_of_not_lt within)
          simp only [missing, Option.any_none, Bool.false_eq_true, iff_false]
          -- The array has been padded, which shows in its length.
          intro same
          have length := congrArg List.length same
          rw [List.length_set, padded_length (Nat.le_of_not_lt within)] at length
          omega

/-- A failed write leaves a value unchanged exactly when the path is refused as a whole or the
write stops in place. -/
theorem write_unchanged_iff {root new : Json} {path : Path} {fault : WriteFault}
    (failed : (write root path new).2 = some fault) :
    (write root path new).1 = root ↔
      (forbidden? path).isSome = true ∨ root.stopsInPlace path = true := by
  unfold write at failed ⊢
  cases refused : forbidden? path with
  | some => simp
  | none =>
    simp only [refused] at failed
    simp only [Option.isSome_none, Bool.false_eq_true, false_or]
    cases empty : root.isNull with
    | false =>
      rw [started_eq_self empty] at failed ⊢
      exact writeBelow_unchanged_iff empty failed
    | true =>
      rw [isNull_iff] at empty
      subst empty
      cases path with
      | nil => simp [writeBelow] at failed
      | cons segment rest =>
        simp only [stopsInPlace_null, Bool.false_eq_true, iff_false]
        intro same
        have kept := congrArg isNull same
        rw [writeBelow_isNull, started_not_null] at kept
        cases kept

end StateScript.Json
