import StateScript.Eval.Compiled
import StateScript.Proofs.FailedWrites

/-!
Reading at a path that has been written. What a write that succeeds has put there is found there.
-/

namespace StateScript

/-- The array position that a segment names, by its number or by a key that spells it. -/
def Segment.place? : Segment → Option Nat
  | key name => position? name
  | index i => some i
  | wildcard => none

namespace Json

/-- A path may be written if no segment of it is a wildcard or denied. -/
theorem forbidden?_cons_eq_none_iff {segment : Segment} {rest : Path} : forbidden? (segment :: rest) = none ↔
    segment ≠ .wildcard ∧ Direct.deniedSegment segment = false ∧ forbidden? rest = none := by
  cases segment with
  | key name => cases open' : isDenied name <;> simp [forbidden?, Direct.deniedSegment, open']
  | index | wildcard => simp [forbidden?, Direct.deniedSegment]

/-- A position that may be written exists in the padded array. -/
theorem lt_length_padded (items : List Json) (i : Nat) : i < (padded items i).length := by
  by_cases within : i < items.length
  · rwa [padded_eq_self within]
  · rw [padded_length (by omega)]
    omega

theorem child?_items (items : List Json) (segment : Segment) :
    (array items).child? segment = segment.place?.bind fun i => items[i]? := by
  cases segment <;> rfl

theorem slot_of_place? {segment : Segment} {i : Nat} (place : segment.place? = some i) (items : List Json) :
    slot items segment = slot.bounded items i := by
  cases segment with
  | index j =>
    cases place
    rfl
  | key name =>
    have position : position? name = some i := place
    simp only [slot, position]
  | wildcard => cases place

theorem place?_of_slot {items : List Json} {segment : Segment} {i : Nat} (addressed : slot items segment = .ok i) :
    segment.place? = some i := by
  have bounded {j : Nat} (fits : slot.bounded items j = .ok i) : j = i := by
    unfold slot.bounded at fits
    split at fits
    · cases fits
    · exact Except.ok.inj fits
  cases segment with
  | index j => exact congrArg some (bounded addressed)
  | key name =>
    simp only [slot] at addressed
    split at addressed
    · rename_i j position
      exact position.trans (congrArg some (bounded addressed))
    · cases addressed
  | wildcard => cases addressed

theorem child?_of_slot {items : List Json} {segment : Segment} {i : Nat} (addressed : slot items segment = .ok i)
    (others : List Json) : (Json.array others).child? segment = others[i]? := by
  rw [child?_items, place?_of_slot addressed, Option.bind_some]

theorem child?_object {segment : Segment} (plain : segment ≠ .wildcard) (ms : Members) :
    (Json.object ms).child? segment = Members.find? segment.text ms := by
  cases segment with
  | key | index => rfl
  | wildcard => exact absurd rfl plain

theorem child?_insert {segment : Segment} (plain : segment ≠ .wildcard) (value : Json) (ms : Members) :
    (Json.object (Members.insert segment.text value ms)).child? segment = some value := by
  rw [child?_object plain, Members.find?_insert_self]

/-- A write that succeeds is read back. -/
theorem get?_writeBelow {value new : Json} {path : Path} (permitted : forbidden? path = none)
    (success : (writeBelow value path new).2 = none) : get? (writeBelow value path new).1 path = some new := by
  induction path generalizing value with
  | nil => rfl
  | cons segment rest ih =>
    obtain ⟨plain, _, further⟩ := forbidden?_cons_eq_none_iff.mp permitted
    cases value with
    | object ms =>
      simp only [writeBelow] at success ⊢
      rw [get?, child?_insert plain]
      exact ih further success
    | array items =>
      simp only [writeBelow] at success ⊢
      cases addressed : slot items segment with
      | error fault =>
        rw [addressed] at success
        cases success
      | ok i =>
        rw [addressed] at success
        have there : i < (padded items i).length := lt_length_padded items i
        rw [get?, child?_of_slot addressed, List.getElem?_set_self there]
        exact ih further success
    | _ => cases success

theorem get?_write {root new : Json} {path : Path} (success : (write root path new).2 = none) :
    get? (write root path new).1 path = some new := by
  unfold write at success ⊢
  cases refused : forbidden? path with
  | some fault =>
    rw [refused] at success
    cases success
  | none =>
    rw [refused] at success
    exact get?_writeBelow refused success

end Json

end StateScript
