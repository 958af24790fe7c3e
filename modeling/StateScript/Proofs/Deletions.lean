import StateScript.Proofs.Replacements

/-!
Deleting at a path. A deletion takes a child out of the container that the path leads to, and puts back what is
left of it. It takes out what is read at the path but for two kinds of child: an item whose position a key spells
is read and not deleted, and a member that is named like a wildcard is deleted and not read.
-/

namespace StateScript.Json

/-- Whether a container has a child at a segment that reading or deleting alone would find. -/
def isOddAt : Json → Segment → Bool
  | .array items, .key name => (position? name).any (· < items.length)
  | .object ms, .wildcard => Members.contains "*" ms
  | _, _ => false

theorem takeChild_eq_child?_iff (container : Json) (segment : Segment) :
    (container.takeChild segment).2 = container.child? segment ↔ container.isOddAt segment = false := by
  cases container with
  | object ms =>
    cases segment with
    | key | index => exact ⟨fun _ => rfl, fun _ => rfl⟩
    | wildcard =>
      simp only [takeChild, child?, isOddAt, Segment.text, Members.contains]
      cases Members.find? "*" ms <;> simp
  | array items =>
    cases segment with
    | key name =>
      simp only [takeChild, child?, isOddAt]
      cases position? name with
      | none => simp
      | some i => simp [eq_comm]
    | index | wildcard => exact ⟨fun _ => rfl, fun _ => rfl⟩
  | null | bool | number | string => cases segment <;> exact ⟨fun _ => rfl, fun _ => rfl⟩

theorem takeChild_of_none {container : Json} {segment : Segment} (none' : (container.takeChild segment).2 = none) :
    (container.takeChild segment).1 = container := by
  cases container with
  | object ms => exact congrArg object (Members.erase_eq_self none')
  | array items =>
    cases segment with
    | index i => exact congrArg array (List.eraseIdx_of_length_le (List.getElem?_eq_none_iff.mp none'))
    | key | wildcard => rfl
  | null | bool | number | string => rfl

/-- A deletion reaches the container at the end of the path, and puts back what is left of it. -/
theorem delete_append (root : Json) (parents : Path) (last : Segment) :
    root.delete (parents ++ [last]) = match root.get? parents with
      | none => (root, none)
      | some container => ((root.replace? parents (container.takeChild last).1).getD root,
          (container.takeChild last).2) := by
  induction parents generalizing root with
  | nil => rfl
  | cons segment rest ih =>
    obtain ⟨next, more, split⟩ : ∃ next more, rest ++ [last] = next :: more :=
      List.exists_cons_of_ne_nil (by simp)
    rw [List.cons_append, split, delete, ← split, get?]
    cases there : root.child? segment with
    | none => rfl
    | some child =>
      simp only [ih child, Option.bind_some]
      cases found : child.get? rest with
      | none => simp [setChild_self there]
      | some container =>
        obtain ⟨left, replaced⟩ := exists_replace? found (container.takeChild last).1
        simp [replace?_cons, there, replaced]

/-- A deletion that finds nothing changes nothing. -/
theorem delete_of_none {root : Json} {parents : Path} {last : Segment}
    (none' : (root.delete (parents ++ [last])).2 = none) : (root.delete (parents ++ [last])).1 = root := by
  rw [delete_append] at none' ⊢
  cases found : root.get? parents with
  | none => rfl
  | some container =>
    rw [found] at none'
    simp only at none' ⊢
    rw [takeChild_of_none none', replace?_self found, Option.getD_some]

/-- A deletion finds what is read at its path exactly if the container at the end of the path has no odd child
there. It leaves the root unchanged in any case when it finds nothing. -/
theorem delete_agrees_iff (root : Json) (parents : Path) (last : Segment) :
    ((root.delete (parents ++ [last])).2 = none → (root.delete (parents ++ [last])).1 = root) ∧
      ((∀ x, (root.delete (parents ++ [last])).2 = some x ↔ root.get? (parents ++ [last]) = some x) ↔
        ∀ container, root.get? parents = some container → container.isOddAt last = false) := by
  refine ⟨delete_of_none, ?_⟩
  rw [← Option.ext_iff, delete_append, get?_append]
  cases root.get? parents with
  | none => simp
  | some container =>
    have single : container.get? [last] = container.child? last := by simp [get?]
    simp only [Option.bind_some, single, takeChild_eq_child?_iff, Option.some.injEq, forall_eq']

/-- An item at its position, and a position behind the last item. -/
theorem delete_agrees_iff_at_items :
    let root := object [("list", .array [.bool true])]
    (∀ x, (root.delete [.key "list", .index 0]).2 = some x ↔ root.get? [.key "list", .index 0] = some x) ∧
      (root.delete [.key "list", .index 1]).2 = none ∧ (root.delete [.key "list", .index 1]).1 = root := by
  intro root
  obtain ⟨_, agrees⟩ := delete_agrees_iff root [.key "list"] (.index 0)
  obtain ⟨unchanged, _⟩ := delete_agrees_iff root [.key "list"] (.index 1)
  refine ⟨agrees.mpr fun container found => ?_, rfl, unchanged rfl⟩
  cases found
  rfl

/-- An item is read at a key that spells its position, and not deleted there. -/
theorem delete_misses_spelled_position : ¬ ∀ x : Json,
    ((array [.bool true]).delete [.key "0"]).2 = some x ↔ (array [.bool true]).get? [.key "0"] = some x := by
  intro agrees
  have read : (array [.bool true]).get? [.key "0"] = some (.bool true) := rfl
  cases (agrees (.bool true)).mpr read

end StateScript.Json
