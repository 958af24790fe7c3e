import StateScript.Proofs.CleanValues

/-!
The laws of writing at a path. What has been written is read back, of two writes at one path the second counts,
and to write what is there already changes nothing. Where nothing is missing, a write only puts the new value in
the place of the old one.
-/

namespace StateScript.Json

variable {value root : Json} {path : Path}

theorem writeBelow_prepared (first second : Json) (rest : Path)
    (again : ∀ value : Json, (writeBelow value rest first).2 = none →
      writeBelow (writeBelow value rest first).1 rest second = writeBelow value rest second)
    (success : (writeBelow (value.prepared rest) rest first).2 = none) :
    writeBelow ((writeBelow (value.prepared rest) rest first).1.prepared rest) rest second =
      writeBelow (value.prepared rest) rest second := by
  cases rest with
  | nil => rfl
  | cons next more =>
    have filled : (writeBelow (value.prepared (next :: more)) (next :: more) first).1.isNull = false := by
      rw [writeBelow_isNull, prepared_not_null]
    rw [prepared_eq_self filled, again _ success]

/-- Below a container the second of two writes counts: everything on the way is there for it, as the first one
has left it. -/
theorem writeBelow_writeBelow {first : Json} (second : Json) (success : (writeBelow value path first).2 = none) :
    writeBelow (writeBelow value path first).1 path second = writeBelow value path second := by
  induction path generalizing value with
  | nil => rfl
  | cons segment rest ih =>
    cases value with
    | object ms =>
      simp only [writeBelow] at success ⊢
      simp only [Members.find?_insert_self, Option.getD_some,
        writeBelow_prepared first second rest (fun _ => ih) success, Members.insert_insert]
    | array items =>
      simp only [writeBelow] at success ⊢
      cases addressed : slot items segment with
      | error fault =>
        rw [addressed] at success
        cases success
      | ok i =>
        rw [addressed] at success
        simp only at success ⊢
        generalize left : (writeBelow (((padded items i).getD i .null).prepared rest) rest first).1 = below
        have there : i < ((padded items i).set i below).length := by
          rw [List.length_set]
          exact lt_length_padded items i
        have again : slot ((padded items i).set i below) segment = .ok i := by
          rw [slot_of_place? (place?_of_slot addressed)]
          exact if_neg fun beyond => absurd there (Nat.not_lt.mpr beyond.1)
        have item : ((padded items i).set i below).getD i .null = below := by
          simp [List.getD, List.getElem?_set_self (lt_length_padded items i)]
        subst left
        simp only [writeBelow, again, padded_eq_self there, item,
          writeBelow_prepared first second rest (fun _ => ih) success, List.set_set]
    | _ => cases success

theorem permitted_of_write {new : Json} (success : (write root path new).2 = none) : forbidden? path = none := by
  unfold write at success
  cases refused : forbidden? path with
  | some fault =>
    rw [refused] at success
    cases success
  | none => rfl

theorem write_write {first : Json} (second : Json) (success : (write root path first).2 = none) :
    write (write root path first).1 path second = write root path second := by
  have permitted := permitted_of_write success
  simp only [write, permitted] at success ⊢
  cases path with
  | nil => rfl
  | cons segment rest =>
    have filled : (writeBelow (root.started (segment :: rest)) (segment :: rest) first).1.isNull = false := by
      rw [writeBelow_isNull, started_not_null]
    rw [started_eq_self filled, writeBelow_writeBelow second success]

/-- Whether a write succeeds does not depend on the value: what a first write leaves, a second one finds. -/
theorem write_succeeds {first : Json} (second : Json) (success : (write root path first).2 = none) :
    (write root path second).2 = none := by
  obtain ⟨left, _, written⟩ := write_of_get? (get?_write success) (permitted_of_write success) second
  rw [← write_write second success, written]

theorem write_self {old : Json} (found : root.get? path = some old) : (write root path old).1 = root := by
  cases refused : forbidden? path with
  | some fault => simp only [write, refused]
  | none =>
    obtain ⟨left, replaced, written⟩ := write_of_get? found refused old
    rw [replace?_self found] at replaced
    rw [written, ← Option.some.inj replaced]

/-- Reading and writing at a path are a lens: a write that succeeds is read back, a second one overwrites it
without a trace, and a value that is there already is written without a change. Where a path has no denied name,
the value in place can be replaced exactly if one is found, which is what a write does there. -/
theorem write_lens (root : Json) (path : Path) (v w : Json) :
    ((root.write path v).2 = none → (root.write path v).1.get? path = some v ∧
        (root.write path v).1.write path w = root.write path w ∧ (root.write path w).2 = none) ∧
      (root.get? path = some v → (root.write path v).1 = root) ∧
      (path.any Direct.deniedSegment = false → (root.replace? path w).isSome = (root.get? path).isSome ∧
        ∀ left, root.replace? path w = some left → root.write path w = (left, none)) := by
  refine ⟨fun success => ?_, write_self, fun allowed => ⟨isSome_replace? root path w, fun left replaced => ?_⟩⟩
  · exact ⟨get?_write success, write_write w success, write_succeeds w success⟩
  · obtain ⟨old, found⟩ := exists_get?_of_replace? replaced
    obtain ⟨same, again, written⟩ := write_of_get? found (forbidden?_of_get? found allowed) w
    rw [replaced] at again
    rw [written, Option.some.inj again]

/-- A list that grows, and an object in it. -/
theorem write_lens_at_growth :
    let root := object [("list", .array [.null])]
    let path := [.key "list", .index 2, .key "done"]
    let written := object [("list", .array [.null, .null, .object [("done", .bool true)]])]
    root.write path (.bool true) = (written, none) ∧ written.get? path = some (.bool true) ∧
      written.write path .null = root.write path .null ∧ (written.write path (.bool true)).1 = written ∧
      ∀ left, written.replace? path .null = some left → written.write path .null = (left, none) := by
  intro root path written
  have grown : root.write path (.bool true) = (written, none) := rfl
  obtain ⟨lens, _, _⟩ := write_lens root path (.bool true) .null
  obtain ⟨_, same, _⟩ := write_lens written path (.bool true) .null
  obtain ⟨_, _, put⟩ := write_lens written path .null .null
  rw [grown] at lens
  obtain ⟨found, again, _⟩ := lens rfl
  exact ⟨rfl, found, again, same found, (put (by decide)).2⟩

end StateScript.Json
