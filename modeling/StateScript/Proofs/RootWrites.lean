import StateScript.Proofs.ScopeWrites

/-!
Writing through a root against writing into the state as one value. The two go apart in one place:
a name without a value, followed by an index and more segments, becomes an object through the root
and an array in the state.
-/

namespace StateScript

namespace Json

theorem forbidden?_cons {segment : Segment} (plain : segment ≠ .wildcard)
    (allowed : isDenied segment.text = false) (rest : Path) :
    forbidden? (segment :: rest) = forbidden? rest := by
  cases segment with
  | key name =>
    have open' : isDenied name = false := allowed
    simp [forbidden?, open']
  | index => rfl
  | wildcard => exact absurd rfl plain

/-- Writing into an object writes into the value of its first name. -/
theorem write_object {segment : Segment} (plain : segment ≠ .wildcard)
    (allowed : isDenied segment.text = false) (ms : Members) (rest : Path) (new : Json) :
    (object ms).write (segment :: rest) new =
      match forbidden? rest with
      | some fault => (object ms, some fault)
      | none =>
        let slot := (Members.find? segment.text ms).getD .null
        let below := writeBelow (slot.prepared rest) rest new
        (object (Members.insert segment.text below.1 ms), below.2) := by
  unfold write
  rw [forbidden?_cons plain allowed]
  cases forbidden? rest with
  | some fault => rfl
  | none => rfl

/-- A name without a value, followed by an index and more segments. -/
def needsArray (slot : Json) : Path → Bool
  | .index _ :: _ :: _ => slot.isNull
  | _ => false

/-- Everywhere else a write begins with the container that the next segment asks for. -/
theorem started_eq_prepared {slot : Json} {rest : Path} (permitted : forbidden? rest = none)
    (plain : slot.needsArray rest = false) : slot.started rest = slot.prepared rest := by
  cases empty : slot.isNull with
  | false => rw [started_eq_self empty, prepared_eq_self empty]
  | true =>
    rw [isNull_iff] at empty
    subst empty
    match rest, permitted, plain with
    | [], _, _ => rfl
    | [segment], _, _ => rfl
    | .key name :: next :: more, _, _ => rfl
    | .index i :: next :: more, _, plain => cases plain
    | .wildcard :: next :: more, permitted, _ => cases permitted

/-- What an index and more segments write into a missing value: an object through a root. -/
theorem writeBelow_started_index (i : Nat) (next : Segment) (more : Path) (new : Json) :
    writeBelow (Json.null.started (.index i :: next :: more)) (.index i :: next :: more) new =
      let below := writeBelow (Json.null.prepared (next :: more)) (next :: more) new
      (.object [(toString i, below.1)], below.2) := rfl

/-- In the state it is an array, and the write fails at least where the other one does. -/
theorem writeBelow_prepared_index (i : Nat) (next : Segment) (more : Path) (new : Json) :
    (∃ items, (writeBelow (Json.null.prepared (.index i :: next :: more))
      (.index i :: next :: more) new).1 = .array items) ∧
    ((writeBelow (Json.null.prepared (next :: more)) (next :: more) new).2 ≠ none →
      (writeBelow (Json.null.prepared (.index i :: next :: more))
        (.index i :: next :: more) new).2 ≠ none) := by
  have start : Json.null.prepared (.index i :: next :: more) = .array [] := rfl
  rw [start]
  simp only [writeBelow]
  cases addressed : slot [] (.index i) with
  | error fault => exact ⟨⟨[], rfl⟩, fun _ => by simp⟩
  | ok j =>
    have blank : (padded [] j).getD j .null = .null := by simp [padded, List.getD]
    simp only [blank]
    exact ⟨⟨_, rfl⟩, fun failed => failed⟩

end Json

namespace World

theorem assign_fault (first : String) (rest : Path) (value : Json) (bindings : Members) :
    (assign first rest value bindings).2 =
      (((Members.find? first bindings).getD .null).write rest value).2 := by
  unfold assign
  cases Members.find? first bindings with
  | none =>
    cases outcome : (Json.null.write rest value).2 <;> simp [outcome]
  | some old => rfl

theorem assign_of_success {first : String} {rest : Path} {value : Json} {bindings : Members}
    (success : (assign first rest value bindings).2 = none) :
    (assign first rest value bindings).1 =
      Members.insert first (((Members.find? first bindings).getD .null).write rest value).1 bindings := by
  rw [assign_fault] at success
  unfold assign
  cases found : Members.find? first bindings with
  | none =>
    rw [found] at success
    simp only [Option.getD_none] at success
    simp [success]
  | some old => rfl

theorem target_ok {path first : String} {rest : Path} (named : target path = .ok (first, rest)) :
    ∃ segment, Path.parse path = .ok (segment :: rest) ∧ segment.text = first ∧
      segment ≠ .wildcard ∧ isBindable first = true := by
  unfold target at named
  cases parsed : Path.parse path with
  | error e => rw [parsed] at named; cases named
  | ok segments =>
    rw [parsed, ok_bind] at named
    cases segments with
    | nil => cases named
    | cons segment behind =>
      have bindable : ∀ name : String, firstKey path (segment :: behind) = .ok name →
          isBindable name = true ∧ (name, behind) = (first, rest) := by
        intro name starts
        rw [starts, ok_bind] at named
        unfold checkBindable at named
        split at named
        · rename_i allowed
          exact ⟨allowed, Except.ok.inj named⟩
        · cases named
      cases segment with
      | wildcard => cases named
      | key name =>
        obtain ⟨allowed, same⟩ := bindable name rfl
        cases same
        exact ⟨.key first, rfl, rfl, by simp, allowed⟩
      | index i =>
        obtain ⟨allowed, same⟩ := bindable (Segment.index i).text rfl
        cases same
        exact ⟨.index i, rfl, rfl, by simp, allowed⟩

theorem isDenied_of_isBindable {name : String} (allowed : isBindable name = true) :
    isDenied name = false := by
  unfold isBindable at allowed
  cases denied : isDenied name with
  | false => rfl
  | true => simp [denied] at allowed

/-- Whether a write through a scope does what the same write does to the state as one value: it
succeeds exactly if that one does, and then leaves the same state. -/
def agreesWithState (w : World) (id : ScopeId) (path : String) (value : Json) : Prop :=
  ∀ segments, Path.parse path = .ok segments →
    (((setPath id path value).run w).1.isOk = true ↔ ((w.state id).write segments value).2 = none) ∧
      (((setPath id path value).run w).1.isOk = true →
        ((setPath id path value).run w).2.state id = ((w.state id).write segments value).1)

section

variable {w : World} {id : ScopeId} {scope : Scope} {path first : String} {rest : Path}

theorem state_of_root (present : w.scope? id = some scope) (top : scope.parent = none) :
    w.state id = .object scope.bindings := by
  simp [state, root_of_root present top, bindings, present]

theorem setPath_isOk_iff (named : target path = .ok (first, rest)) (value : Json) :
    ((setPath id path value).run w).1.isOk = true ↔
      (((Members.find? first (w.bindings (w.owner id first))).getD .null).write rest value).2 = none := by
  rw [run_setPath, ← assign_fault]
  simp only [named]
  cases (assign first rest value (w.bindings (w.owner id first))).2 <;>
    simp [Except.isOk, Except.toBool]

theorem state_after_setPath (present : w.scope? id = some scope) (top : scope.parent = none)
    (named : target path = .ok (first, rest)) (value : Json)
    (success : (((Members.find? first scope.bindings).getD .null).write rest value).2 = none) :
    ((setPath id path value).run w).2.state id =
      .object (Members.insert first
        (((Members.find? first scope.bindings).getD .null).write rest value).1 scope.bindings) := by
  have own : w.bindings id = scope.bindings := by simp [bindings, present]
  rw [← assign_fault] at success
  rw [run_setPath, ← assign_of_success success]
  simp only [named, owner_of_root present top, own, success]
  have same : ((((w.afterParsing id path).modifyBindings id fun _ =>
      (assign first rest value scope.bindings).1).invalidate id path).notify id path value).scopes =
      ((w.afterParsing id path).modifyBindings id fun _ =>
        (assign first rest value scope.bindings).1).scopes := by simp
  rw [state_congr same]
  have copy : (w.afterParsing id path).scope? id = some scope := by simpa [scope?] using present
  have changed := scope?_modifyBindings (w.afterParsing id path) id id fun _ =>
    (assign first rest value scope.bindings).1
  rw [if_pos rfl, copy] at changed
  exact state_of_root changed top

/-- A write through a root and the same write into the state as one value agree, but for a write
that succeeds through the root where a name without a value is followed by an index and more
segments. -/
theorem root_setPath_agrees_iff (present : w.scope? id = some scope) (top : scope.parent = none)
    (named : target path = .ok (first, rest)) (value : Json) :
    w.agreesWithState id path value ↔
      ¬ (((Members.find? first scope.bindings).getD .null).needsArray rest = true ∧
        (((Members.find? first scope.bindings).getD .null).write rest value).2 = none) := by
  obtain ⟨segment, parsed, rfl, plain, bindable⟩ := target_ok named
  have own : w.bindings id = scope.bindings := by simp [bindings, present]
  have succeeds : ((setPath id path value).run w).1.isOk = true ↔ _ := setPath_isOk_iff named value
  rw [owner_of_root present top, own] at succeeds
  have left := state_after_setPath present top named value
  generalize held : (Members.find? segment.text scope.bindings).getD .null = slot at succeeds left ⊢
  have whole := Json.write_object plain (isDenied_of_isBindable bindable) scope.bindings rest value
  simp only [held] at whole
  unfold agreesWithState
  simp only [parsed, Except.ok.injEq, forall_eq', state_of_root present top, whole, succeeds]
  cases permitted : Json.forbidden? rest with
  | some fault => simp [Json.write, permitted]
  | none =>
    have through : slot.write rest value = Json.writeBelow (slot.started rest) rest value := by
      simp only [Json.write, permitted]
    rw [through] at left ⊢
    cases shape : slot.needsArray rest with
    | false =>
      rw [Json.started_eq_prepared permitted shape] at left ⊢
      simpa using left
    | true =>
      obtain ⟨i, next, more, rfl⟩ : ∃ i next more, rest = .index i :: next :: more := by
        unfold Json.needsArray at shape
        split at shape
        · exact ⟨_, _, _, rfl⟩
        · cases shape
      have empty : slot = .null := Json.isNull_iff.mp shape
      subst empty
      obtain ⟨⟨items, array⟩, worse⟩ := Json.writeBelow_prepared_index i next more value
      rw [Json.writeBelow_started_index] at left ⊢
      simp only [true_and]
      constructor
      -- A success leaves an object through the root where the state holds an array.
      · intro agrees success
        have same := agrees.2 success
        rw [left success, array] at same
        have slots := congrArg (Json.member? segment.text) same
        simp [Json.member?, Members.find?_insert_self] at slots
      · intro failed
        exact ⟨⟨fun success => absurd success failed, fun success => absurd success (worse failed)⟩,
          fun success => absurd success failed⟩

end

/-- A name without a value, an index and one more segment: an object through the root, and an array
in the state. -/
theorem root_setPath_disagrees : ¬ (holding []).agreesWithState 1 "items[0].x" .null := by
  intro agrees
  have parsed : Path.parse "items[0].x" = .ok [.key "items", .index 0, .key "x"] := rfl
  have success : ((setPath 1 "items[0].x" .null).run (holding [])).1.isOk = true := by decide +kernel
  have through : ((setPath 1 "items[0].x" .null).run (holding [])).2.state 1 =
      .object [("items", .object [("0", .object [("x", .null)])])] := rfl
  have whole : (((holding []).state 1).write [.key "items", .index 0, .key "x"] .null).1 =
      .object [("items", .array [.object [("x", .null)]])] := rfl
  have same := (agrees _ parsed).2 success
  rw [through, whole] at same
  simp at same

theorem root_setPath_agrees_at_array :
    (holding [("items", .array [])]).scope? 1 = some ⟨[("items", .array [])], none, 1⟩ ∧
      target "items[0].x" = .ok ("items", [.index 0, .key "x"]) ∧
      ((holding [("items", .array [])]).agreesWithState 1 "items[0].x" .null ↔
        ¬ ((Json.array []).needsArray [.index 0, .key "x"] = true ∧
          ((Json.array []).write [.index 0, .key "x"] .null).2 = none)) :=
  have present : (holding [("items", .array [])]).scope? 1 = some ⟨[("items", .array [])], none, 1⟩ := rfl
  have named : target "items[0].x" = .ok ("items", [.index 0, .key "x"]) := rfl
  ⟨present, named, root_setPath_agrees_iff present rfl named .null⟩

end World

end StateScript
