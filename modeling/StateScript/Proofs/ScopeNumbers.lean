import StateScript.Proofs.CourseInvariants
import StateScript.Proofs.FaithfulWrites

/-!
Scopes over time. Their numbers are not used again, whatever actions run, and a run that is cut short
lets go of loop scopes only.
-/

namespace StateScript

namespace World

/-- A later world has used more scope numbers, if any, and none of them twice. -/
structure Ages (before after : World) : Prop where
  next : before.scopes.next ≤ after.scopes.next
  gone : ∀ id < before.scopes.next, before.scope? id = none → after.scope? id = none

section

variable {before w after : World}

theorem Ages.refl (w : World) : w.Ages w := ⟨Nat.le_refl _, fun _ _ missing => missing⟩

theorem Ages.trans (first : before.Ages w) (second : w.Ages after) : before.Ages after where
  next := Nat.le_trans first.next second.next
  gone id old missing := second.gone id (Nat.lt_of_lt_of_le old first.next) (first.gone id old missing)

theorem Ages.congr (ages : before.Ages w) (same : after.scopes = w.scopes) : before.Ages after := by
  constructor
  · rw [same]
    exact ages.next
  · intro id old missing
    rw [scope?, same]
    exact ages.gone id old missing

theorem Ages.modifyBindings (ages : before.Ages w) (id : ScopeId) (change : Members → Members) :
    before.Ages (w.modifyBindings id change) := by
  constructor
  · exact ages.next
  · intro other old missing
    have still := ages.gone other old missing
    rw [scope?_modifyBindings, still]
    simp

/-- A scope that is given back goes, unless something that a method holds on to reaches it. -/
theorem release_scopes (w : World) (id : ScopeId) (others : List ScopeId) : (w.release id others).scopes =
    if w.reaches (others ++ w.kept) id then w.scopes else w.scopes.erase id := by
  unfold release
  dsimp only
  cases w.reaches (others ++ w.kept) id with
  | true => exact modifySession_scopes ..
  | false => exact congrArg (Store.erase id) (modifySession_scopes ..)

theorem scope?_release (w : World) (id other : ScopeId) (others : List ScopeId) :
    (w.release id others).scope? other = w.scope? other ∨
      other = id ∧ (w.release id others).scope? other = none := by
  rw [scope?, release_scopes]
  split
  · exact Or.inl rfl
  · rw [Store.find?_erase]
    by_cases hit : other = id
    · exact Or.inr ⟨hit, if_pos hit⟩
    · exact Or.inl (if_neg hit)

theorem release_eq (w : World) (id : ScopeId) (others : List ScopeId) :
    (w.release id others).events = w.events ∧ (w.release id others).trees = w.trees ∧
      (w.release id others).kept = w.kept ∧ (w.release id others).clock = w.clock := by
  unfold release modifySession
  dsimp only
  split <;> split <;> exact ⟨rfl, rfl, rfl, rfl⟩

theorem release_next (w : World) (id : ScopeId) (others : List ScopeId) :
    (w.release id others).scopes.next = w.scopes.next := by
  rw [release_scopes]
  split <;> rfl

theorem Ages.release (ages : before.Ages w) (id : ScopeId) (others : List ScopeId) :
    before.Ages (w.release id others) := by
  constructor
  · rw [release_next]
    exact ages.next
  · intro other old missing
    have still := ages.gone other old missing
    rcases scope?_release w id other others with same | ⟨_, erased⟩
    · rw [same, still]
    · exact erased

/-- A loop scope has the next number, or there was nothing to make it in. -/
theorem addLoop_cases (w : World) (id : ScopeId) (var indexVar : String) (item index : Json) :
    ((w.addLoop id var indexVar item index).1 = w.scopes.next ∧
      ∃ scope, (w.addLoop id var indexVar item index).2.scopes = (w.scopes.add scope).2) ∨
    (w.addLoop id var indexVar item index).1 = id ∧ w.scope? id = none ∧
      (w.addLoop id var indexVar item index).2.scopes = w.scopes := by
  cases present : w.scope? id with
  | none =>
    rw [addLoop_of_missing present]
    exact Or.inr ⟨rfl, rfl, rfl⟩
  | some scope =>
    rw [addLoop_of_present present]
    exact Or.inl ⟨rfl, _, rfl⟩

theorem Ages.addLoop (ages : before.Ages w) (id : ScopeId) (var indexVar : String) (item index : Json) :
    before.Ages (w.addLoop id var indexVar item index).2 := by
  rcases addLoop_cases w id var indexVar item index with ⟨_, scope, added⟩ | ⟨_, _, same⟩
  · refine ages.trans ⟨?_, ?_⟩
    · rw [added]
      exact Nat.le_succ _
    · intro other old missing
      rw [scope?, added, Store.find?_add, if_neg (Nat.ne_of_lt old)]
      exact missing
  · exact ages.congr same

theorem Ages.set (before : World) (id : ScopeId) (key : String) (value : Json) :
    Keeps before.Ages (set id key value) := by
  intro w ages
  rw [run_set]
  cases checkBindable key with
  | error e => exact ages
  | ok => exact (ages.modifyBindings id (Members.insert key value)).congr (by simp)

theorem Ages.setPath (before : World) (id : ScopeId) (path : String) (value : Json) :
    Keeps before.Ages (setPath id path value) := by
  intro w ages
  have parsed := ages.congr (afterParsing_scopes id path w)
  rw [run_setPath]
  cases target path with
  | error e => exact parsed
  | ok found =>
    have written := parsed.modifyBindings (w.owner id found.1)
      fun _ => (assign found.1 found.2 value (w.bindings (w.owner id found.1))).1
    dsimp only
    cases (assign found.1 found.2 value (w.bindings (w.owner id found.1))).2 with
    | some fault => exact written
    | none => exact written.congr (by simp)

theorem Ages.updatePath {α : Type} (before : World) (id : ScopeId) (path : String)
    (change : Option Json → Except Error (Option Json × α)) : Keeps before.Ages (updatePath id path change) := by
  intro w ages
  have parsed := ages.congr (afterParsing_scopes id path w)
  rw [run_updatePath]
  cases target path with
  | error e => exact parsed
  | ok found =>
    dsimp only
    cases change ((Members.find? found.1 (w.bindings (w.owner id found.1))).bind (Json.get? · found.2)) with
    | error e => exact parsed
    | ok outcome =>
      have left old : before.Ages ((w.afterParsing id path).putBack (w.owner id found.1) found.1 found.2 old
          outcome.1) := by
        unfold putBack
        split
        · exact parsed.modifyBindings _ _
        · exact parsed
      have dropped old := ((left old).congr (invalidate_scopes _ id path)).congr
        (invalidate_scopes _ id (Path.wildcardOf path))
      dsimp only
      split
      · exact (dropped _).congr (notify_scopes ..)
      · exact dropped _

end

end World

namespace Execute

theorem ages_keptByActions (before : World) : KeptByActions before.Ages fun _ => True where
  beside untouched ages := ages.congr untouched.scopes
  set := World.Ages.set before
  setPath := World.Ages.setPath before
  editArray id path edit := World.Ages.updatePath before id path (World.editedArray path edit)
  release id _ ages := ages.release id []
  addLoop _ ages var indexVar item index := iff_of_true (ages.addLoop _ var indexVar item index) trivial

/-- What is kept by every moment of a run is kept by the run. -/
theorem Follows.keeps {α : Type} {good : World → Prop} {followed : CourseM α} {plain : ExecuteM α}
    (follows : Follows good (fun _ => True) followed plain) : Keeps (fun m => good m.world) plain := by
  intro m start
  obtain ⟨added, _, leads⟩ := follows ⟨m, []⟩
  exact leads.after_good start ((leads.good_iff start).mpr fun _ _ _ _ => trivial)

theorem keeps_perform {good : World → Prop} (kept : KeptByActions good fun _ => True) (depth : Nat)
    (outer : Option Nat) (budget : Budget) (id : ScopeId) (raw : Json) (action : Action) :
    Keeps (fun m => good m.world) (perform (runWithin depth outer) budget id raw action) :=
  (kept.follows_perform (kept.follows_runWithin depth outer) budget id raw action).keeps

end Execute

end StateScript
