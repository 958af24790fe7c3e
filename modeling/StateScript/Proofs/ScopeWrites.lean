import StateScript.Proofs.FailedWrites
import StateScript.Proofs.Scopes

/-!
Writing at a path through a scope. The main statement says exactly when a failed write leaves every
scope as it was.
-/

namespace StateScript

/-- Parsing through the cache gives what parsing gives. -/
theorem PathCache.parse_result (cache : PathCache) (text : String) :
    (cache.parse text).1 = Path.parse text := by
  unfold PathCache.parse
  cases found : cache.entries.lookup text with
  | some path =>
    obtain ⟨before, behind, same, _⟩ := List.lookup_eq_some_iff.mp found
    have entry : (text, path) ∈ cache.entries := by simp [same]
    exact (cache.parsed (text, path) entry).symm
  | none =>
    dsimp only
    split
    · rename_i e refused
      exact refused.symm
    · rename_i path parsed
      exact parsed.symm

namespace World

/-- The first name of a path that may be written, and the segments behind it. -/
def target (path : String) : Except Error (String × Path) := do
  let segments ← Path.parse path
  let first ← firstKey path segments
  checkBindable first
  return (first, segments.drop 1)

/-- The world after a path has been parsed through the cache of a session. -/
def afterParsing (id : ScopeId) (path : String) (w : World) : World := ((parsePath id path).run w).2

theorem parsePath_run (id : ScopeId) (path : String) (w : World) :
    (parsePath id path).run w = match w.session? id with
      | none => (Path.parse path, w)
      | some session => ((session.paths.parse path).1,
          w.modifySession id fun s => { s with paths := (session.paths.parse path).2 }) := rfl

theorem run_parsePath (id : ScopeId) (path : String) (w : World) :
    (parsePath id path).run w = (Path.parse path, w.afterParsing id path) := by
  refine Prod.ext ?_ rfl
  rw [parsePath_run]
  cases w.session? id with
  | none => rfl
  | some session => exact PathCache.parse_result _ path

theorem afterParsing_eq (id : ScopeId) (path : String) (w : World) :
    w.afterParsing id path = w ∨
      ∃ paths, w.afterParsing id path = w.modifySession id fun s => { s with paths } := by
  unfold afterParsing
  rw [parsePath_run]
  cases w.session? id with
  | none => exact Or.inl rfl
  | some session => exact Or.inr ⟨(session.paths.parse path).2, rfl⟩

/-- What changes of sessions keep, apart from their pools, a reading keeps. -/
theorem keeps_getPath {good : World → Prop}
    (same : ∀ {w : World} id (change : Session → Session),
      (∀ session, (change session).pool = session.pool) → good w → good (w.modifySession id change))
    (id : ScopeId) (path : String) : Keeps good (getPath id path) := by
  have parsing : Keeps good (parsePath id path) := by
    intro w holds
    show good (w.afterParsing id path)
    rcases afterParsing_eq id path w with unchanged | ⟨paths, parsed⟩
    · rw [unchanged]
      exact holds
    · rw [parsed]
      exact same id _ (fun _ => rfl) holds
  refine parsing.bind fun segments => ?_
  cases segments with
  | nil => exact Keeps.pure _
  | cons first rest => exact Keeps.get.bind fun _ => Keeps.pure _

@[simp] theorem afterParsing_scopes (id : ScopeId) (path : String) (w : World) :
    (w.afterParsing id path).scopes = w.scopes := by
  rcases afterParsing_eq id path w with same | ⟨paths, same⟩
  · rw [same]
  · rw [same, modifySession_scopes]

theorem run_writablePath (id : ScopeId) (path : String) (w : World) :
    (writablePath id path).run w = (target path, w.afterParsing id path) := by
  unfold writablePath target
  rw [run_bind, run_parsePath]
  cases Path.parse path with
  | error e => rfl
  | ok segments =>
    rw [ok_bind]
    dsimp only
    rw [run_bind, run_ofExcept]
    cases firstKey path segments with
    | error e => rfl
    | ok first =>
      rw [ok_bind]
      dsimp only
      rw [run_bind, run_ofExcept]
      cases checkBindable first <;> rfl

/-- The error of a write through a scope that fails below the first name. -/
def writeError (path : String) (rest : Path) (fault : WriteFault) : Error :=
  (fault.error (Path.render rest)).withMetadata "path" (.string path)

/-- A write through a scope: it fails without any change where the path has no first name that may
be written. Otherwise it leaves what the assignment leaves in the owner, also where that fails. -/
theorem run_setPath (id : ScopeId) (path : String) (value : Json) (w : World) :
    (setPath id path value).run w =
      match target path with
      | .error e => (.error e, w.afterParsing id path)
      | .ok (first, rest) =>
        let owner := w.owner id first
        let written := assign first rest value (w.bindings owner)
        let left := (w.afterParsing id path).modifyBindings owner fun _ => written.1
        match written.2 with
        | some fault => (.error (writeError path rest fault), left)
        | none => (.ok (), (left.invalidate id path).notify owner path value) := by
  unfold setPath
  rw [run_bind, run_writablePath]
  cases target path with
  | error e => rfl
  | ok found =>
    obtain ⟨first, rest⟩ := found
    dsimp only
    rw [run_bind, run_get]
    dsimp only
    rw [owner_congr (afterParsing_scopes id path w), bindings_congr (afterParsing_scopes id path w),
      run_bind, run_modify]
    dsimp only
    cases (assign first rest value (w.bindings (w.owner id first))).2 <;> rfl

theorem assign_unchanged_iff {first : String} {rest : Path} {value : Json} {bindings : Members}
    {fault : WriteFault} (failed : (assign first rest value bindings).2 = some fault) :
    (assign first rest value bindings).1 = bindings ↔
      ∀ slot, Members.find? first bindings = some slot →
        (Json.forbidden? rest).isSome = true ∨ slot.stopsInPlace rest = true := by
  unfold assign at failed ⊢
  cases found : Members.find? first bindings with
  | none =>
    simp only [found] at failed
    have faulty : (Json.null.write rest value).2.isSome = true := by
      cases outcome : (Json.null.write rest value).2 with
      | none => simp [outcome] at failed
      | some => rfl
    simp [faulty]
  | some old =>
    simp only [found] at failed
    simp only [Members.insert_eq_self_iff, found, Option.some.injEq, forall_eq']
    rw [eq_comm]
    exact Json.write_unchanged_iff failed

/-- Whether a write at a path can only fail with everything as it was: the path has no first name
that may be written, or no scope binds the name, or the rest of the path is refused as a whole, or
the write stops before it creates anything. -/
def failsCleanly (w : World) (id : ScopeId) (path : String) : Prop :=
  ∀ first rest slot, target path = .ok (first, rest) →
    Members.find? first (w.bindings (w.owner id first)) = some slot →
      (Json.forbidden? rest).isSome = true ∨ slot.stopsInPlace rest = true

/-- A failed write leaves the bindings of every scope as they were exactly if it can only fail
cleanly. In particular it never leaves a new binding. -/
theorem failed_setPath_keeps_bindings_iff {w : World} {id : ScopeId} {path : String} {value : Json}
    (failed : ((setPath id path value).run w).1.isOk = false) :
    (∀ scope, ((setPath id path value).run w).2.bindings scope = w.bindings scope) ↔
      w.failsCleanly id path := by
  unfold failsCleanly
  rw [run_setPath] at failed ⊢
  cases named : target path with
  | error e => simp [bindings_congr (afterParsing_scopes id path w)]
  | ok found =>
    obtain ⟨first, rest⟩ := found
    simp only [named] at failed
    cases outcome : (assign first rest value (w.bindings (w.owner id first))).2 with
    | none => simp [outcome, Except.isOk, Except.toBool] at failed
    | some fault =>
      have cleanly := assign_unchanged_iff outcome
      simp only [outcome, Except.ok.injEq, Prod.mk.injEq]
      constructor
      · rintro kept first rest slot ⟨rfl, rfl⟩ bound
        refine cleanly.mp ?_ slot bound
        have owner := kept (w.owner id first)
        cases present : w.scope? (w.owner id first) with
        | none => simp [bindings, present, Members.find?] at bound
        | some scope =>
          have copy : (w.afterParsing id path).scope? (w.owner id first) = some scope := by
            simpa [scope?] using present
          rwa [bindings_modifyBindings_self copy] at owner
      · intro clean scope
        have same := cleanly.mpr fun slot bound => clean first rest slot ⟨rfl, rfl⟩ bound
        rw [same]
        by_cases hit : scope = w.owner id first
        · subst hit
          simp only [bindings, scope?_modifyBindings, if_true]
          simp only [scope?, afterParsing_scopes]
          cases w.scopes.find? (w.owner id first) <;> rfl
        · rw [bindings_modifyBindings_ne hit, bindings_congr (afterParsing_scopes id path w)]

/-- A write can fail, and leave the container that it has created on its way. -/
theorem failed_setPath_may_create :
    ((setPath 1 "a.b[20000]" .null).run (holding [("a", .object [])])).1.isOk = false ∧
      ((setPath 1 "a.b[20000]" .null).run (holding [("a", .object [])])).2.bindings 1 ≠
        (holding [("a", .object [])]).bindings 1 := by
  refine ⟨by decide +kernel, ?_⟩
  have left : ((setPath 1 "a.b[20000]" .null).run (holding [("a", .object [])])).2.bindings 1 =
      [("a", .object [("b", .array [])])] := rfl
  have before : (holding [("a", .object [])]).bindings 1 = [("a", .object [])] := rfl
  rw [left, before]
  simp

theorem failed_setPath_keeps_bindings_at_array :
    ((setPath 1 "a[20000].b" .null).run (holding [("a", .array [])])).1.isOk = false ∧
      ((∀ scope, ((setPath 1 "a[20000].b" .null).run (holding [("a", .array [])])).2.bindings scope =
        (holding [("a", .array [])]).bindings scope) ↔
        (holding [("a", .array [])]).failsCleanly 1 "a[20000].b") :=
  have failed : ((setPath 1 "a[20000].b" .null).run (holding [("a", .array [])])).1.isOk = false := by
    decide +kernel
  ⟨failed, failed_setPath_keeps_bindings_iff failed⟩

end World

end StateScript
