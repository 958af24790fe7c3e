import StateScript.Proofs.Invalidation
import StateScript.Proofs.Parameters
import StateScript.Proofs.RootWrites

/-!
Operations that keep results up to date: evaluations, bindings, writes at a path that succeed, and the
edits of arrays.
-/

namespace StateScript.World

theorem BuiltinFree.congr {w after : World} (free : w.BuiltinFree) (same : after.scopes = w.scopes) :
    after.BuiltinFree := by
  intro id name builtin
  rw [binds, bindings_congr same]
  exact free id name builtin

theorem Faithful.congr {w after : World} (faithful : w.Faithful) (scopes : after.scopes = w.scopes)
    (trees : after.trees = w.trees) (sessions : after.sessions = w.sessions) : after.Faithful := by
  refine ⟨faithful.coherent.congr (shape?_congr scopes) trees, ?_⟩
  intro id session found
  rw [sessions] at found
  exact (faithful.sessions found).congr scopes trees

section

variable {w : World} (faithful : w.Faithful)

include faithful

theorem Faithful.notify (id : ScopeId) (path : String) (value : Json) : (w.notify id path value).Faithful :=
  faithful.congr (notify_scopes ..) (notify_trees ..) (notify_sessions ..)

theorem Faithful.afterParsing (id : ScopeId) (path : String) : (w.afterParsing id path).Faithful := by
  rcases afterParsing_eq id path w with same | ⟨paths, same⟩
  · rw [same]
    exact faithful
  · rw [same]
    exact faithful.besideEngine id fun _ => rfl

end

section

variable {w : World} {id owner : ScopeId}

theorem BuiltinFree.not_mem (free : w.BuiltinFree) {name : String} {value : Json}
    (bound : Members.find? name (w.bindings id) = some value) : name ∉ nonStateNames := by
  intro builtin
  have unbound := free id name builtin
  simp [binds, Members.contains, bound] at unbound

theorem run_set (key : String) (value : Json) : (set id key value).run w =
    match checkBindable key with
    | .error e => (.error e, w)
    | .ok () => (.ok (),
        ((w.modifyBindings id (Members.insert key value)).invalidate id key).notify id key value) := by
  unfold set
  rw [run_bind, run_ofExcept]
  cases checkBindable key <;> rfl

/-- A write that binds its first name, and that the host is told of. -/
theorem Faithful.writeBound (faithful : w.Faithful) {first text : String} {change : Members → Members}
    {new : Json}
    (sameTree : ∀ {up tree}, w.shape? owner = some (up, tree) → ∃ above, w.shape? id = some (above, tree))
    (written : change (w.bindings owner) = Members.insert first new (w.bindings owner))
    (reaches : Lexeme.IsName first → ∃ path, Path.read text = .ok path ∧ path.StartsWith first)
    (heard : ScopeId) (value : Json)
    (free : (((w.modifyBindings owner change).invalidate id text).notify heard text value).BuiltinFree) :
    (((w.modifyBindings owner change).invalidate id text).notify heard text value).Faithful := by
  refine (faithful.write sameTree ?_ ?_ reaches).notify heard text value
  · intro n different
    rw [written]
    exact Members.find?_insert_ne different new _
  · intro shape found
    obtain ⟨bindings, present⟩ := shape?_eq_some_iff.mp found
    have before : (w.modifyBindings owner change).BuiltinFree :=
      free.congr ((notify_scopes ..).trans (invalidate_scopes ..)).symm
    have bound : Members.find? first ((w.modifyBindings owner change).bindings owner) = some new := by
      rw [bindings_modifyBindings_self present, written, Members.find?_insert_self]
    exact before.not_mem bound

theorem Faithful.set (faithful : w.Faithful) {key : String} {value : Json}
    (free : ((set id key value).run w).2.BuiltinFree) : ((set id key value).run w).2.Faithful := by
  rw [run_set] at free ⊢
  cases allowed : checkBindable key with
  | error e => exact faithful
  | ok _ =>
    simp only [allowed] at free
    have starts (name : Lexeme.IsName key) : ∃ path, Path.read key = .ok path ∧ path.StartsWith key :=
      ⟨[.key key], Path.read_name name, .key key, [], rfl, by simp, rfl⟩
    exact faithful.writeBound (fun found => ⟨_, found⟩) rfl starts id value free

theorem startsWith_of_target {path first : String} {rest : Path} (named : target path = .ok (first, rest)) :
    ∃ segments, Path.read path = .ok segments ∧ segments.StartsWith first := by
  obtain ⟨segment, parsed, text, plain, _⟩ := target_ok named
  exact ⟨_, Path.read_of_parse parsed, segment, rest, rfl, plain, text⟩

theorem Faithful.setPath (faithful : w.Faithful) {path : String} {value : Json}
    (success : ((setPath id path value).run w).1.isOk = true)
    (free : ((setPath id path value).run w).2.BuiltinFree) : ((setPath id path value).run w).2.Faithful := by
  rw [run_setPath] at success free ⊢
  cases named : target path with
  | error e => exact faithful.afterParsing id path
  | ok found =>
    obtain ⟨first, rest⟩ := found
    simp only [named] at success free ⊢
    cases outcome : (assign first rest value (w.bindings (w.owner id first))).2 with
    | some fault => simp [outcome, Except.isOk, Except.toBool] at success
    | none =>
      simp only [outcome] at free ⊢
      have scopes := afterParsing_scopes id path w
      have parsed := faithful.afterParsing id path
      have sameTree {up tree} (found : (w.afterParsing id path).shape? (w.owner id first) = some (up, tree)) :
          ∃ above, (w.afterParsing id path).shape? id = some (above, tree) := by
        rw [shape?_congr scopes] at found ⊢
        exact faithful.coherent.owner_tree found
      have written : (assign first rest value (w.bindings (w.owner id first))).1 = Members.insert first
          (((Members.find? first (w.bindings (w.owner id first))).getD .null).write rest value).1
            ((w.afterParsing id path).bindings (w.owner id first)) := by
        rw [bindings_congr scopes]
        exact assign_of_success outcome
      exact parsed.writeBound sameTree written (fun _ => startsWith_of_target named) _ value free

end

/-- The scopes form trees, results are up to date, and no scope binds a builtin. -/
structure Trusted (w : World) : Prop where
  faithful : w.Faithful
  free : w.BuiltinFree

section

variable {w : World}

theorem Trusted.congr {after : World} (trusted : w.Trusted) (faithful : after.Faithful)
    (scopes : after.scopes = w.scopes) : after.Trusted :=
  ⟨faithful, trusted.free.congr scopes⟩

theorem Trusted.notify (trusted : w.Trusted) (id : ScopeId) (path : String) (value : Json) :
    (w.notify id path value).Trusted :=
  trusted.congr (trusted.faithful.notify id path value) (notify_scopes ..)

theorem Trusted.invalidate (trusted : w.Trusted) (id : ScopeId) (path : String) :
    (w.invalidate id path).Trusted :=
  trusted.congr (trusted.faithful.invalidate id path) (invalidate_scopes ..)

theorem Trusted.afterParsing (trusted : w.Trusted) (id : ScopeId) (path : String) :
    (w.afterParsing id path).Trusted :=
  trusted.congr (trusted.faithful.afterParsing id path) (afterParsing_scopes ..)

/-- Bindings with the value at a path below a name replaced, if there is one. -/
def replaceBelow (first : String) (rest : Path) (new : Json) (bindings : Members) : Members :=
  match (Members.find? first bindings).bind (Json.replace? · rest new) with
  | some slot => Members.insert first slot bindings
  | none => bindings

theorem find?_replaceBelow_ne {first n : String} (different : n ≠ first) (rest : Path) (new : Json)
    (bindings : Members) :
    Members.find? n (replaceBelow first rest new bindings) = Members.find? n bindings := by
  unfold replaceBelow
  split
  · exact Members.find?_insert_ne different _ bindings
  · rfl

/-- What an update makes of a scope: it puts back a new value, if there was one before. -/
def putBack (owner : ScopeId) (first : String) (rest : Path) (old new : Option Json) (w : World) : World :=
  match old, new with
  | some _, some new => w.modifyBindings owner (replaceBelow first rest new)
  | _, _ => w

/-- An update fails without a change, or replaces the value that was there and drops what reads it. -/
theorem run_updatePath {α : Type} (id : ScopeId) (path : String)
    (change : Option Json → Except Error (Option Json × α)) : (updatePath id path change).run w =
    match target path with
    | .error e => (.error e, w.afterParsing id path)
    | .ok (first, rest) =>
      let owner := w.owner id first
      let old := (Members.find? first (w.bindings owner)).bind (Json.get? · rest)
      match change old with
      | .error e => (.error e, w.afterParsing id path)
      | .ok (new, answer) =>
        let left := (w.afterParsing id path).putBack owner first rest old new
        let dropped := (left.invalidate id path).invalidate id (Path.wildcardOf path)
        (.ok answer, match (Members.find? first (dropped.bindings owner)).bind (Json.get? · rest) with
          | some value => dropped.notify owner path value
          | none => dropped) := by
  unfold updatePath
  rw [run_bind, run_writablePath]
  cases target path with
  | error e => rfl
  | ok found =>
    obtain ⟨first, rest⟩ := found
    dsimp only
    rw [run_bind, run_get]
    dsimp only
    rw [owner_congr (afterParsing_scopes id path w), bindings_congr (afterParsing_scopes id path w),
      run_bind, run_ofExcept]
    cases change ((Members.find? first (w.bindings (w.owner id first))).bind (Json.get? · rest)) with
    | error e => rfl
    | ok outcome =>
      obtain ⟨new, answer⟩ := outcome
      cases (Members.find? first (w.bindings (w.owner id first))).bind (Json.get? · rest) with
      | none => rfl
      | some old => cases new <;> rfl

theorem BuiltinFree.modifyBindings (free : w.BuiltinFree) {owner : ScopeId} {first : String}
    {change : Members → Members} (state : first ∉ nonStateNames)
    (others : ∀ n, n ≠ first →
      Members.find? n (change (w.bindings owner)) = Members.find? n (w.bindings owner)) :
    (w.modifyBindings owner change).BuiltinFree := by
  intro id name builtin
  have unbound := free id name builtin
  by_cases target : id = owner
  · subst target
    cases present : w.scope? id with
    | none => simp [binds, bindings, scope?_modifyBindings, present, Members.contains, Members.find?]
    | some scope =>
      have different : name ≠ first := fun same => state (same ▸ builtin)
      rw [binds, Members.contains] at unbound ⊢
      rw [bindings_modifyBindings_self present, others name different]
      exact unbound
  · rw [binds, bindings_modifyBindings_ne target]
    exact unbound

/-- Replacing the value at a path and dropping what reads the path keeps a world trusted. -/
theorem Trusted.replaceBelow (trusted : w.Trusted) {id : ScopeId} {path first : String} {rest : Path}
    (named : target path = .ok (first, rest)) (state : first ∉ nonStateNames) (new : Json) :
    (((w.afterParsing id path).modifyBindings (w.owner id first)
      (World.replaceBelow first rest new)).invalidate id path).Trusted := by
  have parsed := trusted.afterParsing id path
  have others (n : String) (different : n ≠ first) := find?_replaceBelow_ne different rest new
    ((w.afterParsing id path).bindings (w.owner id first))
  have sameTree {up tree} (found : (w.afterParsing id path).shape? (w.owner id first) = some (up, tree)) :
      ∃ above, (w.afterParsing id path).shape? id = some (above, tree) := by
    rw [shape?_congr (afterParsing_scopes id path w)] at found ⊢
    exact trusted.faithful.coherent.owner_tree found
  constructor
  · exact parsed.faithful.write sameTree others (fun _ => state) fun _ => startsWith_of_target named
  · exact (parsed.free.modifyBindings state others).congr (invalidate_scopes ..)

/-- An update keeps a world trusted, whether it succeeds or not. -/
theorem Trusted.updatePath {α : Type} (trusted : w.Trusted) (id : ScopeId) (path : String)
    (change : Option Json → Except Error (Option Json × α)) :
    ((updatePath id path change).run w).2.Trusted := by
  have parsed := trusted.afterParsing id path
  rw [run_updatePath]
  cases named : target path with
  | error e => exact parsed
  | ok found =>
    obtain ⟨first, rest⟩ := found
    dsimp only
    cases change ((Members.find? first (w.bindings (w.owner id first))).bind (Json.get? · rest)) with
    | error e => exact parsed
    | ok outcome =>
      obtain ⟨new, answer⟩ := outcome
      dsimp only
      have dropped : (((w.afterParsing id path).putBack (w.owner id first) first rest
          ((Members.find? first (w.bindings (w.owner id first))).bind (Json.get? · rest)) new).invalidate id
          path).Trusted := by
        cases held : (Members.find? first (w.bindings (w.owner id first))).bind (Json.get? · rest) with
        | none => exact parsed.invalidate id path
        | some old =>
          cases new with
          | none => exact parsed.invalidate id path
          | some new =>
            obtain ⟨_, bound, _⟩ := Option.bind_eq_some_iff.mp held
            exact trusted.replaceBelow named (trusted.free.not_mem bound) new
      have again := dropped.invalidate id (Path.wildcardOf path)
      split
      · exact again.notify _ path _
      · exact again

theorem Trusted.keptByEvaluation : KeptByEvaluation Trusted := by
  constructor
  · intro id source w trusted
    refine trusted.congr (trusted.faithful.evaluate id trusted.free source) ?_
    rw [run_evaluate, withEngine_snd, modifySession_scopes]
  · intro id template w trusted
    refine trusted.congr (trusted.faithful.interpolate id trusted.free template) ?_
    rw [run_interpolate, withEngine_snd, modifySession_scopes]
  · intro id value w trusted
    refine trusted.congr (trusted.faithful.resolveValue id trusted.free value) ?_
    rw [run_resolveValue, withEngine_snd, modifySession_scopes]

theorem Trusted.editArray (id : ScopeId) (path : String) (edit : ArrayEdit) :
    Keeps Trusted (editArray id path edit) :=
  fun _ trusted => trusted.updatePath id path _

end

end StateScript.World
