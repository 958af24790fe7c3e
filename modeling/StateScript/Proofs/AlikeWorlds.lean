import StateScript.Proofs.TwinRuns
import StateScript.Proofs.WriteReads

/-!
Worlds that differ in their sessions only. If what differs there never shows in a path that is parsed or a
source that is evaluated, then actions come to the same in both worlds and leave worlds that differ in their
sessions only.
-/

namespace StateScript

/-- What relates two sessions of one number. -/
abbrev SessionRelation := SessionId → Session → Session → Prop

/-- An operation on the engines of related sessions comes to the same and leaves related sessions. -/
def SessionRelation.Respected {α : Type} (Q : SessionRelation) (operation : EngineM α) : Prop :=
  ∀ ⦃s a b⦄, Q s a b →
    (Engine.run operation a.engine).1 = (Engine.run operation b.engine).1 ∧
      Q s { a with engine := (Engine.run operation a.engine).2 } { b with engine := (Engine.run operation b.engine).2 }

/-- The changes that actions make in sessions, as far as they evaluate allowed sources, respect a relation. -/
structure SessionRelation.RespectedByChanges (Q : SessionRelation) (allowed : String → Prop) : Prop where
  paths : ∀ {s a b}, Q s a b → a.paths = b.paths
  parsing : ∀ {s a b}, Q s a b → ∀ paths, Q s { a with paths } { b with paths }
  invalidation : ∀ {s a b}, Q s a b → ∀ path, Q s { a with engine := (a.engine.invalidate path).2 }
    { b with engine := (b.engine.invalidate path).2 }
  drawing : ∀ {s a b}, Q s a b → Q s { a with pool := a.pool.acquire.2 } { b with pool := b.pool.acquire.2 }
  release : ∀ {s a b}, Q s a b → ∀ vars, Q s { a with pool := a.pool.release vars } { b with pool := b.pool.release vars }
  evaluate : ∀ {source}, allowed (Template.stripMarkers source) → ∀ resolver options,
    Q.Respected (Engine.evaluate source resolver options)
  interpolate : ∀ {template : String}, (∀ source ∈ Template.expressions template.toList, allowed source) →
    ∀ resolver options, Q.Respected (Engine.interpolate template resolver options)
  resolveValue : ∀ {v : Json}, v.Within allowed → ∀ resolver options,
    Q.Respected (Engine.resolveValue resolver options v)

namespace World

/-- Worlds with the same given trees that differ in their sessions only, and there as far as they may. -/
structure Alike (trees : Store Tree) (Q : SessionRelation) (w w' : World) : Prop where
  scopes : w.scopes = w'.scopes
  left : w.trees = trees
  right : w'.trees = trees
  events : w.events = w'.events
  kept : w.kept = w'.kept
  clock : w.clock = w'.clock
  numbers : w.sessions.next = w'.sessions.next
  sessions : ∀ s, Option.Rel (Q s) (w.sessions.find? s) (w'.sessions.find? s)

section

variable {trees : Store Tree} {Q : SessionRelation} {w w' : World} (alike : w.Alike trees Q w')

include alike

theorem Alike.tree? (id : ScopeId) : w.tree? id = w'.tree? id := by
  simp only [World.tree?, scope?, alike.scopes, alike.left, alike.right]

theorem Alike.session? (id : ScopeId) : (w.session? id = none ∧ w'.session? id = none) ∨
    ∃ s a b, w.session? id = some a ∧ w'.session? id = some b ∧ Q s a b := by
  unfold World.session?
  rw [← alike.tree?]
  cases w.tree? id with
  | none => exact Or.inl ⟨rfl, rfl⟩
  | some tree =>
    have related := alike.sessions tree.session
    simp only [Option.bind_some]
    cases first : w.sessions.find? tree.session <;> cases second : w'.sessions.find? tree.session <;>
      rw [first, second] at related <;> cases related
    · exact Or.inl ⟨rfl, rfl⟩
    · next both => exact Or.inr ⟨_, _, _, rfl, rfl, both⟩

theorem Alike.imp {Q' : SessionRelation} (weaker : ∀ s a b, w.sessions.find? s = some a →
      w'.sessions.find? s = some b → Q s a b → Q' s a b) : w.Alike trees Q' w' := by
  refine { alike with numbers := alike.numbers, sessions := fun s => ?_ }
  have related := alike.sessions s
  cases first : w.sessions.find? s <;> cases second : w'.sessions.find? s <;>
    rw [first, second] at related <;> cases related
  · exact .none
  · next both => exact .some (weaker s _ _ first second both)

/-- Changes of the sessions that belong to a scope, as far as they are related there. -/
theorem Alike.modifySession_of {id : ScopeId} {change change' : Session → Session}
    (each : ∀ a b, w.session? id = some a → w'.session? id = some b → ∀ s, Q s a b → Q s (change a) (change' b)) :
    (w.modifySession id change).Alike trees Q (w'.modifySession id change') := by
  unfold World.modifySession World.session? at *
  rw [← alike.tree?] at each ⊢
  cases own : w.tree? id with
  | none => exact alike
  | some tree =>
    refine { alike with numbers := alike.numbers, sessions := fun s => ?_ }
    have related := alike.sessions s
    dsimp only
    rw [Store.find?_modify, Store.find?_modify]
    split
    · next own' =>
      subst own'
      simp only [own, Option.bind_some] at each
      cases first : w.sessions.find? tree.session <;> cases second : w'.sessions.find? tree.session <;>
        rw [first, second] at related <;> cases related
      · exact .none
      · next both => exact .some (each _ _ first second _ both)
    · exact related

theorem Alike.modifySession {change change' : Session → Session}
    (each : ∀ s a b, Q s a b → Q s (change a) (change' b)) (id : ScopeId) :
    (w.modifySession id change).Alike trees Q (w'.modifySession id change') :=
  alike.modifySession_of fun _ _ _ _ s both => each s _ _ both

theorem Alike.modifyBindings (id : ScopeId) (change : Members → Members) :
    (w.modifyBindings id change).Alike trees Q (w'.modifyBindings id change) :=
  { alike with scopes := by simp only [World.modifyBindings, alike.scopes] }

theorem Alike.record (event : Event) : (w.record event).Alike trees Q (w'.record event) :=
  { alike with events := by simp only [World.record, alike.events] }

theorem Alike.notify (id : ScopeId) (path : String) (value : Json) :
    (w.notify id path value).Alike trees Q (w'.notify id path value) := by
  unfold World.notify
  rw [← alike.tree?]
  cases w.tree? id with
  | none => exact alike
  | some tree =>
    have tops : w.isRoot id = w'.isRoot id := by simp only [isRoot, scope?, alike.scopes]
    dsimp only
    rw [← tops]
    split
    · exact alike.record _
    · exact alike

theorem Alike.addChild (parent : ScopeId) (bindings : Members) :
    (w.addChild parent bindings).1 = (w'.addChild parent bindings).1 ∧
      (w.addChild parent bindings).2.Alike trees Q (w'.addChild parent bindings).2 := by
  unfold World.addChild scope?
  rw [← alike.scopes]
  cases w.scopes.find? parent with
  | none => exact ⟨rfl, alike⟩
  | some scope => exact ⟨rfl, { alike with scopes := rfl }⟩

variable {allowed : String → Prop} (respected : Q.RespectedByChanges allowed)

include respected

theorem Alike.afterParsing (id : ScopeId) (path : String) :
    (w.afterParsing id path).Alike trees Q (w'.afterParsing id path) := by
  unfold World.afterParsing
  rw [parsePath_run, parsePath_run]
  rcases alike.session? id with ⟨first, second⟩ | ⟨s, a, b, first, second, both⟩
  · rw [first, second]
    exact alike
  · rw [first, second]
    dsimp only
    rw [respected.paths both]
    exact alike.modifySession (fun _ _ _ related => respected.parsing related _) id

theorem Alike.invalidate (id : ScopeId) (path : String) :
    (w.invalidate id path).Alike trees Q (w'.invalidate id path) :=
  alike.modifySession (fun _ _ _ related => respected.invalidation related path) id

theorem Alike.addLoop (id : ScopeId) (var indexVar : String) (item index : Json) :
    (w.addLoop id var indexVar item index).1 = (w'.addLoop id var indexVar item index).1 ∧
      (w.addLoop id var indexVar item index).2.Alike trees Q (w'.addLoop id var indexVar item index).2 := by
  rw [addLoop_drawn, addLoop_drawn]
  exact (alike.modifySession (fun _ _ _ related => respected.drawing related) id).addChild id _

theorem Alike.release (id : ScopeId) (others : List ScopeId) :
    (w.release id others).Alike trees Q (w'.release id others) := by
  have reached : w.reaches (others ++ w.kept) id = w'.reaches (others ++ w'.kept) id := by
    simp only [reaches, alike.kept, chain_congr alike.scopes]
  have bound : w.bindings id = w'.bindings id := by simp only [bindings, scope?, alike.scopes]
  have counted (vars : Option Members) :=
    alike.modifySession (fun _ _ _ related => respected.release related vars) id
  unfold World.release
  rw [reached, bound]
  dsimp only
  split
  · exact { counted _ with scopes := congrArg (Store.erase id) (counted _).scopes }
  · exact counted _

end

section

variable {trees : Store Tree} {Q : SessionRelation}

theorem respects_withEngine {α : Type} {operation : EngineM α} (respects : Q.Respected operation) (id : ScopeId) :
    Respects (Alike trees Q) (withEngine id operation) := by
  intro w w' alike
  rcases alike.session? id with ⟨first, second⟩ | ⟨s, a, b, first, second, both⟩
  · refine ⟨?_, alike.modifySession_of fun a b there => ?_⟩
    · show (Engine.run operation ((w.session? id).elim {} Session.engine)).1 =
        (Engine.run operation ((w'.session? id).elim {} Session.engine)).1
      rw [first, second]
    · rw [first] at there
      cases there
  · refine ⟨?_, alike.modifySession_of fun a' b' there there' s' both' => ?_⟩
    · show (Engine.run operation ((w.session? id).elim {} Session.engine)).1 =
        (Engine.run operation ((w'.session? id).elim {} Session.engine)).1
      rw [first, second]
      exact (respects both).1
    · rw [there, there']
      exact (respects both').2

/-- What is evaluated in a scope sees the same bindings and options in worlds that differ in sessions only. -/
theorem respects_engine {α : Type} {operation : Resolver → EvalOptions → EngineM α}
    (respects : ∀ resolver options, Q.Respected (operation resolver options)) (id : ScopeId) :
    Respects (Alike trees Q) (do
      let w ← get
      withEngine id (operation (w.resolver id) (w.evalOptions id))) := by
  refine Agree.get_bind fun w w' alike => ?_
  have options : w.evalOptions id = w'.evalOptions id := by simp only [evalOptions, alike.tree?]
  rw [resolver_congr alike.scopes, options]
  exact respects_withEngine (respects _ _) id

variable {allowed : String → Prop} (respected : Q.RespectedByChanges allowed)

include respected

theorem respects_getPath (id : ScopeId) (path : String) : Respects (Alike trees Q) (getPath id path) := by
  have parsing : Respects (Alike trees Q) (parsePath id path) := by
    intro w w' alike
    rw [run_parsePath, run_parsePath]
    exact ⟨rfl, alike.afterParsing respected id path⟩
  refine parsing.bind fun segments => ?_
  cases segments with
  | nil => exact Agree.pure _
  | cons first rest =>
    refine Agree.get_bind fun w w' alike => ?_
    rw [lookup_congr alike.scopes]
    exact Agree.pure _

theorem respects_set (id : ScopeId) (key : String) (value : Json) :
    Respects (Alike trees Q) (set id key value) := by
  intro w w' alike
  rw [run_set, run_set]
  cases checkBindable key with
  | error e => exact ⟨rfl, alike⟩
  | ok => exact ⟨rfl, ((alike.modifyBindings id _).invalidate respected id key).notify id key value⟩

theorem respects_setPath (id : ScopeId) (path : String) (value : Json) :
    Respects (Alike trees Q) (setPath id path value) := by
  intro w w' alike
  have parsed := alike.afterParsing respected id path
  rw [run_setPath, run_setPath]
  cases target path with
  | error e => exact ⟨rfl, parsed⟩
  | ok found =>
    have written := parsed.modifyBindings (w.owner id found.1)
      fun _ => (assign found.1 found.2 value (w.bindings (w.owner id found.1))).1
    dsimp only
    rw [← owner_congr alike.scopes, ← bindings_congr alike.scopes]
    cases (assign found.1 found.2 value (w.bindings (w.owner id found.1))).2 with
    | some fault => exact ⟨rfl, written⟩
    | none => exact ⟨rfl, (written.invalidate respected id path).notify ..⟩

theorem respects_updatePath {α : Type} (id : ScopeId) (path : String)
    (change : Option Json → Except Error (Option Json × α)) :
    Respects (Alike trees Q) (updatePath id path change) := by
  intro w w' alike
  have parsed := alike.afterParsing respected id path
  rw [run_updatePath, run_updatePath]
  cases target path with
  | error e => exact ⟨rfl, parsed⟩
  | ok found =>
    dsimp only
    rw [← owner_congr alike.scopes, ← bindings_congr alike.scopes]
    cases change ((Members.find? found.1 (w.bindings (w.owner id found.1))).bind (Json.get? · found.2)) with
    | error e => exact ⟨rfl, parsed⟩
    | ok outcome =>
      have left old : ((w.afterParsing id path).putBack (w.owner id found.1) found.1 found.2 old outcome.1).Alike
          trees Q ((w'.afterParsing id path).putBack (w.owner id found.1) found.1 found.2 old outcome.1) := by
        unfold putBack
        split
        · exact parsed.modifyBindings _ _
        · exact parsed
      have dropped old := ((left old).invalidate respected id path).invalidate respected id (Path.wildcardOf path)
      dsimp only
      rw [← bindings_congr (dropped _).scopes]
      refine ⟨rfl, ?_⟩
      split
      · exact (dropped _).notify ..
      · exact dropped _

/-- In worlds that differ in their sessions only, as far as no change of a session shows, actions come to the
same. -/
theorem alike_respectedByActions :
    Execute.RespectedByActions (fun _ : Unit => Alike trees Q) (fun _ _ => True) allowed False where
  scopes alike := alike.scopes
  trees alike := alike.left.trans alike.right.symm
  clock alike := alike.clock
  evaluation _ :=
    { evaluate := fun id _ within => respects_engine (respected.evaluate within) id
      interpolate := fun id _ within => respects_engine (respected.interpolate within) id
      resolveValue := fun id _ within => respects_engine (respected.resolveValue within) id }
  getPath _ := respects_getPath respected
  set _ := respects_set respected
  setPath _ := respects_setPath respected
  editArray _ id path edit := respects_updatePath respected id path (editedArray path edit)
  record alike := alike.record
  keep alike id := { alike with kept := congrArg (id :: ·) alike.kept }
  wait alike time := { alike with clock := rfl }
  loop := by
    intro i w w' alike id _ var indexVar item index
    obtain ⟨named, made⟩ := alike.addLoop respected id var indexVar item index
    exact ⟨named, i, trivial, made, fun v v' left => ⟨left.release respected _ [], Or.inr left⟩⟩

end

end World

end StateScript
