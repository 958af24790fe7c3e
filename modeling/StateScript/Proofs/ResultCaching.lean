import StateScript.Proofs.Dependencies
import StateScript.Proofs.EngineMemory
import StateScript.Proofs.EvaluatedTexts
import StateScript.Proofs.Trees
import StateScript.World.Edit

/-!
Results that are kept are up to date: each is the answer in the root of its tree. What is evaluated
in any scope of a tree is then the same with kept results and without.
-/

namespace StateScript

namespace ResultCache

theorem mem_of_find? {scope : TreeId} {source : String} {cache : ResultCache} {entry : CachedResult}
    (found : cache.find? scope source = some entry) :
    entry ∈ cache ∧ entry.scope = scope ∧ entry.source = source := by
  induction cache with
  | nil => cases found
  | cons first rest ih =>
    unfold find? at found
    split at found
    · rename_i here
      cases found
      exact ⟨List.mem_cons_self .., here⟩
    · obtain ⟨member, place⟩ := ih found
      exact ⟨List.mem_cons_of_mem _ member, place⟩

theorem mem_of_mem_insert {entry other : CachedResult} {cache : ResultCache}
    (member : other ∈ cache.insert entry) : other = entry ∨ other ∈ cache := by
  rcases List.mem_cons.mp member with same | old
  · exact Or.inl same
  · exact Or.inr ((List.mem_filter.mp old).1)

end ResultCache

namespace World

/-- No scope binds a name that stands for a builtin. -/
def BuiltinFree (w : World) : Prop := ∀ id, ∀ name ∈ nonStateNames, w.binds name id = false

/-- A result is the answer in the root of its tree, which belongs to the session. -/
def UpToDate (w : World) (session : SessionId) (entry : CachedResult) : Prop :=
  ∃ root shared, w.shape? root = some (none, entry.scope) ∧ w.trees.find? entry.scope = some shared ∧
    shared.session = session ∧ Engine.IsAnswer entry (w.resolver root) shared.options

/-- The engine of a session remembers what it would compute, and its results are up to date. -/
structure Remembers (w : World) (session : SessionId) (engine : Engine) : Prop where
  sound : engine.Sound
  results : ∀ entry ∈ engine.results, w.UpToDate session entry

/-- The scopes form trees, and every session remembers what it would compute. -/
structure Faithful (w : World) : Prop where
  coherent : w.Coherent
  sessions : ∀ {id session}, w.sessions.find? id = some session → w.Remembers id session.engine

section

variable {w : World} {id root : ScopeId} {up : Option ScopeId} {tree : TreeId} {shared : Tree}

theorem cacheScope_eq_some {names : List String} {scope : TreeId} (found : w.shape? id = some (up, tree))
    (allowed : w.cacheScope id names = some scope) :
    scope = tree ∧ ∀ name ∈ names, ∀ s ∈ (w.chain id).dropLast, w.binds name s = false := by
  obtain ⟨bindings, present⟩ := shape?_eq_some_iff.mp found
  unfold cacheScope at allowed
  split at allowed
  · cases allowed
  · rename_i unshadowed
    simp only [present, Option.map_some, Option.some.injEq] at allowed
    refine ⟨allowed.symm, fun name reads s below => ?_⟩
    cases shadows : w.binds name s with
    | false => rfl
    | true =>
      have bound : names.any (fun n => w.binds n s) = true := List.any_eq_true.mpr ⟨name, reads, shadows⟩
      exact absurd (List.any_eq_true.mpr ⟨s, below, bound⟩) unshadowed

theorem cacheScope_of_top (top : w.shape? root = some (none, tree)) (names : List String) :
    w.cacheScope root names = some tree := by
  obtain ⟨bindings, present⟩ := shape?_eq_some_iff.mp top
  simp [cacheScope, chain_of_top top, present]

/-- Where results may be kept, an expression looks up the same as in the root. -/
theorem Coherent.sameOn (coherent : w.Coherent) (free : w.BuiltinFree)
    (found : w.shape? id = some (up, tree)) (top : w.shape? root = some (none, tree))
    {source : String} {e : Expr} (parsed : Expr.parse source = .ok e) {scope : TreeId}
    (allowed : w.cacheScope id (dependencyRoots e.dependencies) = some scope) :
    Eval.SameOn (w.resolver id) (w.resolver root) e.lookups := by
  intro name member
  apply coherent.lookup_eq found top
  intro s below
  rcases Expr.mem_dependencyRoots parsed member with builtin | depends
  · exact free s name builtin
  · exact (cacheScope_eq_some found allowed).2 name depends s below

theorem tree?_eq_some_iff : w.tree? id = some shared ↔
    ∃ up tree, w.shape? id = some (up, tree) ∧ w.trees.find? tree = some shared := by
  unfold tree? shape?
  cases w.scope? id with
  | none => simp
  | some scope => simp [and_assoc]

section

variable (coherent : w.Coherent) (free : w.BuiltinFree) (member : w.tree? id = some shared)

include coherent free member

/-- Results that are up to date are answers in every scope that may find them. -/
theorem Remembers.agrees {engine : Engine} (remembers : w.Remembers shared.session engine) :
    Engine.Agrees engine.results (w.resolver id) shared.options := by
  intro source e scope entry parsed allowed hit
  obtain ⟨up, tree, found, own⟩ := tree?_eq_some_iff.mp member
  obtain ⟨stored, rfl, rfl⟩ := ResultCache.mem_of_find? hit
  obtain ⟨root, other, top, there, _, tree', _, _, _, _, value⟩ := remembers.results entry stored
  obtain ⟨same, _⟩ := cacheScope_eq_some found allowed
  rw [same] at top there
  obtain rfl := Option.some.inj (own.symm.trans there)
  rw [← value]
  refine Engine.answer_congr (.refl _) rfl fun e' parsed' => ?_
  obtain rfl := Except.ok.inj (parsed.symm.trans parsed')
  exact coherent.sameOn free found top parsed allowed

/-- An answer that a scope may keep is up to date. -/
theorem upToDate_of_isAnswer {entry : CachedResult}
    (answer : Engine.IsAnswer entry (w.resolver id) shared.options) : w.UpToDate shared.session entry := by
  obtain ⟨up, tree, found, own⟩ := tree?_eq_some_iff.mp member
  obtain ⟨e, parsed, dependencies, bare, allowed, value⟩ := answer
  obtain ⟨same, _⟩ := cacheScope_eq_some found allowed
  obtain ⟨_, _, top⟩ := coherent.chain_eq found
  refine ⟨w.root id, shared, same ▸ top, same ▸ own, rfl, e, parsed, dependencies, bare, ?_, ?_⟩
  · rw [same]
    exact cacheScope_of_top top _
  · rw [← value]
    refine Engine.answer_congr (.refl _) rfl fun e' parsed' => ?_
    obtain rfl := Except.ok.inj (parsed.symm.trans parsed')
    exact fun name looked => (coherent.sameOn free found top parsed allowed name looked).symm

/-- An evaluation gives the answer and leaves an engine that remembers. -/
theorem Remembers.evaluate {engine : Engine} (remembers : w.Remembers shared.session engine) (source : String) :
    w.Remembers shared.session ((Engine.evaluate source (w.resolver id) shared.options).run engine).2 ∧
      ((Engine.evaluate source (w.resolver id) shared.options).run engine).1 =
        Engine.answer (Template.stripMarkers source) (w.resolver id) shared.options := by
  have evaluated := Engine.evaluate_evaluated remembers.sound source
    fun _ => remembers.agrees coherent free member
  refine ⟨⟨evaluated.sound, ?_⟩, evaluated.value⟩
  rcases evaluated.results with same | ⟨entry, answer, stored⟩
  · rw [same]
    exact remembers.results
  · rw [stored]
    intro other either
    rcases ResultCache.mem_of_mem_insert either with rfl | old
    · exact upToDate_of_isAnswer coherent free member answer
    · exact remembers.results other old

end

end

section

variable {w after : World} {session : SessionId}

theorem resolver_congr (same : after.scopes = w.scopes) (id : ScopeId) : after.resolver id = w.resolver id := by
  have lookups : after.lookup id = w.lookup id := by
    funext name
    simp only [lookup, chain_congr same, bindings_congr same]
  have places : after.cacheScope id = w.cacheScope id := by
    funext names
    simp only [cacheScope, chain_congr same, binds, bindings_congr same, scope?, same]
    rfl
  simp only [resolver, lookups, places]

theorem shape?_congr (same : after.scopes = w.scopes) (id : ScopeId) : after.shape? id = w.shape? id := by
  simp only [shape?, scope?, same]

theorem UpToDate.congr {entry : CachedResult} (upToDate : w.UpToDate session entry)
    (scopes : after.scopes = w.scopes) (trees : after.trees = w.trees) : after.UpToDate session entry := by
  obtain ⟨root, shared, top, there, own, answer⟩ := upToDate
  refine ⟨root, shared, ?_, ?_, own, ?_⟩
  · rw [shape?_congr scopes, top]
  · rw [trees, there]
  · rw [resolver_congr scopes]
    exact answer

theorem Remembers.congr {engine : Engine} (remembers : w.Remembers session engine)
    (scopes : after.scopes = w.scopes) (trees : after.trees = w.trees) : after.Remembers session engine :=
  ⟨remembers.sound, fun entry member => (remembers.results entry member).congr scopes trees⟩

theorem Remembers.empty : w.Remembers session {} := ⟨Engine.Sound.empty 0, by simp⟩

end

section

variable (w : World) (id : ScopeId)

theorem withEngine_fst {α : Type} (operation : EngineM α) : ((withEngine id operation).run w).1 =
    (operation.run ((w.session? id).elim {} Session.engine)).1 := rfl

theorem withEngine_snd {α : Type} (operation : EngineM α) : ((withEngine id operation).run w).2 =
    w.modifySession id fun s =>
      { s with engine := (operation.run ((w.session? id).elim {} Session.engine)).2 } := rfl

theorem run_evaluate (source : String) : (evaluate id source).run w =
    (withEngine id (Engine.evaluate source (w.resolver id) (w.evalOptions id))).run w := by
  unfold evaluate
  rw [run_bind, run_get]

theorem run_interpolate (template : String) : (interpolate id template).run w =
    (withEngine id (Engine.interpolate template (w.resolver id) (w.evalOptions id))).run w := by
  unfold interpolate
  rw [run_bind, run_get]

theorem run_resolveValue (value : Json) : (resolveValue id value).run w =
    (withEngine id (Engine.resolveValue (w.resolver id) (w.evalOptions id) value)).run w := by
  unfold resolveValue
  rw [run_bind, run_get]

end

section

variable {w : World} (faithful : w.Faithful) (id : ScopeId)

include faithful

/-- The engine that a scope works with. -/
theorem Faithful.remembers {shared : Tree} (member : w.tree? id = some shared) :
    w.Remembers shared.session ((w.session? id).elim {} Session.engine) := by
  have found : w.session? id = w.sessions.find? shared.session := by simp [session?, member]
  rw [found]
  cases present : w.sessions.find? shared.session with
  | none => exact Remembers.empty
  | some session => exact faithful.sessions present

/-- A change of the session keeps a world faithful if it leaves an engine that remembers. -/
theorem Faithful.modifySession {change : Session → Session}
    (keeps : ∀ shared session, w.tree? id = some shared → w.sessions.find? shared.session = some session →
      w.Remembers shared.session (change session).engine) : (w.modifySession id change).Faithful := by
  have scopes := modifySession_scopes w id change
  have trees := modifySession_trees w id change
  refine ⟨faithful.coherent.congr (shape?_congr scopes) trees, ?_⟩
  intro other session found
  refine Remembers.congr ?_ scopes trees
  cases member : w.tree? id with
  | none =>
    simp only [World.modifySession, member] at found
    exact faithful.sessions found
  | some shared =>
    simp only [World.modifySession, member, Store.find?_modify] at found
    split at found
    · rename_i same
      subst same
      obtain ⟨before, present, changed⟩ := Option.map_eq_some_iff.mp found
      subst changed
      exact keeps shared before member present
    · exact faithful.sessions found

theorem Faithful.besideEngine {change : Session → Session}
    (same : ∀ session, (change session).engine = session.engine) :
    (w.modifySession id change).Faithful := by
  apply faithful.modifySession id
  intro shared session _ present
  rw [same]
  exact faithful.sessions present

theorem Faithful.withEngine {α : Type} {operation : EngineM α}
    (keeps : ∀ shared, w.tree? id = some shared → Keeps (w.Remembers shared.session) operation) :
    ((withEngine id operation).run w).2.Faithful := by
  rw [withEngine_snd]
  apply faithful.modifySession id
  intro shared session member _
  exact keeps shared member _ (faithful.remembers id member)

variable (free : w.BuiltinFree)

include free

theorem Faithful.keeps_evaluate {shared : Tree} (member : w.tree? id = some shared) (source : String) :
    Keeps (w.Remembers shared.session) (Engine.evaluate source (w.resolver id) (w.evalOptions id)) := by
  have options : w.evalOptions id = shared.options := by simp [evalOptions, member]
  rw [options]
  exact fun _ remembers => (remembers.evaluate faithful.coherent free member source).1

theorem Faithful.keeps_sources {shared : Tree} (member : w.tree? id = some shared) :
    Engine.HoldsOfSources (fun _ => True) (w.resolver id) (w.evalOptions id)
      fun operation => Keeps (w.Remembers shared.session) operation where
  evaluate _ := faithful.keeps_evaluate id free member _
  pure := Keeps.pure
  bind := Keeps.bind

theorem Faithful.evaluate (source : String) : ((evaluate id source).run w).2.Faithful := by
  rw [run_evaluate]
  exact faithful.withEngine id fun _ member => faithful.keeps_evaluate id free member source

theorem Faithful.interpolate (template : String) : ((interpolate id template).run w).2.Faithful := by
  rw [run_interpolate]
  exact faithful.withEngine id fun _ member =>
    (faithful.keeps_sources id free member).interpolate fun _ _ => trivial

theorem Faithful.resolveValue (value : Json) : ((resolveValue id value).run w).2.Faithful := by
  rw [run_resolveValue]
  exact faithful.withEngine id fun _ member =>
    (faithful.keeps_sources id free member).resolveValue fun _ _ _ _ => trivial

/-- What a scope evaluates is the answer, whatever results are kept. -/
theorem Faithful.evaluate_eq (source : String) : ((World.evaluate id source).run w).1 =
    Engine.answer (Template.stripMarkers source) (w.resolver id) (w.evalOptions id) := by
  rw [run_evaluate, withEngine_fst]
  cases member : w.tree? id with
  | none =>
    have fresh : w.session? id = none := by simp [session?, member]
    rw [fresh]
    exact (Engine.evaluate_evaluated (Engine.Sound.empty 0) source
      fun _ _ _ _ _ _ _ hit => by cases hit).value
  | some shared =>
    have options : w.evalOptions id = shared.options := by simp [evalOptions, member]
    rw [options]
    exact ((faithful.remembers id member).evaluate faithful.coherent free member source).2

end

/-- Evaluates an expression in a scope without looking at results that are kept, and keeps none. -/
def evaluateAnew (id : ScopeId) (source : String) : WorldM Json := do
  let w ← get
  withEngine id (Engine.evaluate source (w.resolver id) { w.evalOptions id with cacheResults := false })

/-- The scopes form trees, and every engine remembers what it would compute, whatever results it keeps. -/
structure Sound (w : World) : Prop where
  coherent : w.Coherent
  engines : ∀ {id session}, w.sessions.find? id = some session → session.engine.Sound

theorem Faithful.sound {w : World} (faithful : w.Faithful) : w.Sound :=
  ⟨faithful.coherent, fun found => (faithful.sessions found).sound⟩

theorem Sound.evaluateAnew_eq {w : World} (sound : w.Sound) (id : ScopeId) (source : String) :
    ((evaluateAnew id source).run w).1 =
      Engine.answer (Template.stripMarkers source) (w.resolver id) (w.evalOptions id) := by
  have engine : ((w.session? id).elim {} Session.engine).Sound := by
    cases found : w.session? id with
    | none => exact Engine.Sound.empty 0
    | some session =>
      obtain ⟨shared, _, present⟩ := Option.bind_eq_some_iff.mp found
      exact sound.engines present
  unfold evaluateAnew
  rw [run_bind, run_get]
  simp only [withEngine_fst]
  rw [(Engine.evaluate_evaluated engine source fun caching => by cases caching).value]
  exact Engine.answer_congr ⟨rfl, rfl, rfl⟩ rfl fun _ _ _ _ => rfl

theorem Faithful.evaluateAnew_eq {w : World} (faithful : w.Faithful) (id : ScopeId) (source : String) :
    ((evaluateAnew id source).run w).1 =
      Engine.answer (Template.stripMarkers source) (w.resolver id) (w.evalOptions id) :=
  faithful.sound.evaluateAnew_eq id source

end World

end StateScript
