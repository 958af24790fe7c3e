import StateScript.Proofs.ResultCaching

/-!
Writes invalidate what reads them. A result that looks up a name depends on a path that intersects
every path with that first name, so no write through a scope leaves a result behind that it changes.
-/

namespace StateScript

namespace Lexeme

theorem not_isName_toString (i : Nat) : ¬ IsName (toString i) := by
  rintro ⟨c, rest, spelled, start, _⟩
  have digits : (toString i).toList = Nat.toDigits 10 i := by simp [toString, Nat.repr]
  have member : c ∈ Nat.toDigits 10 i := by
    rw [← digits, spelled]
    exact List.mem_cons_self ..
  have digit : c.isDigit = true := Nat.isDigit_of_mem_toDigits (by decide) (by decide) member
  rw [isDigit_of_isNameStart start] at digit
  cases digit

end Lexeme

namespace Path

/-- A path starts with a name: its first segment is no wildcard and has the name as its text. -/
def StartsWith (path : Path) (name : String) : Prop :=
  ∃ segment rest, path = segment :: rest ∧ segment ≠ .wildcard ∧ segment.text = name

theorem withoutWildcard_cons {segment : Segment} (plain : segment ≠ .wildcard) (rest : Path) :
    ∃ more, withoutWildcard (segment :: rest) = segment :: more := by
  unfold withoutWildcard
  cases rest with
  | nil =>
    refine ⟨[], ?_⟩
    simp [endsInWildcard, plain]
  | cons next more =>
    split
    · exact ⟨(next :: more).dropLast, rfl⟩
    · exact ⟨next :: more, rfl⟩

theorem agree_key {n : String} (name : Lexeme.IsName n) {path : Path} (starts : path.StartsWith n) :
    agree [.key n] (withoutWildcard path) = true := by
  obtain ⟨segment, rest, rfl, plain, text⟩ := starts
  obtain ⟨more, same⟩ := withoutWildcard_cons plain rest
  rw [same]
  cases segment with
  | wildcard => exact absurd rfl plain
  | index i =>
    rw [← text] at name
    exact absurd name (Lexeme.not_isName_toString i)
  | key k =>
    have equal : k = n := text
    simp [agree, Segment.matchesSegment, equal]

/-- A name intersects every path that starts with it, alone and with everything below it. -/
theorem textsIntersect_name {n text : String} {path : Path} (name : Lexeme.IsName n)
    (parsed : read text = .ok path) (starts : path.StartsWith n) :
    textsIntersect n text = true ∧ textsIntersect (wildcardOf n) text = true := by
  simp only [textsIntersect, read_name name, read_wildcardOf_name name, parsed, intersect]
  exact ⟨agree_key name starts, agree_key name starts⟩

theorem read_of_parse {text : String} {path : Path} (parsed : parse text = .ok path) :
    read text = .ok path := by
  unfold parse at parsed
  cases outcome : read text with
  | error fault => simp [outcome, Except.mapError] at parsed
  | ok segments =>
    rw [outcome] at parsed
    exact congrArg Except.ok (Except.ok.inj parsed)

end Path

/-- A result is dropped by a write that starts with a name it looks up. -/
theorem ResultCache.touched_of_lookup {entry : CachedResult} {e : Expr} {n text : String} {path : Path}
    (parsed : Expr.parse entry.source = .ok e) (dependencies : entry.dependencies = e.dependencies)
    (looked : n ∈ e.lookups) (state : n ∉ nonStateNames) (written : Path.read text = .ok path)
    (starts : path.StartsWith n) : touched text entry = true := by
  have name := Expr.lookups_isName e (Expr.parse_onlyNames parsed) n looked
  obtain ⟨alone, below⟩ := Path.textsIntersect_name name written starts
  simp only [touched, dependencies, Expr.dependencies, List.any_eq_true, NameSet.mem_ofList]
  rcases Expr.outsideChain (Expr.reads_cover e false n looked) with builtin | path | wildcard
  · exact absurd builtin state
  · exact ⟨n, path, alone⟩
  · exact ⟨Path.wildcardOf n, wildcard, below⟩

namespace World

/-- A result stays up to date where its root stays, with the same values for the names it looks up. -/
theorem UpToDate.frame {w after : World} {session : SessionId} {entry : CachedResult}
    (upToDate : w.UpToDate session entry)
    (shapes : ∀ root, w.shape? root = some (none, entry.scope) → after.shape? root = some (none, entry.scope))
    (trees : after.trees.find? entry.scope = w.trees.find? entry.scope)
    (values : ∀ root e, w.shape? root = some (none, entry.scope) → Expr.parse entry.source = .ok e →
      entry.dependencies = e.dependencies → ∀ n ∈ e.lookups,
        Members.find? n (after.bindings root) = Members.find? n (w.bindings root)) :
    after.UpToDate session entry := by
  obtain ⟨root, shared, top, there, own, e, parsed, dependencies, bare, _, value⟩ := upToDate
  have still := shapes root top
  refine ⟨root, shared, still, trees.trans there, own, e, parsed, dependencies, bare,
    cacheScope_of_top still _, ?_⟩
  rw [← value]
  refine Engine.answer_congr (.refl _) rfl fun e' parsed' n looked => ?_
  obtain rfl := Except.ok.inj (parsed.symm.trans parsed')
  show after.lookup root n = w.lookup root n
  rw [lookup_of_top still, lookup_of_top top]
  exact values root e top parsed dependencies n looked

@[simp] theorem shape?_modifyBindings (w : World) (id other : ScopeId) (change : Members → Members) :
    (w.modifyBindings id change).shape? other = w.shape? other := by
  simp only [shape?, scope?_modifyBindings]
  split
  · cases w.scope? other <;> rfl
  · rfl

/-- Bindings change, scopes do not. -/
theorem shape?_of_modified {w after : World} {owner : ScopeId} {change : Members → Members}
    (scopes : after.scopes = (w.modifyBindings owner change).scopes) (id : ScopeId) :
    after.shape? id = w.shape? id := by
  rw [shape?_congr scopes, shape?_modifyBindings]

section

variable {w : World} {id : ScopeId} {up : Option ScopeId} {tree : TreeId}

/-- All scopes of a chain belong to one tree. -/
theorem Coherent.mem_chain (coherent : w.Coherent) (found : w.shape? id = some (up, tree)) {other : ScopeId}
    (member : other ∈ w.chain id) : ∃ above, w.shape? other = some (above, tree) := by
  induction id using Nat.strongRecOn generalizing up with
  | ind id ih =>
    cases up with
    | none =>
      rw [chain_of_top found, List.mem_singleton] at member
      exact ⟨none, member ▸ found⟩
    | some parent =>
      rw [coherent.chain_of_parent found, List.mem_cons] at member
      rcases member with rfl | further
      · exact ⟨some parent, found⟩
      · obtain ⟨above, there⟩ := coherent.parents found
        exact ih parent (coherent.older found) there further

/-- The owner of a name belongs to the tree of the scope. -/
theorem Coherent.owner_tree (coherent : w.Coherent) {name : String}
    (found : w.shape? (w.owner id name) = some (up, tree)) : ∃ above, w.shape? id = some (above, tree) := by
  cases own : w.shape? id with
  | none =>
    have empty := chain_of_missing own
    have same : w.owner id name = id := by simp [owner, root, empty]
    rw [same, own] at found
    cases found
  | some shape =>
    obtain ⟨above, other⟩ := shape
    have member : w.owner id name ∈ w.chain id := by
      obtain ⟨below, ends, _⟩ := coherent.chain_eq own
      unfold owner
      cases binder : (w.chain id).find? (w.binds name) with
      | none => simp [ends]
      | some scope => simpa using List.mem_of_find?_eq_some binder
    obtain ⟨_, there⟩ := coherent.mem_chain own member
    rw [found] at there
    cases there
    exact ⟨above, rfl⟩

end

/-- A result that a scope keeps in its session after an invalidation. -/
theorem mem_results_invalidate {w : World} {id : ScopeId} {text : String} {sid : SessionId} {session : Session}
    (found : (w.invalidate id text).sessions.find? sid = some session) :
    ∃ before, w.sessions.find? sid = some before ∧
      session.engine = { before.engine with results := session.engine.results } ∧
      ∀ entry ∈ session.engine.results, entry ∈ before.engine.results ∧
        ∀ shared, w.tree? id = some shared → shared.session = sid → ResultCache.touched text entry = false := by
  unfold invalidate modifySession at found
  split at found
  · rename_i shared member
    simp only [Store.find?_modify] at found
    split at found
    · rename_i same
      obtain ⟨before, present, changed⟩ := Option.map_eq_some_iff.mp found
      subst changed
      refine ⟨before, present, rfl, fun entry kept => ?_⟩
      obtain ⟨old, untouched⟩ := List.mem_filter.mp kept
      exact ⟨old, fun _ _ _ => by simpa using untouched⟩
    · rename_i different
      -- The session belongs to other trees and keeps what it had.
      refine ⟨session, found, rfl, fun entry kept => ⟨kept, fun other own same => ?_⟩⟩
      rw [member] at own
      cases own
      exact absurd same.symm different
  · rename_i missing
    refine ⟨session, found, rfl, fun entry kept => ⟨kept, fun other own _ => ?_⟩⟩
    rw [missing] at own
    cases own

theorem Faithful.invalidate {w : World} (faithful : w.Faithful) (id : ScopeId) (text : String) :
    (w.invalidate id text).Faithful := by
  apply faithful.modifySession id
  intro shared session _ present
  have remembers := faithful.sessions present
  exact ⟨remembers.sound.withResults _, fun entry kept =>
    remembers.results entry (List.mem_filter.mp kept).1⟩

/-- A write to the owner of a name, followed by the invalidation of a path that starts with it. -/
theorem Faithful.write {w : World} (faithful : w.Faithful) {id owner : ScopeId} {first text : String}
    {change : Members → Members}
    (sameTree : ∀ {up tree}, w.shape? owner = some (up, tree) → ∃ above, w.shape? id = some (above, tree))
    (others : ∀ n, n ≠ first →
      Members.find? n (change (w.bindings owner)) = Members.find? n (w.bindings owner))
    (state : ∀ {shape}, w.shape? owner = some shape → first ∉ nonStateNames)
    (reaches : Lexeme.IsName first → ∃ path, Path.read text = .ok path ∧ path.StartsWith first) :
    ((w.modifyBindings owner change).invalidate id text).Faithful := by
  have scopes : ((w.modifyBindings owner change).invalidate id text).scopes =
    (w.modifyBindings owner change).scopes := invalidate_scopes _ _ _
  have trees : ((w.modifyBindings owner change).invalidate id text).trees = w.trees := invalidate_trees _ _ _
  have shapes (other : ScopeId) :
      ((w.modifyBindings owner change).invalidate id text).shape? other = w.shape? other :=
    shape?_of_modified scopes other
  refine ⟨faithful.coherent.congr shapes trees, ?_⟩
  intro sid session found
  obtain ⟨before, present, engine, kept⟩ := mem_results_invalidate found
  have remembers := faithful.sessions (show w.sessions.find? sid = some before from present)
  refine ⟨?_, fun entry member => ?_⟩
  · rw [engine]
    exact remembers.sound.withResults _
  · obtain ⟨old, untouched⟩ := kept entry member
    have upToDate := remembers.results entry old
    refine upToDate.frame (fun root top => (shapes root).trans top) (by rw [trees]) ?_
    intro root e top parsed dependencies n looked
    rw [bindings_congr scopes]
    by_cases target : root = owner
    · subst target
      obtain ⟨bindings, there⟩ := shape?_eq_some_iff.mp top
      rw [bindings_modifyBindings_self there]
      by_cases same : n = first
      · subst same
        -- The result looks up the name that is written, so the invalidation has dropped it.
        obtain ⟨path, read, starts⟩ :=
          reaches (Expr.lookups_isName e (Expr.parse_onlyNames parsed) n looked)
        have touched := ResultCache.touched_of_lookup parsed dependencies looked (state top) read starts
        obtain ⟨above, ownTree⟩ := sameTree top
        obtain ⟨_, shared, _, own, session', _⟩ := upToDate
        have ofTree : (w.modifyBindings root change).tree? id = some shared :=
          tree?_eq_some_iff.mpr ⟨above, entry.scope, by rw [shape?_modifyBindings, ownTree], own⟩
        rw [untouched shared ofTree session'] at touched
        cases touched
      · exact others n same
    · rw [bindings_modifyBindings_ne target]

end World

end StateScript
