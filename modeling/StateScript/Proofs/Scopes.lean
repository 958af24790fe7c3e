import StateScript.Proofs.Runs
import StateScript.Proofs.Stores
import StateScript.World.Access
import StateScript.World.Handles

/-!
What the scopes of a world say, and which changes of a world leave it alone. Names are looked up in
the scopes only, so whatever happens in a session or is told to the host does not matter to them.
-/

namespace StateScript.World

section

variable {w after : World}

theorem bindings_congr (same : after.scopes = w.scopes) (id : ScopeId) :
    after.bindings id = w.bindings id := by
  simp only [bindings, scope?, same]

theorem chain_congr (same : after.scopes = w.scopes) (id : ScopeId) : after.chain id = w.chain id := by
  simp only [chain, same]

theorem owner_congr (same : after.scopes = w.scopes) (id : ScopeId) (name : String) :
    after.owner id name = w.owner id name := by
  have binds : after.binds name = w.binds name := by
    funext scope
    simp only [World.binds, bindings_congr same]
  simp only [owner, root, chain_congr same, binds]

theorem state_congr (same : after.scopes = w.scopes) (id : ScopeId) : after.state id = w.state id := by
  simp only [state, root, chain_congr same, bindings_congr same]

end

section

variable (w : World) (id : ScopeId)

@[simp] theorem modifySession_scopes (change : Session → Session) :
    (w.modifySession id change).scopes = w.scopes := by
  unfold modifySession
  split <;> rfl

@[simp] theorem modifySession_trees (change : Session → Session) :
    (w.modifySession id change).trees = w.trees := by
  unfold modifySession
  split <;> rfl

@[simp] theorem modifySession_kept (change : Session → Session) :
    (w.modifySession id change).kept = w.kept := by
  unfold modifySession
  split <;> rfl

@[simp] theorem invalidate_scopes (path : String) : (w.invalidate id path).scopes = w.scopes :=
  modifySession_scopes w id _

@[simp] theorem invalidate_trees (path : String) : (w.invalidate id path).trees = w.trees :=
  modifySession_trees w id _

/-- The host is told without any change but in what it has seen. -/
theorem notify_eq (path : String) (value : Json) :
    w.notify id path value = { w with events := (w.notify id path value).events } := by
  unfold notify
  split
  · split <;> rfl
  · rfl

@[simp] theorem notify_scopes (path : String) (value : Json) :
    (w.notify id path value).scopes = w.scopes := by
  rw [notify_eq]

@[simp] theorem notify_trees (path : String) (value : Json) :
    (w.notify id path value).trees = w.trees := by
  rw [notify_eq]

@[simp] theorem notify_sessions (path : String) (value : Json) :
    (w.notify id path value).sessions = w.sessions := by
  rw [notify_eq]

end

theorem scope?_modifyBindings (w : World) (id other : ScopeId) (change : Members → Members) :
    (w.modifyBindings id change).scope? other =
      if other = id then (w.scope? other).map fun s => { s with bindings := change s.bindings }
      else w.scope? other :=
  Store.find?_modify id other _ w.scopes

theorem bindings_modifyBindings_ne {id other : ScopeId} (different : other ≠ id) (w : World)
    (change : Members → Members) : (w.modifyBindings id change).bindings other = w.bindings other := by
  simp only [bindings, scope?_modifyBindings, if_neg different]

theorem bindings_modifyBindings_self {w : World} {id : ScopeId} {scope : Scope}
    (present : w.scope? id = some scope) (change : Members → Members) :
    (w.modifyBindings id change).bindings id = change (w.bindings id) := by
  simp [bindings, scope?_modifyBindings, present]

/-- Writing back what a scope binds changes nothing. -/
theorem bindings_modifyBindings_same (w : World) (id scope : ScopeId) :
    (w.modifyBindings id fun _ => w.bindings id).bindings scope = w.bindings scope := by
  by_cases hit : scope = id
  · subst hit
    cases present : w.scope? scope with
    | none => simp [bindings, scope?_modifyBindings, present]
    | some found => exact bindings_modifyBindings_self present _
  · exact bindings_modifyBindings_ne hit w _

/-- Where a loop scope is drawn from does not show in what it binds. -/
theorem addLoop_drawn (w : World) (parent : ScopeId) (var indexVar : String) (item index : Json) :
    w.addLoop parent var indexVar item index =
      (w.modifySession parent fun s => { s with pool := s.pool.acquire.2 }).addChild parent
        (loopBindings var indexVar item index) := by
  unfold addLoop loopBindings
  cases w.session? parent with
  | none => rfl
  | some session => simp only [Option.elim_some, LoopPool.acquire_fst]

theorem addLoop_of_present {w : World} {id : ScopeId} {scope : Scope} (present : w.scope? id = some scope)
    (var indexVar : String) (item index : Json) : w.addLoop id var indexVar item index =
      (w.scopes.next, { w.modifySession id fun s => { s with pool := s.pool.acquire.2 } with
        scopes := (w.scopes.add ⟨loopBindings var indexVar item index, some id, scope.tree⟩).2 }) := by
  have still (change : Session → Session) : (w.modifySession id change).scope? id = some scope := by
    rw [scope?, modifySession_scopes]
    exact present
  simp only [addLoop_drawn, addChild, still, modifySession_scopes]
  rfl

/-- A loop scope binds what its loop binds. -/
theorem bindings_addLoop {w : World} {id : ScopeId} {scope : Scope} (present : w.scope? id = some scope)
    (var indexVar : String) (item index : Json) (other : ScopeId) :
    (w.addLoop id var indexVar item index).2.bindings other =
      if other = w.scopes.next then loopBindings var indexVar item index else w.bindings other := by
  rw [addLoop_of_present present]
  simp only [bindings, scope?, Store.find?_add]
  split <;> rfl

theorem bindings_addLoop_newest {w : World} {id : ScopeId} {scope : Scope} (present : w.scope? id = some scope)
    (var indexVar : String) (item index : Json) :
    let after := (w.addLoop id var indexVar item index).2
    after.bindings (after.scopes.next - 1) = loopBindings var indexVar item index := by
  have newest : (w.addLoop id var indexVar item index).2.scopes.next - 1 = w.scopes.next := by
    rw [addLoop_of_present present]
    rfl
  dsimp only
  rw [newest, bindings_addLoop present, if_pos rfl]

/-- There is nothing to make a loop scope in. -/
theorem addLoop_of_missing {w : World} {id : ScopeId} (missing : w.scope? id = none) (var indexVar : String)
    (item index : Json) : w.addLoop id var indexVar item index = (id, w) := by
  have still (change : Session → Session) : w.modifySession id change = w := by
    simp only [modifySession, tree?, missing, Option.bind_none]
  simp only [addLoop_drawn, still, addChild, missing]

/-- The pool of a session. -/
def pool? (w : World) (s : SessionId) : Option LoopPool := (w.sessions.find? s).map Session.pool

/-- Neither the scopes nor the pools of a world have changed. -/
structure Untouched (w after : World) : Prop where
  scopes : after.scopes = w.scopes
  pools : ∀ s, after.pool? s = w.pool? s

theorem pool?_modifySession (w : World) (id : ScopeId) (change : Session → Session) (s : SessionId) :
    (w.modifySession id change).pool? s =
      if (w.tree? id).map Tree.session = some s then (w.sessions.find? s).map fun session => (change session).pool
      else w.pool? s := by
  unfold modifySession
  cases w.tree? id with
  | none => rfl
  | some tree =>
    simp only [pool?, Store.find?_modify, Option.map_some, Option.some.injEq]
    by_cases own : s = tree.session
    · subst own
      rw [if_pos rfl, if_pos rfl, Option.map_map]
      rfl
    · rw [if_neg own, if_neg (Ne.symm own)]

theorem untouched_modifySession (w : World) (id : ScopeId) {change : Session → Session}
    (keeps : ∀ session, (change session).pool = session.pool) : w.Untouched (w.modifySession id change) where
  scopes := modifySession_scopes ..
  pools s := by
    rw [pool?_modifySession]
    split
    · simp only [keeps]
      rfl
    · rfl

/-- A root stands alone in its chain. -/
theorem chain_of_root {w : World} {id : ScopeId} {scope : Scope} (present : w.scope? id = some scope)
    (top : scope.parent = none) : w.chain id = [id] := by
  unfold scope? at present
  simp only [chain, chainWithin, present, top]

theorem root_of_root {w : World} {id : ScopeId} {scope : Scope} (present : w.scope? id = some scope)
    (top : scope.parent = none) : w.root id = id := by
  simp [root, chain_of_root present top]

/-- What is written through a root lands in it. -/
theorem owner_of_root {w : World} {id : ScopeId} {scope : Scope} (present : w.scope? id = some scope)
    (top : scope.parent = none) (name : String) : w.owner id name = id := by
  simp only [owner, chain_of_root present top, root_of_root present top, List.find?_cons, List.find?_nil]
  cases w.binds name id <;> rfl

/-- A world with one tree, whose root holds some state and has the number 1. -/
def holding (state : Members) : World :=
  ((create { state := .object state } 1).run (addSession (.ofCapacities 10 1024) {}).2).2

end StateScript.World
