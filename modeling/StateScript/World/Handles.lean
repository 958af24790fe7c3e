import StateScript.World.Basic

/-!
Creating scopes and letting go of them. A scope lives as long as a handle reaches it, directly or
from a scope below it; with its last scope a tree goes, and with the tree its cached results.
-/

namespace StateScript

/-- What a new tree of scopes is created from. -/
structure ContextSpec where
  state : Json
  options : EvalOptions := {}
  methods : List (String × Method) := []
  emits : Bool := false
  observes : Bool := false
  navigator : Navigator := .absent

namespace World

def addSession (session : Session) (w : World) : SessionId × World :=
  let (id, sessions) := w.sessions.add session
  (id, { w with sessions })

/-- The bindings that an initial state makes; null makes none. -/
def initialBindings : Json → Except Error Members
  | .null => .ok []
  | .object ms => .ok ms
  | v => .error (.action .actionInvalidParam
      s!"Initial state must be an object, got {v.typeName}")

/-- Creates a tree with its root scope. -/
def create (spec : ContextSpec) (session : SessionId) : WorldM ScopeId := do
  let bindings ← ExceptT.mk (return initialBindings spec.state)
  let w ← get
  let tree : Tree :=
    { session, methods := spec.methods, options := spec.options, emits := spec.emits,
      observes := spec.observes, navigator := spec.navigator }
  let (treeId, trees) := w.trees.add tree
  let (id, scopes) := w.scopes.add ⟨bindings, none, treeId⟩
  MonadStateOf.set { w with trees, scopes }
  return id

/-- Adds a scope below another one. -/
def addChild (parent : ScopeId) (bindings : Members) (w : World) : ScopeId × World :=
  match w.scope? parent with
  | some scope =>
    let (id, scopes) := w.scopes.add ⟨bindings, some parent, scope.tree⟩
    (id, { w with scopes })
  | none => (parent, w)

/-- The bindings of a handler's scope. -/
def eventBindings (event : Json) : Members := Members.insert "$event" event []

/-- Puts the item and the index of a loop among the bindings drawn for its scope; a later name counts
where two are the same. -/
def bindLoop (var indexVar : String) (item index : Json) (drawn : Members) : Members :=
  Members.insert "$index" index <| Members.insert "$item" item <|
    Members.insert indexVar index <| Members.insert var item drawn

/-- The bindings of a loop scope that start from none. -/
def loopBindings (var indexVar : String) (item index : Json) : Members :=
  bindLoop var indexVar item index []

/-- Adds a loop scope, drawn from the pool. -/
def addLoop (parent : ScopeId) (var indexVar : String) (item index : Json) (w : World) :
    ScopeId × World :=
  let drawn := (w.session? parent).elim [] fun s => s.pool.acquire.1
  let w := w.modifySession parent fun s => { s with pool := s.pool.acquire.2 }
  w.addChild parent (bindLoop var indexVar item index drawn)

/-- Whether one of some handles reaches a scope. -/
def reaches (w : World) (handles : List ScopeId) (id : ScopeId) : Bool :=
  handles.any fun h => (w.chain h).contains id

/-- Gives a scope back to the pool, given the other handles there are. -/
def release (id : ScopeId) (others : List ScopeId) (w : World) : World :=
  let recyclable := !w.reaches (others ++ w.kept) id
  let vars := if recyclable then some (w.bindings id) else none
  let w := w.modifySession id fun s => { s with pool := s.pool.release vars }
  if recyclable then { w with scopes := w.scopes.erase id } else w

/-- Drops the scopes that no handle reaches, and the trees without scopes. -/
def collect (handles : List ScopeId) (w : World) : World :=
  let live := (handles ++ w.kept).flatMap w.chain
  let scopes := w.scopes.filter live.contains
  let isLive (tree : TreeId) : Bool := scopes.entries.any fun (_, s) => s.tree == tree
  let dead := w.trees.entries.filter fun (id, _) => !isLive id
  let sessions := dead.foldl (fun sessions (id, tree) =>
    sessions.modify tree.session fun s => { s with engine := s.engine.removeScope id }) w.sessions
  { w with scopes, trees := w.trees.filter isLive, sessions }

end World

end StateScript
