import StateScript.World.Basic

/-!
Reading and writing through a scope. A read finds the nearest scope that binds a name; a write at
a path goes to the scope that binds its first name, or to the root. Every write drops the cached
results it may change and then tells the host, if it landed in the root.
-/

namespace StateScript

/-- Names with this start belong to the engine. -/
def reservedStart : Char := '$'

def isReserved (key : String) : Bool := key.toList.head? == some reservedStart

/-- Reserved names that scopes may bind all the same. -/
def bindableReserved : List String :=
  ["$event", "$item", "$index", "$self", "$parent", "$siblings", "$children"]

/-- Whether a scope may bind a name. -/
def isBindable (key : String) : Bool :=
  !isDenied key && (!isReserved key || bindableReserved.contains key)

/-- The gate for names that are bound. -/
def checkBindable (key : String) : Except Error Unit :=
  if isBindable key then .ok ()
  else .error ((Error.expression .expressionUnsafeAccess
    s!"Cannot write reserved key '{key}'").withMetadata "key" (.string key))

namespace World

/-- The value of a name in the nearest scope that binds it. -/
def lookup (w : World) (id : ScopeId) (name : String) : Option Json :=
  (w.chain id).findSome? fun s => Members.find? name (w.bindings s)

/-- The nearest scope that binds a name, or the root. -/
def owner (w : World) (id : ScopeId) (name : String) : ScopeId :=
  ((w.chain id).find? (w.binds name)).getD (w.root id)

/-- The tree under which results that read some names are kept: none if a scope below the root
binds one of them. -/
def cacheScope (w : World) (id : ScopeId) (names : List String) : Option TreeId :=
  if (w.chain id).dropLast.any fun s => names.any fun n => w.binds n s then none
  else (w.scope? id).map Scope.tree

def resolver (w : World) (id : ScopeId) : Resolver :=
  { lookup := w.lookup id, cacheScope := w.cacheScope id }

/-- Drops the results of a scope's session that depend on a path. -/
def invalidate (id : ScopeId) (path : String) (w : World) : World :=
  w.modifySession id fun s => { s with engine := (s.engine.invalidate path).2 }

/-- Tells the host of a change in the root. -/
def notify (id : ScopeId) (path : String) (value : Json) (w : World) : World :=
  match w.tree? id with
  | some tree => if tree.observes && w.isRoot id then w.record (.changed path value) else w
  | none => w

/-- Parses a path through the cache of a scope's session. -/
def parsePath (id : ScopeId) (path : String) : WorldM Path := ExceptT.mk fun w =>
  match w.session? id with
  | none => (Path.parse path, w)
  | some session =>
    let (result, paths) := session.paths.parse path
    (result, w.modifySession id fun s => { s with paths })

/-- The value at a path; missing paths read as null. -/
def getPath (id : ScopeId) (path : String) : WorldM Json := do
  match ← parsePath id path with
  | [] => return .null
  | first :: rest =>
    let w ← get
    return ((w.lookup id first.text).bind (Json.get? · rest)).getD .null

/-- Binds a name in a scope itself. -/
def set (id : ScopeId) (key : String) (value : Json) : WorldM Unit := do
  ExceptT.mk (return checkBindable key)
  modify fun w =>
    ((w.modifyBindings id (Members.insert key value)).invalidate id key).notify id key value

/-- The name that a path to be written starts with. -/
def firstKey (path : String) : Path → Except Error String
  | [] => .error (.action .actionInvalidParam s!"Invalid path '{path}'")
  | .wildcard :: _ => .error (.action .actionInvalidParam s!"Invalid path '{path}'")
  | segment :: _ => .ok segment.text

/-- The first name of a path that may be written, and the segments behind it. -/
def writablePath (id : ScopeId) (path : String) : WorldM (String × Path) := do
  let segments ← parsePath id path
  let first ← ExceptT.mk (return firstKey path segments)
  ExceptT.mk (return checkBindable first)
  return (first, segments.drop 1)

/-- Writes below a name among bindings. A failed write leaves no new binding. -/
def assign (first : String) (rest : Path) (value : Json) (bindings : Members) :
    Members × Option WriteFault :=
  match Members.find? first bindings with
  | some old =>
    let (new, fault) := old.write rest value
    (Members.insert first new bindings, fault)
  | none =>
    let (new, fault) := Json.null.write rest value
    if fault.isSome then (bindings, fault) else (Members.insert first new bindings, none)

/-- Writes a value at a path, in the scope that owns its first name. -/
def setPath (id : ScopeId) (path : String) (value : Json) : WorldM Unit := do
  let (first, rest) ← writablePath id path
  let w ← get
  let owner := w.owner id first
  let (bindings, fault) := assign first rest value (w.bindings owner)
  modify (modifyBindings owner fun _ => bindings)
  match fault with
  | some fault =>
    throw ((fault.error (Path.render rest)).withMetadata "path" (.string path))
  | none => modify fun w => (w.invalidate id path).notify owner path value

/-- Changes the value at a path in place, or hears that there is none. The change gives the new
value, if there is one to put back, and an answer. -/
def updatePath {α : Type} (id : ScopeId) (path : String)
    (change : Option Json → Except Error (Option Json × α)) : WorldM α := do
  let (first, rest) ← writablePath id path
  let w ← get
  let owner := w.owner id first
  let old := (Members.find? first (w.bindings owner)).bind (Json.get? · rest)
  let (new, answer) ← ExceptT.mk (return change old)
  match old, new with
  | some _, some new =>
    modify (modifyBindings owner fun bindings =>
      match (Members.find? first bindings).bind (Json.replace? · rest new) with
      | some slot => Members.insert first slot bindings
      | none => bindings)
  | _, _ => pure ()
  modify fun w => (w.invalidate id path).invalidate id (Path.wildcardOf path)
  modify fun w =>
    match (Members.find? first (w.bindings owner)).bind (Json.get? · rest) with
    | some value => w.notify owner path value
    | none => w
  return answer

/-- Runs an operation on the engine of a scope's session. -/
def withEngine {α : Type} (id : ScopeId) (operation : EngineM α) : WorldM α :=
  ExceptT.mk fun w =>
    let engine := (w.session? id).elim {} Session.engine
    let (result, engine) := Engine.run operation engine
    (result, w.modifySession id fun s => { s with engine })

/-- Evaluates an expression in a scope. -/
def evaluate (id : ScopeId) (source : String) : WorldM Json := do
  let w ← get
  withEngine id (Engine.evaluate source (w.resolver id) (w.evalOptions id))

def interpolate (id : ScopeId) (template : String) : WorldM Json := do
  let w ← get
  withEngine id (Engine.interpolate template (w.resolver id) (w.evalOptions id))

def resolveValue (id : ScopeId) (value : Json) : WorldM Json := do
  let w ← get
  withEngine id (Engine.resolveValue (w.resolver id) (w.evalOptions id) value)

/-- Registers a method for every scope of a tree, in place of an earlier one of that name. -/
def register (id : ScopeId) (name : String) (method : Method) (w : World) : World :=
  match w.scope? id with
  | some scope =>
    { w with trees := w.trees.modify scope.tree fun tree =>
        { tree with methods := (name, method) :: tree.methods.filter fun (n, _) => n != name } }
  | none => w

/-- Fires an event, if the host listens. -/
def emit (id : ScopeId) (event : String) (data : Json) (w : World) : World :=
  match w.tree? id with
  | some tree => if tree.emits then w.record (.emitted event data) else w
  | none => w

end World

end StateScript
