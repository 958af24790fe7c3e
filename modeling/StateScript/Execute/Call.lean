import StateScript.Coercion
import StateScript.Execute.Basic
import StateScript.World.Edit

/-!
Actions that reach outside the state: methods, events, navigation and logging. A method runs by
having its requests answered one after the other.
-/

namespace StateScript.Execute

/-- How a method has further actions run: in a scope, under limits of their own. -/
abbrev Reenter := ScopeId → List Json → ExecuteLimits → ExecuteM Unit

/-- How deep a scope lies, and the names it binds itself. -/
def describe (id : ScopeId) (w : World) : Json :=
  .array [.nat (w.depth id), .array ((Members.keys (w.bindings id)).map .string)]

section

variable (reenter : Reenter) (budget : Budget) (id : ScopeId)

/-- Answers one request of a method that was called in a scope. -/
def answer : Request → ExecuteM Json
  | .getPath path => onWorld (World.getPath id path)
  | .setPath path value => onWorld (World.setPath id path value) *> return .null
  | .bind key value => onWorld (World.set id key value) *> return .null
  | .evaluate source => onWorld (World.evaluate id source)
  | .execute actions limits => reenter id actions limits *> return .null
  | .describe => return describe id (← get).world
  | .keep => modifyWorld (fun w => { w with kept := id :: w.kept }) *> return .null
  | .suspend => suspend budget *> return .null
  | .hang => hang budget *> return .null
  | .block ms => modifyWorld (fun w => { w with clock := w.clock + ms }) *> return .null

end

/-- Follows the course of a method to its end, given how its requests are answered. -/
def follow {μ : Type → Type} [Monad μ] (ask : Request → μ (Except Error Json)) :
    Interaction → μ (Except MethodFailure Json)
  | .done value => return .ok value
  | .failed failure => return .error failure
  | .ask request next => do
    let response ← ask request
    follow ask (next response)

def unregistered (name : String) : Error :=
  (Error.service .serviceNotFound s!"Method '{name}' is not registered").withMetadata
    "method" (.string name)

def unknownKind (kind : String) : Error :=
  (Error.action .actionUnknownType s!"Unknown action type '{kind}'").withMetadata
    "type" (.string kind)

/-- Methods that take over navigation. -/
def navigateMethods : List String := ["navigate", "$navigate"]

/-- Navigates without a method. -/
def navigateBy (navigator : Navigator) (target : Json) : ExecuteM Unit := do
  match navigator with
  | .accepts => modifyWorld (World.record (.navigated target))
  | .refuses reason =>
    modifyWorld (World.record (.navigated target))
    fail (.action .actionExecutionError s!"Navigation failed: {reason}")
  | .absent => fail (.action .actionExecutionError "No navigation handler is available")

def emit (id : ScopeId) (event : String) (data : Option Json) : ExecuteM Unit := do
  let data ← match data with
    | some data => onWorld (World.evaluateParam id data)
    | none => pure .null
  modifyWorld (World.emit id event data)

/-- Evaluates the message of a log action. Where it goes is up to the host. -/
def log (id : ScopeId) (message : Json) : ExecuteM Unit :=
  discard (onWorld (World.evaluateParam id message))

/-- A way to run actions. It takes what plain runs do, and may keep something beside the machine. -/
structure Mode (μ : Type → Type) where
  /-- Takes an operation of plain runs. -/
  once {α : Type} (operation : ExecuteM α) : μ α
  /-- Fails with an error that arises here. -/
  raise {α : Type} (e : Error) : μ α

/-- How a way to run actions deals with methods. -/
structure Caller (μ : Type → Type) (κ : Type) extends Mode μ where
  /-- Looks something up in the world. -/
  read {α : Type} (f : World → α) : μ α
  /-- Follows the course of a method that was called in a scope to its end. -/
  interact (id : ScopeId) (interaction : Interaction) : μ (Except κ Json)
  /-- Fails as a method has failed. -/
  failed {α : Type} (name : String) (failure : κ) : μ α

namespace Caller

variable {μ : Type → Type} [Monad μ] {κ : Type} (caller : Caller μ κ) (id : ScopeId)

/-- Calls a method. -/
def invoke (name : String) (method : Method) (params : Json) : μ Json := do
  caller.once (modifyWorld (World.record (.called name params)))
  match ← caller.interact id (method params) with
  | .ok value => return value
  | .error failure => caller.failed name failure

def call (name : String) (params : Option Json) (resultTo : Option String) : μ Unit := do
  match ← caller.read (·.method? id name) with
  | none => caller.raise (unregistered name)
  | some method =>
    let params ← caller.once (onWorld (World.evaluateParams id params))
    let result ← caller.invoke id name method params
    match resultTo with
    | some path => caller.once (onWorld (World.setPath id path result))
    | none => return

/-- Hands an action of no known kind to the method of that name. -/
def custom (kind : String) (raw : Json) : μ Unit := do
  match ← caller.read (·.method? id kind) with
  | none => caller.raise (unknownKind kind)
  | some method =>
    let _ ← caller.invoke id kind method raw
    return

def navigate (target : Json) : μ Unit := do
  let target ← caller.once (onWorld (World.evaluateParam id target))
  match ← caller.read fun w => navigateMethods.findSome? fun name => (w.method? id name).map (name, ·) with
  | some (name, method) =>
    let _ ← caller.invoke id name method target
    return
  | none =>
    let navigator ← caller.read fun w => (w.tree? id).elim .absent Tree.navigator
    caller.once (navigateBy navigator target)

/-- Performs an action without action lists inside. -/
def perform (raw : Json) : Action → μ Unit
  | .set path value => caller.once <| onWorld do
    World.setPath id path (← World.evaluateParam id value)
  | .push path inserted => caller.once <| onWorld do
    World.editArray id path (.append (← World.evaluateInsert id inserted))
  | .pop path => caller.once (onWorld (World.editArray id path .dropLast))
  | .shift path => caller.once (onWorld (World.editArray id path .dropFirst))
  | .unshift path inserted => caller.once <| onWorld do
    World.editArray id path (.prepend (← World.evaluateInsert id inserted))
  | .splice path start deleteCount items => caller.once <| onWorld do
    World.editArray id path (← World.evaluateSplice id start deleteCount items)
  | .call method params resultTo => caller.call id method params resultTo
  | .emit event data => caller.once (emit id event data)
  | .navigate target => caller.navigate id target
  | .log _ message => caller.once (log id message)
  | .custom kind => caller.custom id kind raw

end Caller

section

variable (reenter : Reenter) (budget : Budget)

/-- Plain runs do no more than that. -/
def caller : Caller ExecuteM MethodFailure where
  once operation := operation
  raise := fail
  read f := do return f (← get).world
  interact id := follow fun request => attempt (answer reenter budget id request)
  failed name failure := fail (failure.toError name)

/-- Performs an action without action lists inside. -/
def perform (id : ScopeId) (raw : Json) (action : Action) : ExecuteM Unit :=
  (caller reenter budget).perform id raw action

end

end StateScript.Execute
