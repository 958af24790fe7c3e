import StateScript.CommandLine.Arguments
import StateScript.Config.Layers
import StateScript.Execute.Run

/-!
The commands: running an action list, evaluating, listing dependencies, checking an expression, and
showing the configuration. A command gives what it writes and, if it fails, a message.
-/

namespace StateScript

/-- What a command has written, and why it failed if it did. -/
structure Report where
  output : List String := []
  notes : List String := []
  failure : Option String := none
  deriving DecidableEq, Repr

namespace Report

def ofOutput (lines : List String) : Report := { output := lines }

def ofFailure (message : String) : Report := { failure := some message }

end Report

namespace CommandLine

/-- Reads a file that has to hold JSON. -/
def readJson (around : Surroundings) (path : String) : Except String Json :=
  match around.file? path with
  | none => .error s!"Failed to read {Text.quoted path}"
  | some source =>
    (Json.read source).mapError fun _ => s!"Failed to parse JSON in {Text.quoted path}"

/-- A world with one root scope over a state. -/
def rootScope (config : Config) (spec : ContextSpec) : Except Error (ScopeId × World) :=
  let (session, w) := World.addSession (.ofCapacities config.pool.loopScopes config.pool.paths) {}
  match (World.create { spec with options := config.expression } session).run w with
  | (.ok id, w) => .ok (id, w)
  | (.error e, _) => .error e

/-- The line that shows an event, for the events that are shown. -/
def eventLine? : Event → Option String
  | .emitted event data => some s!"event {event}: {data.compact}"
  | .navigated target => some s!"navigate: {target.compact}"
  | .called .. => none
  | .changed .. => none

def eventLines (w : World) : List String := w.events.reverse.filterMap eventLine?

/-- The outcome of a computation that may fail with a message. -/
def reporting (result : Except String Report) : Report :=
  match result with
  | .ok report => report
  | .error message => .ofFailure message

def run (around : Surroundings) (config : Config) (actions : String) (state : Option String) :
    Report := reporting do
  let actions ← match ← readJson around actions with
    | .array actions => pure actions
    | _ => throw "Actions file must contain a JSON array"
  let state ← match state with
    | some path => readJson around path
    | none => pure .null
  let (id, w) ← (rootScope config { state, emits := true, navigator := .accepts }).mapError
    Error.report
  match Execute.execute id actions config.executor w with
  | (.ok (), w) => return { output := [(w.state id).pretty], notes := eventLines w }
  | (.error e, w) => return { notes := eventLines w, failure := some e.report }

/-- Evaluates an expression, or a template if there are markers in it. -/
def evaluate (id : ScopeId) (source : String) : WorldM Json :=
  if Template.hasMarkers source.toList then World.interpolate id source
  else World.evaluate id source

def eval (around : Surroundings) (config : Config) (expression : String) (state : Option String)
    (data : String) : Report := reporting do
  let state ← match state with
    | some path => readJson around path
    | none => (Json.read data).mapError fun _ => "Failed to parse --data"
  let (id, w) ← (rootScope config { state }).mapError Error.report
  let value ← ((evaluate id expression).run w).1.mapError Error.report
  return .ofOutput [value.pretty]

def deps (config : Config) (expression : String) : Report := reporting do
  let (result, _) := Engine.run (Engine.dependencies expression config.expression) {}
  return .ofOutput (← result.mapError Error.report)

def check (config : Config) (expression : String) : Report := reporting do
  let tree ← (Expr.parse (Template.stripMarkers expression)).mapError Error.report
  let violations := tree.violations config.expression.validation
  if violations.isEmpty then return .ofOutput ["✓ Expression is valid"]
  else
    return { notes := violations.map Violation.display
             failure := some s!"{violations.length} validation error(s)" }

/-- What a command asks of the configuration. -/
def configRequest (invocation : Invocation) : ConfigRequest :=
  let base : ConfigRequest :=
    { configPath := invocation.configPath
      allowGlobals := if invocation.allowGlobals then some true else none }
  match invocation.command with
  | .run _ _ timeoutMs maxSteps =>
    { base with executorTimeoutMs := timeoutMs, executorMaxSteps := maxSteps }
  | _ => base

/-- Carries out a command, for which a usable configuration has to be there. -/
def execute (around : Surroundings) (invocation : Invocation) : Report :=
  match Config.build around (configRequest invocation) with
  | .error fault => .ofFailure fault.message
  | .ok config =>
    match invocation.command with
    | .run actions state _ _ => run around config actions state
    | .eval expression state data => eval around config expression state data
    | .deps expression => deps config expression
    | .check expression => check config expression
    | .config => .ofOutput [config.toToml]

end CommandLine

end StateScript
