import StateScript.Config.Toml
import StateScript.Config.Variables

/-!
Building a configuration from layers: the defaults, then a file, then variables, then explicit
values. A later layer wins, setting by setting.
-/

namespace StateScript

/-- What a configuration is built from: how to read a file, and the variables that are set. -/
structure Surroundings where
  file? : String → Option String
  vars : Variables

/-- Explicit values, and where to look for the rest. -/
structure ConfigRequest where
  configPath : Option String := none
  skipVariables : Bool := false
  allowGlobals : Option Bool := none
  expressionMaxSteps : Option Nat := none
  expressionTimeoutMs : Option Nat := none
  executorTimeoutMs : Option Nat := none
  executorMaxSteps : Option Nat := none
  logFilter : Option String := none

namespace Settings

def tableOf : Json → Members
  | .object ms => ms
  | _ => []

mutual

/-- Lays a value over what stands under a name, in lower case. Tables are laid over each other
setting by setting. -/
def overlay (name : String) (settings : Json) : Json → Json
  | .object ms =>
    let key := SettingReader.lowered name
    let inner := (Members.find? key (tableOf settings)).getD (.object [])
    .object (Members.insert key (overlayAll inner ms) (tableOf settings))
  | v => .object (Members.insert (SettingReader.lowered name) v (tableOf settings))
  termination_by structural v => v

/-- Lays the members of a table over a value. -/
def overlayAll (settings : Json) : List (String × Json) → Json
  | [] => settings
  | (name, v) :: rest => overlayAll (overlay name settings v) rest
  termination_by structural ms => ms

end

/-- Lays one value over the setting at a path. -/
def overlayAt (value : Json) : List String → Json → Json
  | [], settings => settings
  | [name], settings => overlay name settings value
  | name :: rest, settings =>
    let inner := (Members.find? name (tableOf settings)).getD (.object [])
    .object (Members.insert name (overlayAt value rest inner) (tableOf settings))

/-- Lays the settings that variables hold over a tree. -/
def overlayVariables (settings : Json) (vars : Variables) : Json :=
  vars.foldl (fun settings (name, value) =>
    match Variables.settingPath? name with
    | some path => overlayAt (Variables.settingValue value) path settings
    | none => settings) settings

end Settings

namespace Config

/-- The configuration file that is read where none is named. -/
def defaultPath : String := "vario.toml"

/-- The variable that names a configuration file. -/
def pathVariable : String := "VARIO_CONFIG_PATH"

/-- The file of variables in the working directory. -/
def variablesPath : String := ".env"

/-- The variables that count, those from the file among them. -/
def variablesOf (around : Surroundings) : Variables :=
  match around.file? variablesPath with
  | some source => Variables.withFile source around.vars
  | none => around.vars

/-- The text of a file that is named and so has to be there. -/
def namedFile (around : Surroundings) (path : String) : Except ConfigFault (Option String) :=
  match around.file? path with
  | some source => .ok (some source)
  | none => .error (.notFound path)

/-- The text of the configuration file, if there is one. -/
def fileSource (around : Surroundings) (vars : Variables) (request : ConfigRequest) :
    Except ConfigFault (Option String) :=
  match request.configPath with
  | some path => namedFile around path
  | none =>
    if request.skipVariables then .ok none
    else match vars.lookup pathVariable with
      | some path => namedFile around path
      | none => .ok (around.file? defaultPath)

/-- Puts in the explicit values. -/
def withRequest (request : ConfigRequest) (c : Config) : Config :=
  { c with
    expression := { c.expression with
      allowGlobals := request.allowGlobals.getD c.expression.allowGlobals
      maxSteps := request.expressionMaxSteps.getD c.expression.maxSteps
      timeoutMs := request.expressionTimeoutMs.getD c.expression.timeoutMs }
    executor := {
      timeoutMs := request.executorTimeoutMs.getD c.executor.timeoutMs
      maxSteps := request.executorMaxSteps.getD c.executor.maxSteps }
    logFilter := request.logFilter.getD c.logFilter }

/-- Builds a configuration that may be used. -/
def build (around : Surroundings) (request : ConfigRequest) : Except ConfigFault Config := do
  let vars := if request.skipVariables then [] else variablesOf around
  let file ← match ← fileSource around vars request with
    | none => pure []
    | some source =>
      match Toml.read? source with
      | some settings => pure settings
      | none => throw .notLoaded
  let settings := Settings.overlayAll (.object []) file
  let settings := Settings.overlayVariables settings vars
  match ofSettings? .lenient (Settings.tableOf settings) with
  | none => throw .invalid
  | some c =>
    let c := c.withRequest request
    c.validate
    return c

/-- The configuration of one file alone, not checked. -/
def ofFile (around : Surroundings) (path : String) : Except ConfigFault Config :=
  match around.file? path with
  | none => .error (.unreadable path)
  | some source =>
    match (Toml.read? source).bind (ofSettings? .strict) with
    | some c => .ok c
    | none => .error (.unparsable path)

end Config

end StateScript
