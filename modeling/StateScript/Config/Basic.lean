import StateScript.Eval.Basic
import StateScript.Method
import StateScript.Text.Quoted
import StateScript.Word

/-!
Configuration: the limits of expressions and of runs, the sizes of the loop pool and the path
cache, and a log filter.
-/

namespace StateScript

structure PoolSizes where
  loopScopes : Nat := 10
  paths : Nat := 1024
  deriving DecidableEq, Repr

structure Config where
  expression : EvalOptions := {}
  executor : ExecuteLimits := {}
  pool : PoolSizes := {}
  logFilter : String := "info"
  deriving DecidableEq, Repr

/-- Why there is no configuration. -/
inductive ConfigFault where
  | notFound (path : String)
  | unreadable (path : String)
  | unparsable (path : String)
  | notLoaded
  | invalid
  | zero (setting : String)
  deriving DecidableEq, Repr

def ConfigFault.message : ConfigFault → String
  | notFound path => s!"Config file not found: {Text.quoted path}"
  | unreadable path => s!"Failed to read config file: {Text.quoted path}"
  | unparsable path => s!"Failed to parse config file: {Text.quoted path}"
  | notLoaded => "Failed to load configuration"
  | invalid => "Invalid configuration"
  | zero setting => s!"{setting} must be greater than 0"

namespace Config

/-- The settings that may not be zero, in the order in which they are checked. -/
def positiveSettings (c : Config) : List (String × Nat) :=
  [("expression.max_steps", c.expression.maxSteps),
    ("expression.max_nesting_depth", c.expression.maxNestingDepth),
    ("executor.max_steps", c.executor.maxSteps),
    ("executor.timeout_ms", c.executor.timeoutMs),
    ("pool.path_cache_capacity", c.pool.paths)]

/-- Refuses a configuration under which nothing could run. -/
def validate (c : Config) : Except ConfigFault Unit :=
  match c.positiveSettings.find? fun (_, value) => value == 0 with
  | some (setting, _) => .error (.zero setting)
  | none => .ok ()

end Config

/-- How the value of a setting is read. -/
structure SettingReader where
  nat : Json → Option Nat
  bool : Json → Option Bool
  text : Json → Option String

namespace SettingReader

/-- Takes only values of the setting's own type. -/
def strict : SettingReader where
  nat
    | .number (.int i) => if 0 ≤ i then some i.toNat else none
    | _ => none
  bool
    | .bool b => some b
    | _ => none
  text
    | .string s => some s
    | _ => none

def lowered (s : String) : String := String.ofList (s.toList.map Char.toLower)

def isYes (s : String) : Bool := ["true", "on", "yes"].contains (lowered s)

def isNo (s : String) : Bool := ["false", "off", "no"].contains (lowered s)

/-- A natural number in decimal, with or without a plus. -/
def naturalText? (cs : List Char) : Option Nat :=
  let digits := match cs with
    | '+' :: rest => rest
    | cs => cs
  if digits.isEmpty || !digits.all Char.isDigit then none
  else if Word.max64 < Decimal.naturalOf digits then none
  else some (Decimal.naturalOf digits)

/-- The nearest natural number, a half going up; negative numbers and NaN give zero. -/
def nearestNatural (x : Float) : Nat :=
  match Binary64.dyadic? x with
  | some d =>
    let (num, den) := d.ratio
    if d.negative then 0 else min Word.max64 ((2 * num + den) / (2 * den))
  | none => if 0 < x then Word.max64 else 0

def floatText (x : Float) : String :=
  if x.isInf then (if 0 < x then "inf" else "-inf") else Json.formatNumber x

/-- Lets numbers, truth values and texts stand for one another. -/
def lenient : SettingReader where
  nat
    | .number (.int i) => if 0 ≤ i then some i.toNat else none
    | .number (.float x) => some (nearestNatural x)
    | .bool b => some b.toNat
    | .string s =>
      if isYes s then some 1 else if isNo s then some 0 else naturalText? s.toList
    | _ => none
  bool
    | .bool b => some b
    | .number (.int i) => some (i != 0)
    | .number (.float x) => some (x != 0)
    | .string s =>
      if s = "1" ∨ isYes s then some true else if s = "0" ∨ isNo s then some false else none
    | _ => none
  text
    | .string s => some s
    | .bool b => some (if b then "true" else "false")
    | .number (.int i) => some (toString i)
    | .number (.float x) => some (floatText x)
    | _ => none

/-- The value of a setting in a table, or a default if it is not there. -/
def setting {α : Type} (read : Json → Option α) (table : Members) (name : String)
    (default : α) : Option α :=
  match Members.find? name table with
  | none => some default
  | some v => read v

/-- A table of settings, empty if it is not there. -/
def table (settings : Members) (name : String) : Option Members :=
  match Members.find? name settings with
  | none => some []
  | some (.object ms) => some ms
  | some _ => none

end SettingReader

/-- The configuration that a tree of settings stands for. Unknown settings do not matter. -/
def Config.ofSettings? (reader : SettingReader) (settings : Members) : Option Config := do
  let expression ← SettingReader.table settings "expression"
  let executor ← SettingReader.table settings "executor"
  let pool ← SettingReader.table settings "pool"
  let log ← SettingReader.table settings "log"
  let base : Config := {}
  return {
    expression := {
      allowGlobals := ← SettingReader.setting reader.bool expression "allow_globals"
        base.expression.allowGlobals
      maxSteps := ← SettingReader.setting reader.nat expression "max_steps" base.expression.maxSteps
      timeoutMs := ← SettingReader.setting reader.nat expression "timeout_ms"
        base.expression.timeoutMs
      maxNestingDepth := ← SettingReader.setting reader.nat expression "max_nesting_depth"
        base.expression.maxNestingDepth
      cacheResults := ← SettingReader.setting reader.bool expression "cache_results"
        base.expression.cacheResults }
    executor := {
      timeoutMs := ← SettingReader.setting reader.nat executor "timeout_ms" base.executor.timeoutMs
      maxSteps := ← SettingReader.setting reader.nat executor "max_steps" base.executor.maxSteps }
    pool := {
      loopScopes := ← SettingReader.setting reader.nat pool "loop_context_capacity"
        base.pool.loopScopes
      paths := ← SettingReader.setting reader.nat pool "path_cache_capacity" base.pool.paths }
    logFilter := ← SettingReader.setting reader.text log "filter" base.logFilter }

end StateScript
