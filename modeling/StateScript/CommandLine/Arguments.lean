import StateScript.Config.Basic

/-!
Command-line arguments: options that any command takes, a command, its own options, and its plain
arguments. Behind `--` every argument is plain. Arguments that do not fit give nothing.
-/

namespace StateScript

inductive Command where
  | run (actions : String) (state : Option String) (timeoutMs maxSteps : Option Nat)
  | eval (expression : String) (state : Option String) (data : String)
  | deps (expression : String)
  | check (expression : String)
  | config
  deriving DecidableEq, Repr

/-- A command with the options that any command takes. -/
structure Invocation where
  configPath : Option String
  allowGlobals : Bool
  command : Command
  deriving DecidableEq, Repr

namespace CommandLine

/-- What an option has behind it. -/
inductive OptionValue where
  | nothing
  | path
  | natural
  | text
  deriving DecidableEq, Repr

structure OptionSpec where
  name : String
  short : Option Char := none
  value : OptionValue
  deriving DecidableEq, Repr

def commonOptions : List OptionSpec :=
  [{ name := "config", value := .path }, { name := "allow-globals", value := .nothing }]

def runOptions : List OptionSpec :=
  [{ name := "state", short := some 's', value := .path },
    { name := "timeout-ms", value := .natural }, { name := "max-steps", value := .natural }]

def evalOptions : List OptionSpec :=
  [{ name := "state", short := some 's', value := .path }, { name := "data", value := .text }]

/-- Options with their values, and plain arguments. -/
structure Arguments where
  options : List (String × String) := []
  plain : List String := []

namespace Arguments

/-- Whether a value will do for an option. -/
def fits (value : String) : OptionValue → Bool
  | .nothing => false
  | .path => !value.isEmpty
  | .natural => (SettingReader.naturalText? value.toList).isSome
  | .text => true

/-- Adds an option with a value; each option may be given once. -/
def add? (spec : OptionSpec) (value : String) (a : Arguments) : Option Arguments :=
  if (a.options.lookup spec.name).isSome || !fits value spec.value then none
  else some { a with options := (spec.name, value) :: a.options }

def addFlag? (spec : OptionSpec) (a : Arguments) : Option Arguments :=
  if (a.options.lookup spec.name).isSome || spec.value ≠ .nothing then none
  else some { a with options := (spec.name, "") :: a.options }

def addPlain (value : String) (a : Arguments) : Arguments := { a with plain := a.plain ++ [value] }

def option? (name : String) (a : Arguments) : Option String := a.options.lookup name

def natural? (name : String) (a : Arguments) : Option Nat :=
  (a.option? name).bind fun s => SettingReader.naturalText? s.toList

def has (name : String) (a : Arguments) : Bool := (a.option? name).isSome

end Arguments

/-- Whether an argument looks like an option; a dash alone does not. -/
def isOption (s : String) : Bool :=
  match s.toList with
  | '-' :: _ :: _ => true
  | _ => false

/-- What one argument is. -/
inductive Shape where
  | plain
  | rest
  | flag (spec : OptionSpec)
  | valued (spec : OptionSpec) (value : Option String)
  | unknown

/-- The text behind an equals sign. -/
def behindEquals (cs : List Char) : Option String :=
  match cs.dropWhile (· ≠ '=') with
  | _ :: value => some (String.ofList value)
  | [] => none

/-- A long option, with its value if an equals sign follows the name. -/
def longShape (specs : List OptionSpec) (cs : List Char) : Shape :=
  let name := String.ofList (cs.takeWhile (· ≠ '='))
  match specs.find? (·.name == name), behindEquals cs with
  | some spec, value =>
    if spec.value ≠ .nothing then .valued spec value
    else if value.isNone then .flag spec else .unknown
  | none, _ => .unknown

/-- A short option, with the rest of the argument as its value. -/
def shortShape (specs : List OptionSpec) (c : Char) (cs : List Char) : Shape :=
  match specs.find? (·.short == some c), cs with
  | some spec, [] => .valued spec none
  | some spec, '=' :: value => .valued spec (some (String.ofList value))
  | some spec, value => .valued spec (some (String.ofList value))
  | none, _ => .unknown

def shape (specs : List OptionSpec) (s : String) : Shape :=
  match s.toList with
  | ['-', '-'] => .rest
  | '-' :: '-' :: cs => longShape specs cs
  | '-' :: c :: cs => shortShape specs c cs
  | _ => .plain

/-- Reads the arguments of a command. -/
def readArguments (specs : List OptionSpec) (a : Arguments) : List String → Option Arguments
  | [] => some a
  | s :: rest =>
    match shape specs s, rest with
    | .plain, rest => readArguments specs (a.addPlain s) rest
    | .rest, rest => some { a with plain := a.plain ++ rest }
    | .flag spec, rest => (a.addFlag? spec).bind fun a => readArguments specs a rest
    | .valued spec (some value), rest =>
      (a.add? spec value).bind fun a => readArguments specs a rest
    | .valued spec none, value :: rest =>
      if isOption value then none
      else (a.add? spec value).bind fun a => readArguments specs a rest
    | .valued _ none, [] => none
    | .unknown, _ => none

/-- Reads the options in front of the command; gives the command and what follows it. -/
def readCommon (a : Arguments) : List String → Option (Arguments × String × List String)
  | [] => none
  | s :: rest =>
    match shape commonOptions s, rest with
    | .plain, rest => some (a, s, rest)
    | .flag spec, rest => (a.addFlag? spec).bind fun a => readCommon a rest
    | .valued spec (some value), rest => (a.add? spec value).bind fun a => readCommon a rest
    | .valued spec none, value :: rest =>
      if isOption value then none else (a.add? spec value).bind fun a => readCommon a rest
    | .valued _ none, [] => none
    | .rest, _ => none
    | .unknown, _ => none

/-- The options of a command by name. -/
def optionsOf? : String → Option (List OptionSpec)
  | "run" => some runOptions
  | "eval" => some evalOptions
  | "deps" => some []
  | "check" => some []
  | "config" => some []
  | _ => none

/-- The command of a name with these arguments. -/
def command? (name : String) (a : Arguments) : Option Command :=
  match name, a.plain with
  | "run", [actions] =>
    some (.run actions (a.option? "state") (a.natural? "timeout-ms") (a.natural? "max-steps"))
  | "eval", [expression] =>
    some (.eval expression (a.option? "state") ((a.option? "data").getD "\x7b\x7d"))
  | "deps", [expression] => some (.deps expression)
  | "check", [expression] => some (.check expression)
  | "config", [] => some .config
  | _, _ => none

/-- Reads the arguments of the program. An option in front of the command yields to the same one
behind it. -/
def parse? (args : List String) : Option Invocation := do
  let (common, name, rest) ← readCommon {} args
  let own ← readArguments (commonOptions ++ (← optionsOf? name)) {} rest
  return {
    configPath := (own.option? "config").orElse fun _ => common.option? "config"
    allowGlobals := own.has "allow-globals" || common.has "allow-globals"
    command := ← command? name own }

end CommandLine

end StateScript
