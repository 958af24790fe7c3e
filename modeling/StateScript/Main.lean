import StateScript.CommandLine.Run

/-!
The command line: collects the files and variables that a command may look at, carries it out, and
writes what it gives.
-/

namespace StateScript

/-- The variables that can have a meaning. -/
def variableNames : List String :=
  [Config.pathVariable, "VARIO_EXPRESSION__ALLOW_GLOBALS", "VARIO_EXPRESSION__MAX_STEPS",
    "VARIO_EXPRESSION__TIMEOUT_MS", "VARIO_EXPRESSION__MAX_NESTING_DEPTH",
    "VARIO_EXPRESSION__CACHE_RESULTS", "VARIO_EXECUTOR__TIMEOUT_MS", "VARIO_EXECUTOR__MAX_STEPS",
    "VARIO_POOL__LOOP_CONTEXT_CAPACITY", "VARIO_POOL__PATH_CACHE_CAPACITY", "VARIO_LOG__FILTER"]

def usage : List String :=
  ["usage: vario [--config FILE] [--allow-globals] COMMAND",
    "commands:",
    "  run ACTIONS [-s STATE] [--timeout-ms N] [--max-steps N]",
    "  eval EXPRESSION [-s STATE] [--data JSON]",
    "  deps EXPRESSION",
    "  check EXPRESSION",
    "  config"]

/-- The files that a command names. -/
def Invocation.paths (i : Invocation) : List String :=
  let own := match i.command with
    | .run actions state .. => actions :: state.toList
    | .eval _ state _ => state.toList
    | _ => []
  i.configPath.toList ++ own

def readVariables : IO Variables :=
  variableNames.filterMapM fun name => do return (← IO.getEnv name).map (name, ·)

/-- The texts of those files that can be read. -/
def readFiles (paths : List String) : IO (List (String × String)) :=
  paths.filterMapM fun (path : String) => do
    try
      let source ← IO.FS.readFile path
      return some (path, source)
    catch _ => return none

def surroundings (i : Invocation) : IO Surroundings := do
  let vars ← readVariables
  let files ← readFiles (Config.variablesPath :: Config.defaultPath :: i.paths)
  let all := Config.variablesOf ⟨(List.lookup · files), vars⟩
  let named ← readFiles (all.lookup Config.pathVariable).toList
  return ⟨(List.lookup · (files ++ named)), vars⟩

end StateScript

open StateScript in
/-- Carries out the command that the arguments name. -/
def main (args : List String) : IO UInt32 := do
  match CommandLine.parse? args with
  | none =>
    for line in usage do IO.eprintln line
    return 2
  | some invocation =>
    let report := CommandLine.execute (← surroundings invocation) invocation
    for line in report.notes do IO.eprintln line
    for line in report.output do IO.println line
    match report.failure with
    | some message =>
      IO.eprintln s!"Error: {message}"
      return 1
    | none => return 0
