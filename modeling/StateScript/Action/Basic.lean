import StateScript.Error

/-!
Actions. A step is one raw action together with what it asks for; the action lists inside it are
read with it, so that a run follows the shape of its steps.
-/

namespace StateScript

inductive LogLevel where
  | debug
  | info
  | warn
  | error
  deriving DecidableEq, Repr

namespace LogLevel

/-- Reads a level in any case of ASCII letters; an unknown one counts as `info`. -/
def parse (s : String) : LogLevel :=
  match String.ofList (s.toList.map Char.toLower) with
  | "debug" => debug
  | "trace" => debug
  | "warn" => warn
  | "warning" => warn
  | "error" => error
  | _ => info

def text : LogLevel → String
  | debug => "debug"
  | info => "info"
  | warn => "warn"
  | error => "error"

end LogLevel

/-- What is put into an array: one value, or every item of an array. -/
inductive Insert where
  | value (v : Json)
  | items (v : Json)

/-- An action without action lists inside. Its values are as written, markers included. An action
of no known kind is `custom`: a method of that name may take it over. -/
inductive Action where
  | set (path : String) (value : Json)
  | push (path : String) (inserted : Insert)
  | pop (path : String)
  | shift (path : String)
  | unshift (path : String) (inserted : Insert)
  | splice (path : String) (start : Json) (deleteCount items : Option Json)
  | call (method : String) (params : Option Json) (resultTo : Option String)
  | emit (event : String) (data : Option Json)
  | navigate (target : Json)
  | log (level : LogLevel) (message : Json)
  | custom (kind : String)

/-- Why a raw action cannot be read. -/
inductive ActionFault where
  | missing (kind param : String)
  | invalid (param reason : String)
  deriving DecidableEq, Repr

def ActionFault.error : ActionFault → Error
  | missing kind param =>
    (Error.action .actionMissingParam s!"Action '{kind}' requires '{param}'").withMetadata
      "param" (.string param)
  | invalid param reason =>
    (Error.action .actionInvalidParam s!"Parameter '{param}' {reason}").withMetadata
      "param" (.string param)

/-- A raw action and what it says. -/
inductive Step where
  | malformed (raw : Json) (fault : ActionFault)
  | single (raw : Json) (action : Action)
  | branch (raw cond : Json) (yes no : List Step)
  | loop (raw : Json) (var indexVar : String) (source : Json) (body : List Step)
  | batch (raw : Json) (steps : List Step)

/-- The action as it was written. -/
def Step.raw : Step → Json
  | malformed raw _ => raw
  | single raw _ => raw
  | branch raw .. => raw
  | loop raw .. => raw
  | batch raw _ => raw

end StateScript
