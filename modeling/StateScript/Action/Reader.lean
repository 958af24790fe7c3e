import StateScript.Action.Basic

/-!
Reading raw actions. Parameters are read in a fixed order, and the first one that is missing or of
the wrong type is the fault reported.
-/

namespace StateScript

/-- The members of a raw action, and the steps of those that can be action lists. -/
structure ActionFields where
  kind : String
  members : Members
  lists : List (String × List Step)

namespace ActionFields

/-- A parameter that is present and not null. -/
def optional? (f : ActionFields) (name : String) : Option Json :=
  match Members.find? name f.members with
  | some .null => none
  | v => v

/-- A parameter that has to be present; null will do. -/
def required (f : ActionFields) (name : String) : Except ActionFault Json :=
  match Members.find? name f.members with
  | some v => .ok v
  | none => .error (.missing f.kind name)

/-- A text parameter that has to be present and not empty. -/
def text (f : ActionFields) (name : String) : Except ActionFault String :=
  match f.optional? name with
  | some (.string s) => if s.isEmpty then .error (.missing f.kind name) else .ok s
  | none => .error (.missing f.kind name)
  | some _ => .error (.invalid name "must be a string")

def optionalText (f : ActionFields) (name : String) : Except ActionFault (Option String) :=
  match f.optional? name with
  | some (.string s) => .ok (some s)
  | none => .ok none
  | some _ => .error (.invalid name "must be a string")

/-- An action list; a single action is a list of one. -/
def optionalList (f : ActionFields) (name : String) :
    Except ActionFault (Option (List Step)) :=
  match f.optional? name with
  | none => .ok none
  | some _ =>
    match f.lists.lookup name with
    | some steps => .ok (some steps)
    | none => .error (.invalid name "must be an action list")

def list (f : ActionFields) (name : String) : Except ActionFault (List Step) := do
  match ← f.optionalList name with
  | some steps => return steps
  | none => throw (.missing f.kind name)

/-- What an action puts into an array; items count before a value. -/
def inserted (f : ActionFields) : Except ActionFault Insert :=
  match f.optional? "items" with
  | some items => .ok (.items items)
  | none => Insert.value <$> f.required "value"

/-- The step that a raw action with these members is. -/
def step (f : ActionFields) (raw : Json) : Except ActionFault Step :=
  match f.kind with
  | "set" => return .single raw (.set (← f.text "path") (← f.required "value"))
  | "push" => return .single raw (.push (← f.text "path") (← f.inserted))
  | "pop" => return .single raw (.pop (← f.text "path"))
  | "shift" => return .single raw (.shift (← f.text "path"))
  | "unshift" => return .single raw (.unshift (← f.text "path") (← f.inserted))
  | "splice" =>
    return .single raw (.splice (← f.text "path") (← f.required "start")
      (f.optional? "deleteCount") (f.optional? "items"))
  | "call" =>
    return .single raw (.call (← f.text "method") (f.optional? "params")
      (← f.optionalText "resultTo"))
  | "emit" => return .single raw (.emit (← f.text "event") (f.optional? "data"))
  | "navigate" => return .single raw (.navigate (← f.required "to"))
  | "log" => do
    let level := ((← f.optionalText "level").map LogLevel.parse).getD .info
    return .single raw (.log level (← f.required "message"))
  | "if" => do
    let cond ← f.required "cond"
    let yes := (← f.optionalList "then").getD []
    let no := (← f.optionalList "else").getD []
    return .branch raw cond yes no
  | "loop" => do
    let var ← f.text "var"
    let indexVar := (← f.optionalText "indexVar").getD "index"
    return .loop raw var indexVar (← f.required "in") (← f.list "body")
  | "batch" => return .batch raw (← f.list "actions")
  | kind => .ok (.single raw (.custom kind))

end ActionFields

namespace Step

/-- The step of an object whose action lists have been read. -/
def ofMembers (ms : Members) (lists : List (String × List Step)) : Except ActionFault Step :=
  match Members.find? "type" ms with
  | some (.string kind) => ActionFields.step ⟨kind, ms, lists⟩ (.object ms)
  | some _ => .error (.invalid "type" "must be a string")
  | none => .error (.missing "action" "type")

mutual

/-- The step that a raw action is. -/
def ofJson : Json → Step
  | .object ms =>
    match ofMembers ms (listsOf ms) with
    | .ok step => step
    | .error fault => .malformed (.object ms) fault
  | raw => .malformed raw (.invalid "action" "must be an object")
  termination_by structural raw => raw

/-- The steps of an action list. -/
def ofItems : List Json → List Step
  | [] => []
  | raw :: rest => ofJson raw :: ofItems rest
  termination_by structural raws => raws

/-- The members that can be action lists, as steps. -/
def listsOf : List (String × Json) → List (String × List Step)
  | [] => []
  | (name, .array items) :: rest => (name, ofItems items) :: listsOf rest
  | (name, .object ms) :: rest => (name, [ofJson (.object ms)]) :: listsOf rest
  | _ :: rest => listsOf rest
  termination_by structural ms => ms

end

end Step

end StateScript
