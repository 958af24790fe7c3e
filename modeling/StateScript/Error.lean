import StateScript.Json.Writer

/-!
Errors. Every failure belongs to a family, carries a code and a message, and collects on its way
out where it happened: schema path, expression, action and free-form details.
-/

namespace StateScript

inductive ErrorCode where
  | actionUnknownType
  | actionExecutionError
  | actionAborted
  | actionTimeout
  | actionMaxStepsExceeded
  | actionMissingParam
  | actionInvalidParam
  | expressionParseError
  | expressionValidationError
  | expressionEvaluationError
  | expressionTimeout
  | expressionMaxStepsExceeded
  | expressionUnsafeAccess
  | expressionFunctionNotWhitelisted
  | serviceNotFound
  | serviceCallError
  | batchError
  deriving DecidableEq, Repr

namespace ErrorCode

def text : ErrorCode → String
  | actionUnknownType => "ACTION_UNKNOWN_TYPE"
  | actionExecutionError => "ACTION_EXECUTION_ERROR"
  | actionAborted => "ACTION_ABORTED"
  | actionTimeout => "ACTION_TIMEOUT"
  | actionMaxStepsExceeded => "ACTION_MAX_STEPS_EXCEEDED"
  | actionMissingParam => "ACTION_MISSING_PARAM"
  | actionInvalidParam => "ACTION_INVALID_PARAM"
  | expressionParseError => "EXPRESSION_PARSE_ERROR"
  | expressionValidationError => "EXPRESSION_VALIDATION_ERROR"
  | expressionEvaluationError => "EXPRESSION_EVALUATION_ERROR"
  | expressionTimeout => "EXPRESSION_TIMEOUT"
  | expressionMaxStepsExceeded => "EXPRESSION_MAX_STEPS_EXCEEDED"
  | expressionUnsafeAccess => "EXPRESSION_UNSAFE_ACCESS"
  | expressionFunctionNotWhitelisted => "EXPRESSION_FUNCTION_NOT_WHITELISTED"
  | serviceNotFound => "SERVICE_NOT_FOUND"
  | serviceCallError => "SERVICE_CALL_ERROR"
  | batchError => "BATCH_ERROR"

def all : List ErrorCode :=
  [actionUnknownType, actionExecutionError, actionAborted, actionTimeout, actionMaxStepsExceeded,
    actionMissingParam, actionInvalidParam, expressionParseError, expressionValidationError,
    expressionEvaluationError, expressionTimeout, expressionMaxStepsExceeded,
    expressionUnsafeAccess, expressionFunctionNotWhitelisted, serviceNotFound, serviceCallError,
    batchError]

/-- The code with a given text. -/
def ofText? (s : String) : Option ErrorCode := all.find? fun code => code.text == s

end ErrorCode

/-- Where an error happened. -/
structure ErrorContext where
  schemaPath : Option String := none
  expression : Option String := none
  action : Option Json := none
  metadata : Members := []

def ErrorContext.isEmpty (c : ErrorContext) : Bool :=
  c.schemaPath.isNone && c.expression.isNone && c.action.isNone && c.metadata.isEmpty

inductive Family where
  | action
  | expression
  | service
  deriving DecidableEq, Repr

/-- A failure. A service failure may name its cause; a batch failure lists the position, the raw
action and the error of each failed sub-action. -/
inductive Error where
  | single (family : Family) (code : ErrorCode) (message : String) (cause : Option String)
      (context : ErrorContext)
  | batch (message : String) (failed : List (Nat × Json × Error)) (context : ErrorContext)

instance : Inhabited Error := ⟨.single .action .actionExecutionError "" none {}⟩

namespace Error

def action (code : ErrorCode) (message : String) : Error := .single .action code message none {}

def expression (code : ErrorCode) (message : String) : Error :=
  .single .expression code message none {}

def service (code : ErrorCode) (message : String) : Error := .single .service code message none {}

/-- The error of a batch of `total` actions of which some failed. -/
def ofFailures (failed : List (Nat × Json × Error)) (total : Nat) : Error :=
  .batch s!"{failed.length} of {total} batched actions failed" failed {}

def code : Error → ErrorCode
  | .single _ code .. => code
  | .batch .. => .batchError

def message : Error → String
  | .single _ _ message .. => message
  | .batch message .. => message

def context : Error → ErrorContext
  | .single _ _ _ _ context => context
  | .batch _ _ context => context

def withContext (context : ErrorContext) : Error → Error
  | .single family code message cause _ => .single family code message cause context
  | .batch message failed _ => .batch message failed context

def isService : Error → Bool
  | .single .service .. => true
  | _ => false

/-- Names the expression, unless an inner one is named already. -/
def withExpression (source : String) (e : Error) : Error :=
  match e.context.expression with
  | some _ => e
  | none => e.withContext { e.context with expression := some source }

/-- Names the action, unless an inner one is named already. -/
def withAction (raw : Json) (e : Error) : Error :=
  match e.context.action with
  | some _ => e
  | none => e.withContext { e.context with action := some raw }

def withSchemaPath (path : String) (e : Error) : Error :=
  e.withContext { e.context with schemaPath := some path }

def withMetadata (key : String) (value : Json) (e : Error) : Error :=
  e.withContext { e.context with metadata := Members.insert key value e.context.metadata }

/-- One line: the code in brackets and the message. -/
def display (e : Error) : String := s!"[{e.code.text}] {e.message}"

def detail (label : String) : Option String → String
  | some text => s!"\n  {label}: {text}"
  | none => ""

def failureLines : Error → String
  | .single .. => ""
  | .batch _ failed _ =>
    "\n  failed actions:" ++ String.join (failed.map fun (index, raw, e) =>
      s!"\n    #{index} {raw.compact}: {e.display}")

/-- The code and message, then every part of the context that is present. -/
def report (e : Error) : String :=
  let c := e.context
  let metadata := if c.metadata.isEmpty then none else some (Json.object c.metadata).compact
  e.display ++ detail "schema path" c.schemaPath ++ detail "expression" c.expression
    ++ detail "action" (c.action.map Json.compact) ++ detail "metadata" metadata
    ++ failureLines e

end Error

end StateScript
