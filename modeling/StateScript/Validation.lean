import StateScript.Builtin.Names
import StateScript.Error
import StateScript.Expr.Basic
import StateScript.Path.Basic

/-!
Security rules for expressions. Each rule looks at a tree and reports what it rejects, node by
node from the root down.
-/

namespace StateScript

/-- The options that validation depends on. -/
structure ValidationOptions where
  allowGlobals : Bool := false
  maxNestingDepth : Nat := 50
  deriving DecidableEq, Repr

inductive Rule where
  | nestingDepth
  | dangerousProperty
  | hostGlobal
  | functionWhitelist
  deriving DecidableEq, Repr

namespace Rule

/-- All rules in the order in which they run. -/
def all : List Rule := [nestingDepth, dangerousProperty, hostGlobal, functionWhitelist]

def id : Rule → String
  | nestingDepth => "nesting-depth"
  | dangerousProperty => "dangerous-property"
  | hostGlobal => "host-global"
  | functionWhitelist => "function-whitelist"

def description : Rule → String
  | nestingDepth => "expression trees may not exceed the configured nesting depth"
  | dangerousProperty => "constructor, prototype and __proto__ are never accessible"
  | hostGlobal => "host globals are unreachable unless allow_globals is set"
  | functionWhitelist => "only whitelisted functions and methods may be called"

end Rule

/-- What a rule rejects. -/
inductive Rejection where
  | tooDeep (limit : Nat)
  | deniedProperty (name : String)
  | hostGlobal (name : String)
  | function (target : String)
  deriving DecidableEq, Repr

namespace Rejection

def rule : Rejection → Rule
  | tooDeep _ => .nestingDepth
  | deniedProperty _ => .dangerousProperty
  | hostGlobal _ => .hostGlobal
  | function _ => .functionWhitelist

def code : Rejection → ErrorCode
  | tooDeep _ => .expressionValidationError
  | deniedProperty _ => .expressionUnsafeAccess
  | hostGlobal _ => .expressionUnsafeAccess
  | function _ => .expressionFunctionNotWhitelisted

def message : Rejection → String
  | tooDeep limit => s!"Expression exceeds maximum nesting depth of {limit}"
  | deniedProperty name => s!"Access to '{name}' is not allowed"
  | hostGlobal name => s!"Access to global '{name}' is not allowed"
  | function target => s!"Function '{target}' is not whitelisted"

end Rejection

/-- A rejected construct and where it stands. -/
structure Violation where
  span : Span
  rejection : Rejection
  deriving DecidableEq, Repr

namespace Violation

def error (v : Violation) : Error :=
  let e := Error.expression v.rejection.code v.rejection.message
  let e := e.withMetadata "rule" (.string v.rejection.rule.id)
  let e := e.withMetadata "line" (.nat (v.span.start.line + 1))
  e.withMetadata "column" (.nat (v.span.start.column + 1))

def display (v : Violation) : String :=
  s!"{v.rejection.code.text} at line {v.span.start.line + 1}, col {v.span.start.column + 1}: "
    ++ s!"{v.rejection.message} [{v.rejection.rule.id}]"

end Violation

namespace Expr

/-- The names by which a node itself reaches a property or a binding. -/
def reachedNames : Expr → List String
  | .member _ property _ _ => [property]
  | .index _ (.string s _) _ _ => [s]
  | .name n _ => [n]
  | .record properties _ => properties.map Prod.fst
  | _ => []

/-- The name of a call target that may not be called. -/
def rejectedTarget? : Expr → Option String
  | .name n _ => if isGlobalFunction n then none else some n
  | .member (.name owner _) property _ _ =>
    if isNamespace owner then
      if isNamespaceFunction owner property then none else some s!"{owner}.{property}"
    else if isValueMethod property then none else some s!".{property}"
  | .member _ property _ _ => if isValueMethod property then none else some s!".{property}"
  | e => some s!"<{e.kind}>"

/-- What a rule other than the nesting rule rejects at one node. -/
def rejections (options : ValidationOptions) (e : Expr) : Rule → List Rejection
  | .nestingDepth => []
  | .dangerousProperty => (e.reachedNames.filter isDenied).map .deniedProperty
  | .hostGlobal =>
    match e with
    | .name n _ => if !options.allowGlobals && isHostGlobal n then [.hostGlobal n] else []
    | _ => []
  | .functionWhitelist =>
    match e with
    | .call callee _ _ => (callee.rejectedTarget?.map Rejection.function).toList
    | _ => []

/-- What one rule reports for a tree. -/
def violationsOf (options : ValidationOptions) (e : Expr) : Rule → List Violation
  | .nestingDepth =>
    if e.exceedsDepth options.maxNestingDepth then
      [⟨e.span, .tooDeep options.maxNestingDepth⟩]
    else []
  | rule =>
    e.nodes.flatMap fun node => (node.rejections options rule).map fun r => ⟨node.span, r⟩

/-- What all rules report. A tree that is too deep is not looked at further. -/
def violations (options : ValidationOptions) (e : Expr) : List Violation :=
  if e.exceedsDepth options.maxNestingDepth then e.violationsOf options .nestingDepth
  else Rule.all.flatMap (e.violationsOf options)

/-- Fails with the first violation. -/
def check (options : ValidationOptions) (e : Expr) : Except Error Unit :=
  match e.violations options with
  | v :: _ => .error v.error
  | [] => .ok ()

end Expr

end StateScript
