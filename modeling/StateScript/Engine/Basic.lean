import StateScript.Engine.Results
import StateScript.Eval.Compiled
import StateScript.Expr.Dependencies
import StateScript.Expr.Reader
import StateScript.Template
import StateScript.Validation

/-!
The expression engine: parses, validates and evaluates sources, and remembers trees, direct forms
and results. Remembering never changes an answer, only the work it takes.
-/

namespace StateScript

/-- A tree with its source, the options it has passed validation under, and a number by which two
readings of one source can be told apart. -/
structure ParsedExpr where
  source : String
  tree : Expr
  validated : List ValidationOptions
  serial : Nat

def ParsedExpr.dependencies (p : ParsedExpr) : NameSet := p.tree.dependencies

def ParsedExpr.roots (p : ParsedExpr) : NameSet := dependencyRoots p.dependencies

/-- The direct form of a source, absent where only the interpreter will do. -/
structure CompiledExpr where
  source : String
  direct : Option Direct
  serial : Nat

abbrev CompiledCache := List CompiledExpr

namespace CompiledCache

def find? (source : String) (cache : CompiledCache) : Option CompiledExpr :=
  List.find? (·.source == source) cache

end CompiledCache

structure Engine where
  parsed : List ParsedExpr := []
  compiled : CompiledCache := []
  results : ResultCache := []
  nextSerial : Nat := 0

abbrev EngineM := ExceptT Error (StateM Engine)

def EvalOptions.validation (options : EvalOptions) : ValidationOptions :=
  ⟨options.allowGlobals, options.maxNestingDepth⟩

namespace Engine

def ofExcept {α : Type} (result : Except Error α) : EngineM α := ExceptT.mk (return result)

/-- The tree of a source, read only once. -/
def parse (source : String) : EngineM ParsedExpr := do
  match (← get).parsed.find? (·.source == source) with
  | some p => return p
  | none =>
    let tree ← ofExcept (Expr.parse source)
    let engine ← get
    let p : ParsedExpr := ⟨source, tree, [], engine.nextSerial⟩
    set { engine with parsed := p :: engine.parsed, nextSerial := engine.nextSerial + 1 }
    return p

/-- Notes that a source has passed validation under some options. -/
def markValidated (source : String) (options : ValidationOptions) (engine : Engine) : Engine :=
  { engine with parsed := engine.parsed.map fun p =>
      if p.source = source then { p with validated := options :: p.validated } else p }

/-- The validated tree of a source with or without markers. -/
def prepare (source : String) (options : EvalOptions) : EngineM ParsedExpr := do
  let source := Template.stripMarkers source
  let p ← parse source
  if !p.validated.contains options.validation then
    ofExcept ((p.tree.check options.validation).mapError (Error.withExpression source))
    modify (markValidated source options.validation)
  return p

/-- The direct form of a source that parses and passes validation under the default options. -/
def directOf (source : String) : EngineM (Option Direct) := ExceptT.mk fun engine =>
  match (parse source).run.run engine with
  | (.ok p, engine) =>
    let direct := if (p.tree.violations {}).isEmpty then Direct.ofExpr? p.tree else none
    (.ok direct, engine)
  | (.error _, engine) => (.ok none, engine)

/-- The direct form of a source, computed only once. -/
def compile (source : String) : EngineM CompiledExpr := do
  let source := Template.stripMarkers source
  match (← get).compiled.find? source with
  | some c => return c
  | none =>
    let direct ← directOf source
    let engine ← get
    let c : CompiledExpr := ⟨source, direct, engine.nextSerial⟩
    set { engine with compiled := c :: engine.compiled, nextSerial := engine.nextSerial + 1 }
    return c

/-- The value of a source, through the direct form if there is one. -/
def compute (p : ParsedExpr) (source : String) (resolver : Resolver) (options : EvalOptions) :
    EngineM Json := do
  match (← compile source).direct with
  | some direct => return direct.call resolver
  | none =>
    ofExcept ((Eval.interpret options resolver p.tree).mapError (Error.withExpression source))

/-- Evaluates a source with or without markers, and keeps the result if the resolver allows it. -/
def evaluate (source : String) (resolver : Resolver) (options : EvalOptions) : EngineM Json := do
  let source := Template.stripMarkers source
  let p ← prepare source options
  let scope := if options.cacheResults then resolver.cacheScope p.roots else none
  match scope with
  | none => compute p source resolver options
  | some scope =>
    match (← get).results.find? scope source with
    | some entry => return entry.value
    | none =>
      let value ← compute p source resolver options
      modify fun engine =>
        { engine with results := engine.results.insert ⟨scope, source, value, p.dependencies⟩ }
      return value

/-- Evaluates a source by the interpreter alone. -/
def interpret (source : String) (resolver : Resolver) (options : EvalOptions) : EngineM Json := do
  let p ← prepare source options
  ofExcept ((Eval.interpret options resolver p.tree).mapError (Error.withExpression p.source))

/-- The paths that a valid source depends on. -/
def dependencies (source : String) (options : EvalOptions) : EngineM NameSet := do
  return (← prepare source options).dependencies

/-- Drops the results that depend on a path; gives how many there were. -/
def invalidate (path : String) (engine : Engine) : Nat × Engine :=
  let kept := engine.results.invalidate path
  (engine.results.length - kept.length, { engine with results := kept })

def removeScope (scope : TreeId) (engine : Engine) : Engine :=
  { engine with results := engine.results.removeScope scope }

def clearResults (engine : Engine) : Engine := { engine with results := [] }

def clearCompiled (engine : Engine) : Engine := { engine with compiled := [] }

/-- Forgets everything but the numbers already given out. -/
def clear (engine : Engine) : Engine := { nextSerial := engine.nextSerial }

/-- The text of a template with the values of its expressions put in. -/
def renderPieces (resolver : Resolver) (options : EvalOptions) :
    List TemplatePiece → EngineM String
  | [] => return ""
  | .text cs :: rest => return String.ofList cs ++ (← renderPieces resolver options rest)
  | .expression source :: rest => do
    let value ← evaluate (String.ofList source) resolver options
    return value.toDisplay ++ (← renderPieces resolver options rest)

/-- The value of a template: of its expression if it is nothing else, and a text otherwise. -/
def interpolate (template : String) (resolver : Resolver) (options : EvalOptions) :
    EngineM Json := do
  let cs := template.toList
  match Template.single? cs with
  | some source => evaluate (String.ofList source) resolver options
  | none =>
    if Template.hasMarkers cs then
      return .string (← renderPieces resolver options (Template.pieces cs))
    else return .string template

section

variable (resolver : Resolver) (options : EvalOptions)

mutual

/-- Interpolates every text inside a value. -/
def resolveValue (v : Json) : EngineM Json := do
  match v with
  | .string s => interpolate s resolver options
  | .array items => return .array (← resolveItems items)
  | .object ms => return .object (← resolveMembers ms)
  | v => return v
  termination_by structural v

def resolveItems (vs : List Json) : EngineM (List Json) := do
  match vs with
  | [] => return []
  | v :: rest =>
    let v ← resolveValue v
    return v :: (← resolveItems rest)
  termination_by structural vs

def resolveMembers (ms : List (String × Json)) : EngineM Members := do
  match ms with
  | [] => return []
  | (k, v) :: rest =>
    let v ← resolveValue v
    return (k, v) :: (← resolveMembers rest)
  termination_by structural ms

end

end

/-- Runs an operation on an engine. -/
def run {α : Type} (operation : EngineM α) (engine : Engine) : Except Error α × Engine :=
  operation.run.run engine

end Engine

end StateScript
