import StateScript.Builtin.Call
import StateScript.Path.Access
import StateScript.Word

/-!
What evaluation works with: options, where names are looked up, the gate that every name passes,
and reading below a value.
-/

namespace StateScript

/-- Limits and switches of one evaluation. -/
structure EvalOptions where
  allowGlobals : Bool := false
  maxSteps : Nat := 10000
  timeoutMs : Nat := 100
  maxNestingDepth : Nat := 50
  cacheResults : Bool := true
  deriving DecidableEq, Repr

/-- Why an evaluation fails. -/
inductive EvalFault where
  | denied (name : String)
  | deniedGlobal (name : String)
  | steps (limit : Nat)
  | timeout (ms : Nat)
  | call (fault : CallFault)
  deriving DecidableEq, Repr

def EvalFault.error : EvalFault → Error
  | denied name =>
    (Error.expression .expressionUnsafeAccess s!"Access to '{name}' is not allowed").withMetadata
      "property" (.string name)
  | deniedGlobal name =>
    (Error.expression .expressionUnsafeAccess
      s!"Access to global '{name}' is not allowed").withMetadata "property" (.string name)
  | steps limit =>
    (Error.expression .expressionMaxStepsExceeded
      s!"Expression exceeded the maximum of {limit} evaluation steps").withMetadata "max_steps"
      (.nat limit)
  | timeout ms =>
    (Error.expression .expressionTimeout s!"Expression evaluation exceeded {ms}ms").withMetadata
      "timeout_ms" (.nat ms)
  | call fault => fault.error

/-- Where the names of an expression are looked up. Results that read only certain names may be
kept under the scope that `cacheScope` gives for them. -/
structure Resolver where
  lookup : String → Option Json
  cacheScope : List String → Option Nat := fun _ => none

/-- A JSON object as a flat scope; other values bind nothing. -/
def Resolver.ofJson (state : Json) : Resolver := { lookup := fun name => state.member? name }

namespace Eval

/-- The gate for property names. -/
def checkProperty (name : String) : Except EvalFault Unit :=
  if isDenied name then .error (.denied name) else .ok ()

/-- The gate for names that are looked up in a scope. -/
def checkRoot (options : EvalOptions) (name : String) : Except EvalFault Unit := do
  checkProperty name
  if !options.allowGlobals && isHostGlobal name then .error (.deniedGlobal name) else .ok ()

/-- The gate for the segments of a path. -/
def checkPath : Path → Except EvalFault Unit
  | [] => .ok ()
  | .key k :: rest => do
    checkProperty k
    checkPath rest
  | _ :: rest => checkPath rest

/-- A character of a text as a value, null behind the end. -/
def characterAt (s : String) (i : Nat) : Json :=
  match s.toList[i]? with
  | some c => .string (String.singleton c)
  | none => .null

/-- Properties that are computed: lengths and the characters of a text. -/
def intrinsic : Json → Segment → Json
  | .array items, .key k => if k = "length" then .nat items.length else .null
  | .string s, .key k =>
    if k = "length" then .nat s.length
    else match position? k with
      | some i => characterAt s i
      | none => .null
  | .string s, .index i => characterAt s i
  | _, _ => .null

/-- The value at a path below another one. Missing links read as null. -/
def project : Json → Path → Json
  | value, [] => value
  | value, segment :: rest => project ((value.child? segment).getD (intrinsic value segment)) rest

/-- The value of a name projected along a path. -/
def readPath (resolver : Resolver) (root : String) (path : Path) : Json :=
  match resolver.lookup root with
  | some value => project value path
  | none => .null

/-- The path segment that a computed key stands for. A number that is not a position is written
out. -/
def propertyKey (key : Json) : Except EvalFault Segment :=
  match key with
  | .number n =>
    let x := n.toFloat
    match Binary64.dyadic? x with
    | some d =>
      if d.isWhole ∧ 0 ≤ x then .ok (.index (min d.wholePart Word.max64))
      else .ok (.key (Json.formatNumber x))
    | none => .ok (.key (Json.formatNumber x))
  | v => do
    checkProperty v.toText
    return .key v.toText

end Eval

end StateScript
