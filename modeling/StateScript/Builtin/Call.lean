import StateScript.Builtin.Names
import StateScript.Builtin.Number
import StateScript.Error
import StateScript.Json.Reader
import StateScript.Text.Case
import StateScript.Text.Search
import StateScript.Word

/-!
Calling builtin functions and methods. A missing argument is null; positions in texts count
characters.
-/

namespace StateScript

/-- Why a call fails. -/
inductive CallFault where
  | notWhitelisted (function : String)
  | notFunction (typeName method : String)
  | onNull (method : String)
  | radix (given : Nat)
  | json (reason : String)
  deriving DecidableEq, Repr

def CallFault.error : CallFault → Error
  | notWhitelisted f =>
    (Error.expression .expressionFunctionNotWhitelisted
      s!"Function '{f}' is not whitelisted").withMetadata "function" (.string f)
  | notFunction typeName method =>
    (Error.expression .expressionEvaluationError
      s!"{typeName}.{method} is not a function").withMetadata "method" (.string method)
  | onNull method =>
    (Error.expression .expressionEvaluationError
      s!"Cannot call '{method}' on null").withMetadata "method" (.string method)
  | radix given => .expression .expressionEvaluationError
      s!"toString() radix must be between 2 and 36, got {given}"
  | json reason => .expression .expressionEvaluationError s!"JSON.parse failed: {reason}"

namespace Builtin

/-- The argument at a position, null when absent. -/
def arg (args : List Json) (i : Nat) : Json := args.getD i .null

def callGlobal (f : GlobalFunction) (args : List Json) : Json :=
  let first := arg args 0
  match f with
  | .string => .string (if args.isEmpty then "" else first.toText)
  | .number => if args.isEmpty then .int 0 else .ofFloat first.toNumber
  | .boolean => .bool first.truthy
  | .parseInt =>
    let radix := match arg args 1 with
      | .null => 0
      | v => Binary64.toNatClamped Word.max32 v.toNumber
    .ofFloat (parseInt first.toText radix)
  | .parseFloat => .ofFloat (parseFloat first.toText)
  | .isNaN => .bool first.toNumber.isNaN
  | .isFinite => .bool (Binary64.isFinite first.toNumber)

/-- The sign of a number as a number; zero and NaN are their own sign. -/
def signOf (x : Float) : Float :=
  if x.isNaN || x == 0 then x else if x < 0 then -1 else 1

/-- The extreme of the numbers under a strict order, null if one of them is NaN. -/
def extreme (start : Float) (before : Float → Float → Bool) (args : List Json) : Json :=
  let numbers := args.map Json.toNumber
  if numbers.any Float.isNaN then .null
  else .ofFloat (numbers.foldl (fun x y => if before x y then y else x) start)

def callNamespace (f : NamespaceFunction) (args : List Json) : Except CallFault Json :=
  let first := arg args 0
  let x := first.toNumber
  match f with
  | .abs => .ok (.ofFloat x.abs)
  | .ceil => .ok (.ofFloat (Binary64.roundWith Dyadic.ceil x))
  | .floor => .ok (.ofFloat (Binary64.roundWith Dyadic.floor x))
  | .round => .ok (.ofFloat (Binary64.roundWith Dyadic.floor (x + 0.5)))
  | .sqrt => .ok (.ofFloat x.sqrt)
  | .sign => .ok (.ofFloat (signOf x))
  | .trunc => .ok (.ofFloat (Binary64.roundWith Dyadic.truncate x))
  | .pow => .ok (.ofFloat (x.pow (arg args 1).toNumber))
  | .max => .ok (extreme (Binary64.infinity true) (fun a b => a < b) args)
  | .min => .ok (extreme (Binary64.infinity false) (fun a b => b < a) args)
  | .stringify =>
    .ok (.string (if 0 < (arg args 2).toNumber then first.pretty else first.compact))
  | .parse => (Json.read first.toText).mapError .json
  | .keys => match first with
    | .object ms => .ok (.array ((Members.keys ms).map .string))
    | .array items => .ok (.array ((List.range items.length).map fun i => .string (toString i)))
    | _ => .ok (.array [])
  | .values => match first with
    | .object ms => .ok (.array (ms.map Prod.snd))
    | .array items => .ok (.array items)
    | _ => .ok (.array [])
  | .isArray => .ok (.bool first.isArray)

/-- The position of the first match, or -1. -/
def positionValue (found : Option Nat) : Json := .int (found.elim (-1) fun i => (i : Int))

def textValue (cs : List Char) : Json := .string (String.ofList cs)

/-- The first items of a list, as many as a limit argument says. -/
def limited (limit : Json) (items : List Json) : List Json :=
  match limit with
  | .null => items
  | v => items.take (Binary64.toNatClamped Word.max64 v.toNumber)

def callText? (s : String) (m : ValueMethod) (args : List Json) : Option Json :=
  let cs := s.toList
  let first := (arg args 0).toText.toList
  match m with
  | .toUpperCase => some (textValue (Text.toUpper cs))
  | .toLowerCase => some (textValue (Text.toLower cs))
  | .trim => some (textValue (Text.trim cs))
  | .includes => some (.bool (Text.find? first cs).isSome)
  | .startsWith => some (.bool (first.isPrefixOf cs))
  | .endsWith => some (.bool (first.isSuffixOf cs))
  | .indexOf => some (positionValue (Text.find? first cs))
  | .slice =>
    let start := relativeIndex (arg args 0) cs.length 0
    let stop := relativeIndex (arg args 1) cs.length cs.length
    some (textValue (between cs start stop))
  | .split =>
    let pieces := match arg args 0 with
      | .null => [cs]
      | _ => Text.split first cs
    some (.array (limited (arg args 1) (pieces.map textValue)))
  | .concat => some (.string (args.foldl (fun out v => out ++ v.toText) s))
  | .replace => some (textValue (Text.replaceFirst first (arg args 1).toText.toList cs))
  | .toString => some (.string s)
  | .join => none
  | .toFixed => none

/-- The items that a value adds to an array: the items of an array, or itself. -/
def flattened : Json → List Json
  | .array items => items
  | v => [v]

def callArray? (items : List Json) (m : ValueMethod) (args : List Json) : Option Json :=
  let first := arg args 0
  match m with
  | .includes => some (.bool (items.any (·.strictEquals first)))
  | .indexOf => some (positionValue (items.findIdx? (·.strictEquals first)))
  | .slice =>
    let start := relativeIndex first items.length 0
    let stop := relativeIndex (arg args 1) items.length items.length
    some (.array (between items start stop))
  | .join =>
    let separator := match first with
      | .null => ","
      | v => v.toText
    some (.string (separator.intercalate (Json.itemTexts items)))
  | .concat => some (.array (items ++ args.flatMap flattened))
  | .toString => some (.string (Json.array items).toText)
  | _ => none

def callNumber? (x : Float) (m : ValueMethod) (args : List Json) :
    Option (Except CallFault Json) :=
  match m with
  | .toFixed => some (.ok (.string (toFixed x (Binary64.toNatClamped 100 (arg args 0).toNumber))))
  | .toString =>
    let radix := match arg args 0 with
      | .null => 10
      | v => Binary64.toNatClamped Word.max32 v.toNumber
    some (if radix < 2 ∨ 36 < radix then .error (.radix radix)
      else .ok (.string (if radix = 10 then Json.formatNumber x else toRadix x radix)))
  | _ => none

/-- Calls a method that a type has; the result is absent if it has no such method. -/
def callMethod? (receiver : Json) (m : ValueMethod) (args : List Json) :
    Option (Except CallFault Json) :=
  match receiver with
  | .string s => (callText? s m args).map .ok
  | .array items => (callArray? items m args).map .ok
  | .number n => callNumber? n.toFloat m args
  | .null => none
  | v => if m = .toString then some (.ok (.string v.toText)) else none

/-- Calls a bare function by name. -/
def global (name : String) (args : List Json) : Except CallFault Json :=
  match GlobalFunction.ofName? name with
  | some f => .ok (callGlobal f args)
  | none => .error (.notWhitelisted name)

/-- Calls a function of a namespace by the names of both. -/
def namespaced (owner name : String) (args : List Json) : Except CallFault Json :=
  match (Namespace.ofName? owner).bind (NamespaceFunction.find? · name) with
  | some f => callNamespace f args
  | none => .error (.notWhitelisted s!"{owner}.{name}")

/-- Calls a method of a value by name. -/
def method (receiver : Json) (name : String) (args : List Json) : Except CallFault Json :=
  if receiver.isNull then .error (.onNull name)
  else ((ValueMethod.ofName? name).bind (callMethod? receiver · args)).getD
    (.error (.notFunction receiver.typeName name))

end Builtin

end StateScript
