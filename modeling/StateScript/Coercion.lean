import StateScript.Decimal.Reader
import StateScript.Json.Writer
import StateScript.Text.Blank

/-!
Conversions between JSON values in expressions: truth, numbers, text, the operator `+`, and the
comparisons. A missing value is null, and null reads as zero.
-/

namespace StateScript

namespace Json

def truthy : Json → Bool
  | .null => false
  | .bool b => b
  | .number n => n.toFloat != 0 && !n.toFloat.isNaN
  | .string s => !s.isEmpty
  | .array _ => true
  | .object _ => true

/-- The number that a text stands for; a blank text stands for zero. -/
def numberOfText (s : String) : Float :=
  let cs := Text.trim s.toList
  if cs.isEmpty then 0 else (Decimal.read? cs).getD Binary64.nan

/-- The value as a number. An array of one item counts as that item. -/
def toNumber : Json → Float
  | .null => 0
  | .bool b => if b then 1 else 0
  | .number n => n.toFloat
  | .string s => numberOfText s
  | .array [] => 0
  | .array [item] => toNumber item
  | .array _ => Binary64.nan
  | .object _ => Binary64.nan

/-- Integers up to this magnitude are stored and written as integers. -/
def safeInteger : Nat := 9007199254740992

/-- The integer that a double is, within the safe range. -/
def safeInteger? (x : Float) : Option Int :=
  match Binary64.dyadic? x with
  | some d => if d.isWhole ∧ d.wholePart ≤ safeInteger then some d.truncate else none
  | none => none

/-- Stores a numeric result: an integer where possible, and null for the infinities and NaN. -/
def ofFloat (x : Float) : Json :=
  match safeInteger? x with
  | some i => .int i
  | none => if Binary64.isFinite x then .number (.float x) else .null

/-- The text of a number: the fewest digits that read back, never with an exponent. -/
def formatNumber (x : Float) : String :=
  match Binary64.dyadic? x with
  | none => if x.isNaN then "NaN" else if 0 < x then "Infinity" else "-Infinity"
  | some d =>
    match safeInteger? x with
    | some i => toString i
    | none =>
      String.ofList ((if d.negative then ['-'] else []) ++ (Decimal.shortest .up d).positional)

mutual

/-- The value as text. The items of an array are joined by commas, nulls as empty texts. -/
def toText : Json → String
  | .null => "null"
  | .bool b => if b then "true" else "false"
  | .number n => formatNumber n.toFloat
  | .string s => s
  | .array items => ",".intercalate (itemTexts items)
  | .object _ => "[object Object]"
  termination_by structural v => v

def itemTexts : List Json → List String
  | [] => []
  | .null :: rest => "" :: itemTexts rest
  | item :: rest => toText item :: itemTexts rest
  termination_by structural vs => vs

end

/-- The value as it appears inside a template: null as nothing, arrays and objects as JSON. -/
def toDisplay : Json → String
  | .null => ""
  | .array items => compact (.array items)
  | .object ms => compact (.object ms)
  | v => v.toText

/-- The type name that `typeof` gives. -/
def typeofName : Json → String
  | .null => "undefined"
  | .bool _ => "boolean"
  | .number _ => "number"
  | .string _ => "string"
  | .array _ => "object"
  | .object _ => "object"

/-- Whether a value makes `+` join texts. -/
def joins : Json → Bool
  | .string _ => true
  | .array _ => true
  | .object _ => true
  | _ => false

def add (a b : Json) : Json :=
  if a.joins || b.joins then .string (a.toText ++ b.toText) else ofFloat (a.toNumber + b.toNumber)

/-- The equality of `===`: numbers by value, all else by structure. -/
def strictEquals : Json → Json → Bool
  | .number m, .number n => m.toFloat == n.toFloat
  | a, b => a.same b

/-- The equality of `==`: a boolean, or a number beside a text, compares as a number. -/
def looseEquals : Json → Json → Bool
  | .null, .null => true
  | .null, _ => false
  | _, .null => false
  | .number m, .string s => m.toFloat == numberOfText s
  | .string s, .number n => numberOfText s == n.toFloat
  | .bool a, b => looseBool a b
  | a, .bool b => looseBool b a
  | a, b => strictEquals a b
where
  looseBool (a : Bool) : Json → Bool
    | .array _ => false
    | .object _ => false
    | b => toNumber (.bool a) == b.toNumber

/-- How two values are ordered, unless one of them is not a number. -/
def order? : Json → Json → Option Ordering
  | .string a, .string b => some (compare a b)
  | a, b =>
    let x := a.toNumber
    let y := b.toNumber
    if x < y then some .lt else if y < x then some .gt else if x == y then some .eq else none

end Json

end StateScript
