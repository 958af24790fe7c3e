import StateScript.Decimal
import StateScript.Json.Basic

/-!
JSON text. Compact text has no spaces; pretty text puts each item on a line of its own, indented by
two spaces, and keeps empty arrays and objects on one line.
-/

namespace StateScript

namespace Json

/-- The lowercase hexadecimal digit of a number below sixteen. -/
def hexDigit (n : Nat) : Char := (Nat.toDigits 16 n).headD '0'

/-- One character inside a string literal. Quotes, backslashes and control characters are escaped
and all else is literal. -/
def escapeChar (c : Char) : List Char :=
  if c = '"' then ['\\', '"']
  else if c = '\\' then ['\\', '\\']
  else if c = '\n' then ['\\', 'n']
  else if c = '\r' then ['\\', 'r']
  else if c = '\t' then ['\\', 't']
  else if c.val = 8 then ['\\', 'b']
  else if c.val = 12 then ['\\', 'f']
  else if c.val < 32 then
    ['\\', 'u', '0', '0', hexDigit (c.toNat / 16), hexDigit (c.toNat % 16)]
  else [c]

def quote (s : String) : String :=
  "\"" ++ String.ofList (s.toList.flatMap escapeChar) ++ "\""

/-- A double in JSON: the fewest digits that read back, positional from `1e-5` up to `1e16`, with
`.0` on whole numbers. -/
def doubleText (x : Float) : String :=
  match Binary64.dyadic? x with
  | none => "null"
  | some d =>
    let sign := if d.negative then ['-'] else []
    if d.mantissa = 0 then String.ofList (sign ++ ['0', '.', '0'])
    else
      let s := Decimal.shortest .toEven d
      let point : Int := (Decimal.numeral s.digits).length + s.exponent
      let body :=
        if -5 < point ∧ point ≤ 16 then
          if 0 ≤ s.exponent then s.positional ++ ['.', '0'] else s.positional
        else s.scientific
      String.ofList (sign ++ body)

def numberText : Number → String
  | .int i => toString i
  | .float x => doubleText x

mutual

/-- Compact text of a value. -/
def compact : Json → String
  | .null => "null"
  | .bool b => if b then "true" else "false"
  | .number n => numberText n
  | .string s => quote s
  | .array xs => "[" ++ ",".intercalate (compactItems xs) ++ "]"
  | .object ms => "\x7b" ++ ",".intercalate (compactMembers ms) ++ "\x7d"
  termination_by structural x => x

def compactItems : List Json → List String
  | [] => []
  | x :: xs => compact x :: compactItems xs
  termination_by structural x => x

def compactMembers : List (String × Json) → List String
  | [] => []
  | (k, v) :: ms => (quote k ++ ":" ++ compact v) :: compactMembers ms
  termination_by structural x => x

end

def indentation (depth : Nat) : String :=
  String.ofList (List.replicate (2 * depth) ' ')

/-- Items on lines of their own between two brackets. -/
def block (depth : Nat) (opening closing : String) (items : List String) : String :=
  if items.isEmpty then opening ++ closing
  else
    opening ++ "\n" ++ ",\n".intercalate (items.map (indentation (depth + 1) ++ ·)) ++ "\n"
      ++ indentation depth ++ closing

mutual

/-- Pretty text of a value that stands `depth` levels deep. -/
def prettyAt (depth : Nat) : Json → String
  | .null => "null"
  | .bool b => if b then "true" else "false"
  | .number n => numberText n
  | .string s => quote s
  | .array xs => block depth "[" "]" (prettyItems (depth + 1) xs)
  | .object ms => block depth "\x7b" "\x7d" (prettyMembers (depth + 1) ms)
  termination_by structural x => x

def prettyItems (depth : Nat) : List Json → List String
  | [] => []
  | x :: xs => prettyAt depth x :: prettyItems depth xs
  termination_by structural x => x

def prettyMembers (depth : Nat) : List (String × Json) → List String
  | [] => []
  | (k, v) :: ms => (quote k ++ ": " ++ prettyAt depth v) :: prettyMembers depth ms
  termination_by structural x => x

end

def pretty (v : Json) : String := prettyAt 0 v

end Json

end StateScript
