import StateScript.Text.Letter
import StateScript.Word

/-!
Paths into JSON values: object keys, array indices and wildcards, and their canonical text.
-/

namespace StateScript

/-- Property names that no path and no expression may reach. -/
def deniedNames : List String := ["constructor", "prototype", "__proto__"]

def isDenied (name : String) : Bool := deniedNames.contains name

inductive Segment where
  | key (name : String)
  | index (position : Nat)
  | wildcard
  deriving DecidableEq, Repr

abbrev Path := List Segment

/-- An array position written in decimal, with an optional plus sign, that fits 64 bits. -/
def position? (text : String) : Option Nat :=
  let digits := match text.toList with
    | '+' :: rest => rest
    | cs => cs
  if digits.isEmpty || !digits.all Char.isDigit then none
  else
    let n := digits.foldl (fun n c => 10 * n + (c.toNat - 48)) 0
    if n ≤ Word.max64 then some n else none

namespace Segment

def text : Segment → String
  | key name => name
  | index i => toString i
  | wildcard => "*"

/-- Whether two segments may name the same place. A wildcard matches any segment, and a key that
spells a number matches that index. -/
def matchesSegment : Segment → Segment → Bool
  | wildcard, _ => true
  | _, wildcard => true
  | key a, key b => a == b
  | index i, index j => i == j
  | key k, index i => position? k == some i
  | index i, key k => position? k == some i

/-- Reads a segment written without quotes. -/
def ofDotted (raw : List Char) : Segment :=
  if raw = ['*'] then wildcard
  else
    let text := String.ofList raw
    match position? text with
    | some i => if raw.all Char.isDigit then index i else key text
    | none => key text

/-- Whether a key can be written after a dot. -/
def isPlainKey (name : String) : Bool :=
  let cs := name.toList
  !cs.isEmpty && cs != ['*'] && !cs.all Char.isDigit
    && cs.all fun c => Text.isAlphanumeric c || c == '_' || c == '$' || c == '-'

/-- A key in brackets and single quotes, the quotes inside it escaped. -/
def quotedKey (name : String) : List Char :=
  '[' :: '\'' :: name.toList.flatMap (fun c => if c = '\'' then ['\\', '\''] else [c])
    ++ ['\'', ']']

end Segment

namespace Path

/-- The canonical text of segments that follow others. -/
def renderRest : Path → List Char
  | [] => []
  | .key name :: rest =>
    (if Segment.isPlainKey name then '.' :: name.toList else Segment.quotedKey name)
      ++ renderRest rest
  | s :: rest => '.' :: s.text.toList ++ renderRest rest

/-- The canonical text of a path. -/
def render (path : Path) : String :=
  let cs := renderRest path
  String.ofList (match cs with
    | '.' :: rest => rest
    | _ => cs)

/-- The text of a path with a wildcard segment at its end. -/
def wildcardOf (text : String) : String :=
  if ['.', '*'].isSuffixOf text.toList then text else text ++ ".*"

end Path

end StateScript
