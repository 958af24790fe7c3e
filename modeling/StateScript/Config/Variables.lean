import StateScript.Config.Basic
import StateScript.Decimal.Reader
import StateScript.Text.Case
import StateScript.Text.Search
import StateScript.Word

/-!
Settings from the environment. A variable names a setting by a fixed start and by double
underscores, or points, between the table and the key; a file of `KEY=value` lines gives variables
that are not set otherwise.
-/

namespace StateScript

/-- Names of variables with their values. -/
abbrev Variables := List (String × String)

namespace Variables

/-- How the names of variables that hold settings start, in lower case. -/
def settingStart : List Char := "vario_".toList

def separator : List Char := ['_', '_']

/-- The path of the setting that a variable holds. A name with an empty part names no table. -/
def settingPath? (name : String) : Option (List String) :=
  let cs := Text.toLower name.toList
  if !settingStart.isPrefixOf cs then none
  else
    let parts := (Text.split separator (cs.drop settingStart.length)).flatMap (Text.split ['.'])
    if parts.any List.isEmpty then none else some (parts.map String.ofList)

def integer? (cs : List Char) : Option Int :=
  let (negative, digits) := Decimal.signed cs
  if digits.isEmpty || !digits.all Char.isDigit then none
  else
    let n : Int := Decimal.naturalOf digits
    let i := if negative then -n else n
    if Word.fitsInt64 i then some i else none

/-- What the text of a variable stands for: a truth value, a number, or itself. -/
def settingValue (s : String) : Json :=
  let word := SettingReader.lowered s
  if word = "true" then .bool true
  else if word = "false" then .bool false
  else match integer? s.toList with
    | some i => .int i
    | none =>
      match Decimal.read? s.toList with
      | some x => .number (.float x)
      | none => .string s

/-- The value of a variable in a line of a file, up to a comment. The state is whether a quote is
open and which; each step reads one character. -/
def valueFrom : Option Char → List Char → Option (List Char)
  | none, [] => some []
  | some _, [] => none
  | none, '\\' :: c :: rest => escaped none c rest
  | some '"', '\\' :: c :: rest => escaped (some '"') c rest
  | none, c :: rest =>
    if c = '\'' ∨ c = '"' then valueFrom (some c) rest
    else if c = ' ' ∨ c = '\t' then
      match rest.dropWhile fun c => c = ' ' ∨ c = '\t' with
      | [] => some []
      | '#' :: _ => some []
      | _ => none
    else (valueFrom none rest).map (c :: ·)
  | some q, c :: rest =>
    if c = q then valueFrom none rest else (valueFrom (some q) rest).map (c :: ·)
where
  /-- The character behind a backslash. -/
  escaped (quote : Option Char) (c : Char) (rest : List Char) : Option (List Char) :=
    if c = 'n' then (valueFrom quote rest).map ('\n' :: ·)
    else if c = '\\' ∨ c = '\'' ∨ c = '"' ∨ c = '$' ∨ c = ' ' then
      (valueFrom quote rest).map (c :: ·)
    else none

def isNameStart (c : Char) : Bool := c.isAlpha || c == '_'

def isNameChar (c : Char) : Bool := c.isAlphanum || c == '_' || c == '.'

def name? (cs : List Char) : Option (List Char × List Char) :=
  if cs.head?.any isNameStart then
    some (cs.takeWhile isNameChar, Text.trimStart (cs.dropWhile isNameChar))
  else none

/-- A line of a file: nothing, or a variable and its value; absent if it is neither. -/
def line? (cs : List Char) : Option (Option (String × String)) := do
  let cs := Text.trim cs
  if cs.isEmpty || cs.head? == some '#' then return none
  let (name, rest) ← name? cs
  let (name, rest) ←
    if name = "export".toList ∧ rest.head? ≠ some '=' then name? rest else some (name, rest)
  match rest with
  | '=' :: rest =>
    let rest := Text.trimStart rest
    if rest.head? == some '#' then return some (String.ofList name, "")
    else return some (String.ofList name, String.ofList (← valueFrom none rest))
  | _ => none

/-- The variables of a file, up to the first line that is none. -/
def readLines : List String → Variables
  | [] => []
  | s :: rest =>
    match line? s.toList with
    | none => []
    | some none => readLines rest
    | some (some entry) => entry :: readLines rest

/-- Adds the variables of a file that are not set yet. -/
def withFile (source : String) (vars : Variables) : Variables :=
  (readLines (source.splitOn "\n")).foldl (fun vs (name, value) =>
    if (vs.lookup name).isSome then vs else vs ++ [(name, value)]) vars

end Variables

end StateScript
