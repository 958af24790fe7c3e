import StateScript.Config.Basic
import StateScript.Decimal.Reader
import StateScript.Word

/-!
Configuration files. A document is a list of lines; each opens a table or gives one setting, whose
value is an integer, a number with a fraction, a truth value or a text on one line.
-/

namespace StateScript

namespace Toml

inductive Line where
  | blank
  | table (path : List String)
  | setting (path : List String) (value : Json)

def skipSpace (cs : List Char) : List Char := cs.dropWhile fun c => c = ' ' ∨ c = '\t'

/-- Whether nothing but a comment follows. -/
def atEnd (cs : List Char) : Bool :=
  match skipSpace cs with
  | [] => true
  | c :: _ => c == '#'

def isBareKeyChar (c : Char) : Bool := c.isAlphanum || c == '_' || c == '-'

def hexValue? (cs : List Char) : Option Nat :=
  if cs.all fun c => c.isDigit || ('a' ≤ c && c ≤ 'f') || ('A' ≤ c && c ≤ 'F') then
    some (cs.foldl (fun n c =>
      16 * n + if c.isDigit then c.toNat - 48 else c.toLower.toNat - 87) 0)
  else none

/-- The character with a code written in a number of hexadecimal digits. -/
def codeChar? (digits : Nat) (cs : List Char) : Option Char := do
  let code ← hexValue? (cs.take digits)
  if (cs.take digits).length = digits ∧ code.isValidChar then some (Char.ofNat code) else none

/-- The character that a letter behind a backslash stands for. -/
def escaped? : Char → Option Char
  | 'b' => some '\x08'
  | 't' => some '\t'
  | 'n' => some '\n'
  | 'f' => some '\x0c'
  | 'r' => some '\r'
  | '"' => some '"'
  | '\\' => some '\\'
  | _ => none

/-- The text up to the closing quote, and the rest. Each step of the fuel reads one character. -/
def quotedFrom : Nat → List Char → List Char → Option (String × List Char)
  | 0, _, _ => none
  | _ + 1, _, [] => none
  | fuel + 1, read, c :: rest =>
    if c = '"' then some (String.ofList read.reverse, rest)
    else if c = '\\' then
      match rest with
      | 'u' :: rest => do quotedFrom fuel ((← codeChar? 4 rest) :: read) (rest.drop 4)
      | 'U' :: rest => do quotedFrom fuel ((← codeChar? 8 rest) :: read) (rest.drop 8)
      | e :: rest => do quotedFrom fuel ((← escaped? e) :: read) rest
      | [] => none
    else if c.toNat < 0x20 ∧ c ≠ '\t' then none
    else quotedFrom fuel (c :: read) rest

def literalFrom (cs : List Char) : Option (String × List Char) :=
  match cs.dropWhile (· ≠ '\'') with
  | _ :: rest => some (String.ofList (cs.takeWhile (· ≠ '\'')), rest)
  | [] => none

/-- A text in double quotes with escapes, or in single quotes as it stands. -/
def text? : List Char → Option (String × List Char)
  | '"' :: rest => quotedFrom (rest.length + 1) [] rest
  | '\'' :: rest => literalFrom rest
  | _ => none

def key? (cs : List Char) : Option (String × List Char) :=
  match text? cs with
  | some key => some key
  | none =>
    let bare := cs.takeWhile isBareKeyChar
    if bare.isEmpty then none else some (String.ofList bare, cs.dropWhile isBareKeyChar)

/-- Keys with points between them. Each step of the fuel reads one key. -/
def pathFrom : Nat → List Char → Option (List String × List Char)
  | 0, _ => none
  | fuel + 1, cs => do
    let (key, rest) ← key? (skipSpace cs)
    match skipSpace rest with
    | '.' :: rest => do
      let (path, rest) ← pathFrom fuel rest
      return (key :: path, rest)
    | rest => return ([key], rest)

def path? (cs : List Char) : Option (List String × List Char) := pathFrom (cs.length + 1) cs

/-- Takes out the underscores, each of which has to stand between two digits. -/
def withoutUnderscores : Bool → List Char → Option (List Char)
  | _, [] => some []
  | _, ['_'] => none
  | behindDigit, '_' :: c :: rest =>
    if behindDigit && c.isDigit then withoutUnderscores false (c :: rest) else none
  | _, c :: rest => (withoutUnderscores c.isDigit rest).map (c :: ·)

/-- Whether a numeral starts with a zero that it does not need. -/
def hasLeadingZero : List Char → Bool
  | '0' :: c :: _ => c.isDigit
  | _ => false

def number? (word : List Char) : Option Json := do
  let cs ← withoutUnderscores false word
  let (negative, digits) := Decimal.signed cs
  if hasLeadingZero digits then none
  else if !digits.isEmpty && digits.all Char.isDigit then
    let n : Int := Decimal.naturalOf digits
    let i := if negative then -n else n
    if Word.fitsInt64 i then some (.int i) else none
  else if (digits.head?).any Char.isDigit && (digits.getLast?).any Char.isDigit then
    (Decimal.read? cs).map fun x => .number (.float x)
  else none

def word? (word : List Char) : Option Json :=
  match String.ofList word with
  | "true" => some (.bool true)
  | "false" => some (.bool false)
  | _ => number? word

def value? (cs : List Char) : Option (Json × List Char) :=
  match text? cs with
  | some (s, rest) => some (.string s, rest)
  | none =>
    let ends (c : Char) : Bool := c == ' ' || c == '\t' || c == '#'
    (word? (cs.takeWhile (!ends ·))).map (·, cs.dropWhile (!ends ·))

def line? (cs : List Char) : Option Line :=
  let cs := skipSpace cs
  if atEnd cs then some .blank
  else match cs with
    | '[' :: rest => do
      let (path, rest) ← path? rest
      match rest with
      | ']' :: rest => if atEnd rest then some (.table path) else none
      | _ => none
    | _ => do
      let (path, rest) ← path? cs
      match rest with
      | '=' :: rest => do
        let (value, rest) ← value? (skipSpace rest)
        if atEnd rest then some (.setting path value) else none
      | _ => none

/-- Adds a setting below a table. Nothing may stand in its place, and only tables in its way. -/
def put? (value : Json) : List String → Members → Option Members
  | [], _ => none
  | [key], ms => if Members.contains key ms then none else some (Members.insert key value ms)
  | key :: rest, ms =>
    match Members.find? key ms with
    | none => (put? value rest []).map fun inner => Members.insert key (.object inner) ms
    | some (.object inner) =>
      (put? value rest inner).map fun inner => Members.insert key (.object inner) ms
    | some _ => none

/-- Opens a table, which may be there already. -/
def openTable? : List String → Members → Option Members
  | [], ms => some ms
  | key :: rest, ms =>
    match Members.find? key ms with
    | none => (openTable? rest []).map fun inner => Members.insert key (.object inner) ms
    | some (.object inner) =>
      (openTable? rest inner).map fun inner => Members.insert key (.object inner) ms
    | some _ => none

/-- Reads lines into a tree of settings, given the tables opened so far with the current one
first. -/
def readLines (opened : List (List String)) (settings : Members) :
    List (List Char) → Option Members
  | [] => some settings
  | cs :: rest => do
    match ← line? cs with
    | .blank => readLines opened settings rest
    | .table path =>
      if opened.contains path then none
      else readLines (path :: opened) (← openTable? path settings) rest
    | .setting path value =>
      let table := opened.head?.getD []
      readLines opened (← put? value (table ++ path) settings) rest

/-- A line without a carriage return at its end. -/
def withoutReturn (s : String) : List Char :=
  let cs := s.toList
  if cs.getLast? = some '\r' then cs.dropLast else cs

/-- The settings of a document. -/
def read? (source : String) : Option Members :=
  readLines [] [] ((source.splitOn "\n").map withoutReturn)

/-- Whether a text needs escapes however it is quoted. -/
def hasControl (cs : List Char) : Bool :=
  cs.any fun c => (c.toNat < 0x20 && c != '\t' && c != '\n') || c.toNat = 0x7F

def upperHex (n : Nat) : String :=
  let digits := (Nat.toDigits 16 n).map Char.toUpper
  String.ofList (List.replicate (4 - digits.length) '0' ++ digits)

def basicChar (c : Char) : String :=
  if c = '"' then "\\\""
  else if c = '\\' then "\\\\"
  else if c = '\t' then "\\t"
  else if c = '\n' then "\\n"
  else if c = '\r' then "\\r"
  else if c.toNat = 8 then "\\b"
  else if c.toNat = 12 then "\\f"
  else if c.toNat < 0x20 ∨ c.toNat = 0x7F then "\\u" ++ upperHex c.toNat
  else c.toString

/-- A text as a value: in single quotes if that spares escapes, and in double quotes else. -/
def textValue (s : String) : String :=
  let cs := s.toList
  let escapes := cs.contains '"' || cs.contains '\\'
  if escapes && !cs.contains '\'' && !hasControl cs && !cs.contains '\n' then s!"'{s}'"
  else "\"" ++ String.join (cs.map basicChar) ++ "\""

end Toml

namespace Config

def boolText (b : Bool) : String := if b then "true" else "false"

/-- The configuration as a document. -/
def toToml (c : Config) : String :=
  let e := c.expression
  let allowGlobals := boolText e.allowGlobals
  let cacheResults := boolText e.cacheResults
  let filter := Toml.textValue c.logFilter
  "[expression]\n" ++
  s!"allow_globals = {allowGlobals}\n" ++
  s!"max_steps = {e.maxSteps}\n" ++
  s!"timeout_ms = {e.timeoutMs}\n" ++
  s!"max_nesting_depth = {e.maxNestingDepth}\n" ++
  s!"cache_results = {cacheResults}\n\n" ++
  "[executor]\n" ++
  s!"timeout_ms = {c.executor.timeoutMs}\n" ++
  s!"max_steps = {c.executor.maxSteps}\n\n" ++
  "[pool]\n" ++
  s!"loop_context_capacity = {c.pool.loopScopes}\n" ++
  s!"path_cache_capacity = {c.pool.paths}\n\n" ++
  "[log]\n" ++
  s!"filter = {filter}\n"

end Config

end StateScript
