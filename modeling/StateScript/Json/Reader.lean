import StateScript.Json.Basic
import StateScript.Word

/-!
Reading JSON text. A literal with a fraction or an exponent, one outside the 64-bit ranges and
`-0` are doubles; the double is the 64-bit significand times or divided by a power of ten. Nesting
is limited, surrogates must come in pairs, and nothing but blanks may follow the value.
-/

namespace StateScript

namespace Json

namespace Reader

def isBlank (c : Char) : Bool := c == ' ' || c == '\n' || c == '\t' || c == '\r'

def skipBlanks (cs : List Char) : List Char := cs.dropWhile isBlank

def digitValue (c : Char) : Nat := c.toNat - 48

/-- Appends digits to a significand while it fits 64 bits, counting them. -/
def appendDigits : Nat → Nat → List Char → Nat × Nat × List Char
  | significand, used, [] => (significand, used, [])
  | significand, used, c :: cs =>
    let next := 10 * significand + digitValue c
    if c.isDigit && next ≤ Word.max64 then appendDigits next (used + 1) cs
    else (significand, used, c :: cs)

def startsWithDigit : List Char → Bool
  | c :: _ => c.isDigit
  | [] => false

def powerOfTen (n : Nat) : Float := Binary64.ofDecimal false 1 n

/-- A significand scaled by a power of ten. Multiplying past the largest double fails, dividing
goes on in steps of `1e308` and may end in zero. -/
def scaled : Nat → Float → Int → Except String Float
  | 0, x, _ => .ok x
  | steps + 1, x, exponent =>
    if exponent.natAbs ≤ 308 then
      if 0 ≤ exponent then
        let y := x * powerOfTen exponent.natAbs
        if y.isInf then .error "number out of range" else .ok y
      else .ok (x / powerOfTen exponent.natAbs)
    else if x == 0 then .ok x
    else if 0 ≤ exponent then .error "number out of range"
    else scaled steps (x / powerOfTen 308) (exponent + 308)

/-- The double `± significand · 10 ^ exponent`. -/
def double (negative : Bool) (significand : Nat) (exponent : Int) (rest : List Char) :
    Except String (Number × List Char) := do
  let x ← scaled 5 (Binary64.ofNat significand) exponent
  return (.float (if negative then -x else x), rest)

/-- What follows the `e` of a number: an optional sign and at least one digit. -/
def exponentPart (negative : Bool) (significand : Nat) (start : Int) (cs : List Char) :
    Except String (Number × List Char) :=
  let (down, cs) := match cs with
    | '-' :: rest => (true, rest)
    | '+' :: rest => (false, rest)
    | _ => (false, cs)
  let digits := cs.takeWhile Char.isDigit
  let rest := cs.dropWhile Char.isDigit
  if digits.isEmpty then .error "invalid number"
  else
    let size := digits.foldl (fun n c => 10 * n + digitValue c) 0
    if size ≤ Word.maxInt32 then
      double negative significand (if down then start - size else start + size) rest
    else if significand ≠ 0 ∧ !down then .error "number out of range"
    else .ok (.float (if negative then -0.0 else 0.0), rest)

/-- An exponent or the end of a number that is already a double. -/
def doubleTail (negative : Bool) (significand : Nat) (exponent : Int) :
    List Char → Except String (Number × List Char)
  | c :: rest =>
    if c = 'e' ∨ c = 'E' then exponentPart negative significand exponent rest
    else double negative significand exponent (c :: rest)
  | [] => double negative significand exponent []

/-- What follows the point of a number: at least one digit. Digits that no longer fit the
significand are dropped. -/
def fractionPart (negative : Bool) (significand : Nat) (exponent : Int) (cs : List Char) :
    Except String (Number × List Char) :=
  let (significand, used, rest) := appendDigits significand 0 cs
  if startsWithDigit rest then
    doubleTail negative significand (exponent - used) (rest.dropWhile Char.isDigit)
  else if used = 0 then .error "invalid number"
  else doubleTail negative significand (exponent - used) rest

/-- An integer without fraction and exponent. -/
def wholeNumber (negative : Bool) (significand : Nat) : Number :=
  if !negative then .int significand
  else if significand = 0 ∨ Word.maxInt64 + 1 < significand then
    .float (-(Binary64.ofNat significand))
  else .int (-significand)

def numberTail (negative : Bool) (significand : Nat) :
    List Char → Except String (Number × List Char)
  | '.' :: rest => fractionPart negative significand 0 rest
  | 'e' :: rest => exponentPart negative significand 0 rest
  | 'E' :: rest => exponentPart negative significand 0 rest
  | rest => .ok (wholeNumber negative significand, rest)

/-- A number without its sign. -/
def unsigned (negative : Bool) : List Char → Except String (Number × List Char)
  | '0' :: rest =>
    if startsWithDigit rest then .error "invalid number" else numberTail negative 0 rest
  | cs =>
    if !startsWithDigit cs then .error "invalid number"
    else
      let (significand, _, rest) := appendDigits 0 0 cs
      if startsWithDigit rest then
        let more := rest.takeWhile Char.isDigit
        match rest.dropWhile Char.isDigit with
        | '.' :: tail => fractionPart negative significand more.length tail
        | tail => doubleTail negative significand more.length tail
      else numberTail negative significand rest

def hexValue? (c : Char) : Option Nat :=
  if '0' ≤ c ∧ c ≤ '9' then some (c.toNat - 48)
  else if 'a' ≤ c ∧ c ≤ 'f' then some (c.toNat - 87)
  else if 'A' ≤ c ∧ c ≤ 'F' then some (c.toNat - 55)
  else none

/-- Four hexadecimal digits. -/
def unit? : List Char → Option (Nat × List Char)
  | a :: b :: c :: d :: rest => do
    let a ← hexValue? a
    let b ← hexValue? b
    let c ← hexValue? c
    let d ← hexValue? d
    return (((a * 16 + b) * 16 + c) * 16 + d, rest)
  | _ => none

def simpleEscape? : Char → Option Char
  | '"' => some '"'
  | '\\' => some '\\'
  | '/' => some '/'
  | 'b' => some (Char.ofNat 8)
  | 'f' => some (Char.ofNat 12)
  | 'n' => some '\n'
  | 'r' => some '\r'
  | 't' => some '\t'
  | _ => none

/-- The character of a `\u` escape, which may take a second escape for the low surrogate. -/
def unicodeEscape? (cs : List Char) : Option (Char × List Char) := do
  let (high, rest) ← unit? cs
  if 0xDC00 ≤ high ∧ high ≤ 0xDFFF then none
  else if 0xD800 ≤ high ∧ high ≤ 0xDBFF then
    match rest with
    | '\\' :: 'u' :: rest =>
      let (low, rest) ← unit? rest
      if 0xDC00 ≤ low ∧ low ≤ 0xDFFF then
        some (Char.ofNat (0x10000 + (high - 0xD800) * 0x400 + (low - 0xDC00)), rest)
      else none
    | _ => none
  else some (Char.ofNat high, rest)

/-- The characters of a string up to its closing quote, the last one first. -/
def stringChars : Nat → List Char → List Char → Except String (List Char × List Char)
  | 0, _, _ => .error "unterminated string"
  | fuel + 1, read, cs =>
    match cs with
    | [] => .error "unterminated string"
    | '"' :: rest => .ok (read, rest)
    | '\\' :: 'u' :: rest =>
      match unicodeEscape? rest with
      | some (c, rest) => stringChars fuel (c :: read) rest
      | none => .error "invalid unicode escape"
    | '\\' :: c :: rest =>
      match simpleEscape? c with
      | some c => stringChars fuel (c :: read) rest
      | none => .error "invalid escape"
    | c :: rest =>
      if c.val < 32 then .error "control character in a string"
      else stringChars fuel (c :: read) rest

def stringRest (limit : Nat) (cs : List Char) : Except String (String × List Char) := do
  let (chars, rest) ← stringChars limit [] cs
  return (String.ofList chars.reverse, rest)

/-- Items after the first one of an array, the last one first. -/
def itemsRest (value : List Char → Except String (Json × List Char)) :
    Nat → List Json → List Char → Except String (List Json × List Char)
  | 0, _, _ => .error "unterminated array"
  | fuel + 1, read, cs =>
    match skipBlanks cs with
    | ']' :: rest => .ok (read, rest)
    | ',' :: rest => do
      let (item, rest) ← value rest
      itemsRest value fuel (item :: read) rest
    | _ => .error "expected a comma or a closing bracket"

/-- A key, a colon and a value. -/
def pair (limit : Nat) (value : List Char → Except String (Json × List Char)) (cs : List Char) :
    Except String ((String × Json) × List Char) := do
  match skipBlanks cs with
  | '"' :: rest =>
    let (key, rest) ← stringRest limit rest
    match skipBlanks rest with
    | ':' :: rest =>
      let (item, rest) ← value rest
      return ((key, item), rest)
    | _ => .error "expected a colon"
  | _ => .error "expected a key"

/-- Members after the first one of an object, the last one first. -/
def membersRest (limit : Nat) (value : List Char → Except String (Json × List Char)) :
    Nat → List (String × Json) → List Char → Except String (List (String × Json) × List Char)
  | 0, _, _ => .error "unterminated object"
  | fuel + 1, read, cs =>
    match skipBlanks cs with
    | '\x7d' :: rest => .ok (read, rest)
    | ',' :: rest => do
      let (member, rest) ← pair limit value rest
      membersRest limit value fuel (member :: read) rest
    | _ => .error "expected a comma or a closing brace"

/-- The text after a word that must come next. -/
def word (expected : List Char) (value : Json) (cs : List Char) :
    Except String (Json × List Char) :=
  if expected.isPrefixOf cs then .ok (value, cs.drop expected.length)
  else .error "unknown word"

/-- A value that may hold `depth` levels of arrays and objects; `limit` bounds the text's
length. -/
def value (limit : Nat) : Nat → List Char → Except String (Json × List Char)
  | 0, _ => .error "recursion limit exceeded"
  | depth + 1, cs =>
    match skipBlanks cs with
    | [] => .error "unexpected end"
    | '"' :: rest => do
      let (s, rest) ← stringRest limit rest
      return (.string s, rest)
    | '[' :: rest =>
      if depth = 0 then .error "recursion limit exceeded"
      else match skipBlanks rest with
      | ']' :: rest => .ok (.array [], rest)
      | _ => do
        let (first, rest) ← value limit depth rest
        let (items, rest) ← itemsRest (value limit depth) limit [first] rest
        return (.array items.reverse, rest)
    | '\x7b' :: rest =>
      if depth = 0 then .error "recursion limit exceeded"
      else match skipBlanks rest with
      | '\x7d' :: rest => .ok (.object [], rest)
      | _ => do
        let (first, rest) ← pair limit (value limit depth) rest
        let (members, rest) ← membersRest limit (value limit depth) limit [first] rest
        return (.object (Members.ofList members.reverse), rest)
    | '-' :: rest => do
      let (n, rest) ← unsigned true rest
      return (.number n, rest)
    | c :: rest =>
      if c.isDigit then do
        let (n, rest) ← unsigned false (c :: rest)
        return (.number n, rest)
      else if c = 't' then word ['t', 'r', 'u', 'e'] (.bool true) (c :: rest)
      else if c = 'f' then word ['f', 'a', 'l', 's', 'e'] (.bool false) (c :: rest)
      else if c = 'n' then word ['n', 'u', 'l', 'l'] .null (c :: rest)
      else .error "expected a value"

/-- Arrays and objects may nest one level less than this. -/
def nestingLimit : Nat := 128

end Reader

/-- Reads a whole text as one value. -/
def read (text : String) : Except String Json := do
  let cs := text.toList
  let (value, rest) ← Reader.value (cs.length + 1) Reader.nestingLimit cs
  if (Reader.skipBlanks rest).isEmpty then return value else .error "trailing characters"

end Json

end StateScript
