import StateScript.Coercion
import StateScript.Word

/-!
Numbers read from and written as text by builtin functions: integers in any radix, the longest
numeric start of a text, and positions counted from either end.
-/

namespace StateScript.Builtin

/-- The value of a digit in radix 36 or below. -/
def digitValue? (c : Char) : Option Nat :=
  if '0' ≤ c ∧ c ≤ '9' then some (c.toNat - 48)
  else if 'a' ≤ c ∧ c ≤ 'z' then some (c.toNat - 87)
  else if 'A' ≤ c ∧ c ≤ 'Z' then some (c.toNat - 55)
  else none

def isDigitOf (radix : Nat) (c : Char) : Bool :=
  match digitValue? c with
  | some d => d < radix
  | none => false

/-- The digits' value, summed up in double precision from the front. -/
def foldDigits (radix : Nat) (digits : List Char) : Float :=
  digits.foldl (fun x c =>
    x * Binary64.ofNat radix + Binary64.ofNat ((digitValue? c).getD 0)) 0

/-- The digits of an integer text and their radix. Radix zero means ten, or sixteen behind `0x`. -/
def radixDigits (radix : Nat) (cs : List Char) : Nat × List Char :=
  match cs with
  | '0' :: x :: rest =>
    if (x = 'x' ∨ x = 'X') ∧ (radix = 0 ∨ radix = 16) then (16, rest)
    else (if radix = 0 then 10 else radix, cs)
  | _ => (if radix = 0 then 10 else radix, cs)

/-- The integer at the start of a text, NaN if there is none. -/
def parseInt (text : String) (radix : Nat) : Float :=
  let (negative, cs) := Decimal.signed (Text.trimStart text.toList)
  let (radix, cs) := radixDigits radix cs
  if radix < 2 ∨ 36 < radix then Binary64.nan
  else
    let digits := cs.takeWhile (isDigitOf radix)
    if digits.isEmpty then Binary64.nan
    else foldDigits radix digits * (if negative then -1 else 1)

/-- What a scan for a numeric start has seen: characters so far, a digit, a point, an exponent
mark, whether the mark came last, and how many characters end with the last digit. -/
structure FloatScan where
  read : Nat := 0
  digit : Bool := false
  point : Bool := false
  mark : Bool := false
  markLast : Bool := false
  valid : Nat := 0

namespace FloatScan

/-- One more character, or nothing if a number cannot go on with it. -/
def step? (s : FloatScan) (c : Char) : Option FloatScan :=
  if c.isDigit then
    some { s with read := s.read + 1, digit := true, markLast := false, valid := s.read + 1 }
  else if c = '+' ∨ c = '-' then
    if s.read = 0 ∨ (s.mark ∧ s.markLast) then
      some { s with read := s.read + 1, markLast := false }
    else none
  else if c = '.' then
    if s.point ∨ s.mark then none
    else some { s with read := s.read + 1, point := true, markLast := false }
  else if c = 'e' ∨ c = 'E' then
    if s.digit ∧ !s.mark then some { s with read := s.read + 1, mark := true, markLast := true }
    else none
  else none

def run (s : FloatScan) : List Char → FloatScan
  | [] => s
  | c :: rest => match s.step? c with
    | some s => run s rest
    | none => s

end FloatScan

/-- The longest start of a text that is a decimal numeral and ends in a digit. -/
def numericStart? (cs : List Char) : Option (List Char) :=
  let s := FloatScan.run {} cs
  if s.digit then some (cs.take s.valid) else none

/-- The number at the start of a text, NaN if there is none. -/
def parseFloat (text : String) : Float :=
  let cs := Text.trimStart text.toList
  if "Infinity".toList.isPrefixOf cs || "+Infinity".toList.isPrefixOf cs then
    Binary64.infinity false
  else if "-Infinity".toList.isPrefixOf cs then Binary64.infinity true
  else ((numericStart? cs).bind Decimal.read?).getD Binary64.nan

/-- The digit of a value below 36. -/
def radixDigit (n : Nat) : Char :=
  if n < 10 then Char.ofNat (48 + n) else Char.ofNat (87 + n)

/-- The numeral of a natural in a radix, in front of digits already written. Each step of the
fuel writes one digit. -/
def numeralFrom (radix : Nat) : Nat → Nat → List Char → List Char
  | 0, _, written => written
  | fuel + 1, n, written =>
    if n < radix then radixDigit n :: written
    else numeralFrom radix fuel (n / radix) (radixDigit (n % radix) :: written)

/-- The numeral of a natural below `2 ^ 64` in a radix of at least two. -/
def numeral (radix n : Nat) : List Char := numeralFrom radix 64 n []

/-- The numeral of a whole number in a radix. The magnitude is clamped to 64 bits; a number that
is not whole keeps its decimal text. -/
def toRadix (x : Float) (radix : Nat) : String :=
  if !Binary64.isWhole x then Json.formatNumber x
  else
    let digits := numeral radix (Binary64.toNatClamped Word.max64 x.abs)
    String.ofList (if x < 0 then '-' :: digits else digits)

/-- The number with a fixed count of decimal places. -/
def toFixed (x : Float) (places : Nat) : String :=
  match Binary64.dyadic? x with
  | some d => String.ofList ((if d.negative then ['-'] else []) ++ Decimal.fixed places d)
  | none => Json.formatNumber x

/-- A position in a sequence of a given length. The number is cut toward zero; negative positions
count from the end, and the result is clamped to the sequence. -/
def clampedPosition (x : Float) (length : Nat) : Nat :=
  match Binary64.dyadic? x with
  | some d =>
    let i := d.truncate
    if i < 0 then ((length : Int) + i).toNat else min i.toNat length
  | none => if 0 < x then length else 0

/-- A position argument, with a default for null. -/
def relativeIndex (v : Json) (length default : Nat) : Nat :=
  if v.isNull then default else clampedPosition v.toNumber length

/-- The part of a list between two positions. -/
def between {α : Type} (items : List α) (start stop : Nat) : List α :=
  (items.take stop).drop start

end StateScript.Builtin
