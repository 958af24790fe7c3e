/-!
The words of an expression: how many characters at the front of a text form a number, a name or a
quoted string.
-/

namespace StateScript.Lexeme

def isBlank (c : Char) : Bool := c == ' ' || c == '\t' || c == '\r' || c == '\n'

def isNameStart (c : Char) : Bool := c.isAlpha || c == '_' || c == '$'

def isNameChar (c : Char) : Bool := c.isAlphanum || c == '_' || c == '$'

def digitsLength (cs : List Char) : Nat := (cs.takeWhile Char.isDigit).length

/-- Digits with an optional fraction, or a point and digits. -/
def mantissaLength? (cs : List Char) : Option Nat :=
  let whole := digitsLength cs
  let fraction := match cs.drop whole with
    | '.' :: rest => digitsLength rest
    | _ => 0
  if 0 < fraction then some (whole + 1 + fraction) else if 0 < whole then some whole else none

/-- An exponent with at least one digit, or nothing. -/
def exponentLength : List Char → Nat
  | c :: rest =>
    if c = 'e' ∨ c = 'E' then
      let sign := match rest with
        | '+' :: _ => 1
        | '-' :: _ => 1
        | _ => 0
      let digits := digitsLength (rest.drop sign)
      if 0 < digits then 1 + sign + digits else 0
    else 0
  | [] => 0

def numberLength? (cs : List Char) : Option Nat :=
  (mantissaLength? cs).map fun n => n + exponentLength (cs.drop n)

def nameLength? : List Char → Option Nat
  | c :: rest => if isNameStart c then some (1 + (rest.takeWhile isNameChar).length) else none
  | [] => none

/-- The characters before the closing quote; a backslash protects the character behind it. -/
def quotedLength? (quote : Char) : List Char → Option Nat
  | [] => none
  | '\\' :: _ :: rest => (quotedLength? quote rest).map (· + 2)
  | c :: rest =>
    if c = quote then some 0 else if c = '\\' then none else (quotedLength? quote rest).map (· + 1)

end StateScript.Lexeme
