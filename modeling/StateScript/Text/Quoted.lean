/-!
Texts quoted for messages: between double quotes, with quotes, backslashes and control characters
escaped.
-/

namespace StateScript.Text

def hexDigits (n : Nat) : String := String.ofList (Nat.toDigits 16 n)

def isControl (c : Char) : Bool := c.toNat < 0x20 || (0x7F ≤ c.toNat && c.toNat < 0xA0)

def quotedChar (c : Char) : String :=
  if c = '\x00' then "\\0"
  else if c = '\t' then "\\t"
  else if c = '\n' then "\\n"
  else if c = '\r' then "\\r"
  else if c = '"' ∨ c = '\'' ∨ c = '\\' then String.ofList ['\\', c]
  else if isControl c then "\\u\x7b" ++ hexDigits c.toNat ++ "\x7d"
  else c.toString

def quoted (s : String) : String := "\"" ++ String.join (s.toList.map quotedChar) ++ "\""

end StateScript.Text
