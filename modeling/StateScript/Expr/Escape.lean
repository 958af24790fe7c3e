/-!
Escapes in string literals. A backslash before `n`, `t`, `r` or `0` stands for a control
character, `\u` and four hexadecimal digits for the character with that number, and a backslash
before anything else for that character itself.
-/

namespace StateScript.Escape

def hexDigit? (c : Char) : Option Nat :=
  if '0' ≤ c ∧ c ≤ '9' then some (c.toNat - 48)
  else if 'a' ≤ c ∧ c ≤ 'f' then some (c.toNat - 87)
  else if 'A' ≤ c ∧ c ≤ 'F' then some (c.toNat - 55)
  else none

/-- The number spelled by hexadecimal digits. -/
def hexValue? (cs : List Char) : Option Nat :=
  cs.foldlM (fun n c => (hexDigit? c).map fun d => 16 * n + d) 0

/-- Four hexadecimal digits, of which the first may be a plus sign. -/
def fourDigits? : List Char → Option Nat
  | '+' :: rest => hexValue? rest
  | cs => hexValue? cs

/-- The character with a number, if there is one. -/
def scalar? (n : Nat) : Option Char :=
  if n < 0xD800 ∨ (0xDFFF < n ∧ n < 0x110000) then some (Char.ofNat n) else none

/-- The text that the raw text between two quotes stands for. -/
def decode? : List Char → Option (List Char)
  | [] => some []
  | '\\' :: 'n' :: rest => (decode? rest).map ('\n' :: ·)
  | '\\' :: 't' :: rest => (decode? rest).map ('\t' :: ·)
  | '\\' :: 'r' :: rest => (decode? rest).map ('\r' :: ·)
  | '\\' :: '0' :: rest => (decode? rest).map (Char.ofNat 0 :: ·)
  | '\\' :: 'u' :: a :: b :: c :: d :: rest => do
    let character ← scalar? (← fourDigits? [a, b, c, d])
    return character :: (← decode? rest)
  | '\\' :: 'u' :: _ => none
  | '\\' :: c :: rest => (decode? rest).map (c :: ·)
  | ['\\'] => none
  | c :: rest => (decode? rest).map (c :: ·)

end StateScript.Escape
