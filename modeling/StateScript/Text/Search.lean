/-!
Searching for one text inside another. Positions count characters, and of overlapping occurrences
the leftmost one counts.
-/

namespace StateScript.Text

/-- The least position at which `needle` occurs. -/
def find? (needle : List Char) : List Char → Option Nat
  | [] => if needle.isEmpty then some 0 else none
  | c :: rest =>
    if needle.isPrefixOf (c :: rest) then some 0 else (find? needle rest).map (· + 1)

/-- The text before the first occurrence of `needle` and the text after it. -/
def breakOn (needle : List Char) : List Char → Option (List Char × List Char)
  | [] => if needle.isEmpty then some ([], []) else none
  | c :: rest =>
    if needle.isPrefixOf (c :: rest) then some ([], (c :: rest).drop needle.length)
    else (breakOn needle rest).map fun (before, after) => (c :: before, after)

/-- Puts a character in front of the first piece. -/
def consFirst (c : Char) : List (List Char) → List (List Char)
  | [] => [[c]]
  | piece :: rest => (c :: piece) :: rest

/-- The pieces of a text between occurrences of a separator, of which `skip` characters are still
to be passed over. -/
def piecesFrom (separator : List Char) : Nat → List Char → List (List Char)
  | _, [] => [[]]
  | skip + 1, _ :: rest => piecesFrom separator skip rest
  | 0, c :: rest =>
    if separator.isPrefixOf (c :: rest) then [] :: piecesFrom separator (separator.length - 1) rest
    else consFirst c (piecesFrom separator 0 rest)

/-- The pieces between occurrences of a separator, or the single characters if it is empty. -/
def split (separator text : List Char) : List (List Char) :=
  if separator.isEmpty then text.map ([·]) else piecesFrom separator 0 text

/-- The text with the first occurrence of `needle` replaced. -/
def replaceFirst (needle replacement text : List Char) : List Char :=
  match breakOn needle text with
  | some (before, after) => before ++ replacement ++ after
  | none => text

end StateScript.Text
