import StateScript.Text.CaseRanges
import StateScript.Text.Letter

/-!
Full case mapping. Uppercase may take several characters, as in `ß` to `SS`, and a capital sigma
that ends a word becomes a final sigma.
-/

namespace StateScript.Text

/-- The image of a character under a table of mappings. -/
def mapped? (table : List (Nat × Nat × Nat × Int)) (n : Nat) : Option Nat :=
  (table.find? fun (first, last, step, _) => first ≤ n && n ≤ last && (n - first) % step == 0).map
    fun (_, _, _, offset) => ((n : Int) + offset).toNat

def upperChar (c : Char) : List Char :=
  match upperExpansions.find? (·.1 == c.toNat) with
  | some (_, expansion) => expansion.map Char.ofNat
  | none => [((mapped? upperMappings c.toNat).map Char.ofNat).getD c]

def lowerChar (c : Char) : List Char :=
  if c.toNat = 0x130 then ['i', Char.ofNat 0x307]
  else [((mapped? lowerMappings c.toNat).map Char.ofNat).getD c]

/-- Whether the nearest character that is not transparent to case has case. -/
def reachesCased (cs : List Char) : Bool :=
  match cs.dropWhile fun c => inRanges caseIgnorableRanges c.toNat with
  | c :: _ => inRanges casedRanges c.toNat
  | [] => false

/-- Lowercase of a text, given the characters before it with the nearest one first. -/
def lowerFrom (before : List Char) : List Char → List Char
  | [] => []
  | c :: rest =>
    let image :=
      if c.toNat = 0x3A3 then
        [Char.ofNat (if reachesCased before && !reachesCased rest then 0x3C2 else 0x3C3)]
      else lowerChar c
    image ++ lowerFrom (c :: before) rest

def toUpper (cs : List Char) : List Char := cs.flatMap upperChar

def toLower (cs : List Char) : List Char := lowerFrom [] cs

end StateScript.Text
