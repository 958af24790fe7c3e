import StateScript.Text.LetterRanges

/-!
Letters and digits in the sense of Unicode.
-/

namespace StateScript.Text

def inRanges (ranges : List (Nat × Nat)) (n : Nat) : Bool :=
  ranges.any fun (first, last) => first ≤ n && n ≤ last

/-- Whether a character is alphabetic or numeric. -/
def isAlphanumeric (c : Char) : Bool :=
  c.isAlphanum || (128 ≤ c.toNat && inRanges wideAlphanumeric c.toNat)

end StateScript.Text
