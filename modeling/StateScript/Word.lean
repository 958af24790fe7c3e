/-!
Bounds of machine words, where numbers come from or go to fields of a fixed size.
-/

namespace StateScript.Word

/-- The greatest natural number of 32 bits. -/
def max32 : Nat := 4294967295

/-- The greatest integer of 32 bits. -/
def maxInt32 : Nat := 2147483647

/-- The greatest natural number of 64 bits. -/
def max64 : Nat := 18446744073709551615

/-- The greatest integer of 64 bits. -/
def maxInt64 : Nat := 9223372036854775807

/-- Whether an integer fits 64 bits with its sign. -/
def fitsInt64 (i : Int) : Bool := -(maxInt64 : Int) - 1 ≤ i && i ≤ maxInt64

end StateScript.Word
