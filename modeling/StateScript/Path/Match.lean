import StateScript.Path.Reader

/-!
Comparing paths: patterns with wildcards, and whether a write at one path can change what is read
at another.
-/

namespace StateScript.Path

/-- Whether the segments of two paths match as far as both go. -/
def agree : Path → Path → Bool
  | a :: as, b :: bs => a.matchesSegment b && agree as bs
  | _, _ => true

def endsInWildcard (path : Path) : Bool := path.getLast? == some .wildcard

/-- The path without a wildcard at its end. -/
def withoutWildcard (path : Path) : Path :=
  if endsInWildcard path then path.dropLast else path

/-- Whether a path fits a pattern. A wildcard stands for one segment; at the end of the pattern it
stands for any number of them, none included. -/
def fits (pattern path : Path) : Bool :=
  if endsInWildcard pattern then
    decide (pattern.length - 1 ≤ path.length) && agree pattern.dropLast path
  else pattern.length == path.length && agree pattern path

/-- `fits` on texts; a text that is not a path fits nothing. -/
def textFits (pattern path : String) : Bool :=
  match read pattern, read path with
  | .ok pattern, .ok path => fits pattern path
  | _, _ => false

/-- Whether one path leads to the other or below it. -/
def intersect (a b : Path) : Bool := agree (withoutWildcard a) (withoutWildcard b)

/-- `intersect` on texts; a text that is not a path intersects everything. -/
def textsIntersect (a b : String) : Bool :=
  match read a, read b with
  | .ok a, .ok b => intersect a b
  | _, _ => true

end StateScript.Path
