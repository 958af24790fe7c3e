import StateScript.Binary64
import StateScript.Expr.Basic
import StateScript.Path.Basic
import StateScript.Word

/-!
Static paths: a name followed by members and literal indices, as in `a.b[0]['c']`.
-/

namespace StateScript

namespace Expr

/-- The path segment that a literal index stands for. -/
def literalSegment? : Expr → Option Segment
  | .string s _ => some (.key s)
  | .number x _ =>
    match Binary64.dyadic? x with
    | some d => if d.isWhole ∧ 0 ≤ x then some (.index (min d.wholePart Word.max64)) else none
    | none => none
  | _ => none

/-- The name at the root of a static path and the segments below it. -/
def staticPath? : Expr → Option (String × Path)
  | .name root _ => some (root, [])
  | .member object property _ _ =>
    (staticPath? object).map fun (root, path) => (root, path ++ [.key property])
  | .index object key _ _ => do
    let segment ← literalSegment? key
    let (root, path) ← staticPath? object
    return (root, path ++ [segment])
  | _ => none

/-- Whether some link of a chain of members, indices and calls is written with `?.`. -/
def chainIsOptional : Expr → Bool
  | .member object _ optional _ => optional || chainIsOptional object
  | .index object _ optional _ => optional || chainIsOptional object
  | .call callee _ _ => chainIsOptional callee
  | _ => false

end Expr

end StateScript
