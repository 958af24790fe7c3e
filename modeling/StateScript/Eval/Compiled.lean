import StateScript.Eval.Run

/-!
Direct evaluation of simple expressions. A literal or a static path through names that nothing
denies is read without the interpreter.
-/

namespace StateScript

/-- An expression that needs no interpreter. -/
inductive Direct where
  | constant (value : Json)
  | path (root : String) (path : Path)

namespace Direct

def call (resolver : Resolver) : Direct → Json
  | constant value => value
  | path root segments => Eval.readPath resolver root segments

/-- Whether a path segment is a denied name. -/
def deniedSegment : Segment → Bool
  | .key k => isDenied k
  | _ => false

/-- The direct form of an expression, if it is simple enough. -/
def ofExpr? : Expr → Option Direct
  | .bool b _ => some (.constant (.bool b))
  | .number x _ => some (.constant (.ofFloat x))
  | .string s _ => some (.constant (.string s))
  | .null _ => some (.constant .null)
  | e =>
    match e.staticPath? with
    | some (root, segments) =>
      if isHostGlobal root || isDenied root || segments.any deniedSegment then none
      else some (.path root segments)
    | none => none

end Direct

end StateScript
