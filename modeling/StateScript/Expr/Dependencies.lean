import StateScript.Builtin.Names
import StateScript.Expr.StaticPath
import StateScript.Path.Match
import StateScript.Text.NameSet

/-!
The state paths that an expression may read. A static path depends on itself and on everything
below its root; a chain with computed parts depends on everything below its root.
-/

namespace StateScript

/-- Names that stand for builtins rather than state. -/
def nonStateNames : List String :=
  ["Math", "JSON", "Object", "Array", "String", "Number", "Boolean", "Date", "console",
    "parseInt", "parseFloat", "isNaN", "isFinite", "NaN", "Infinity", "undefined"]

/-- The paths that reading a name adds: none for a builtin. -/
def stateReads (name : String) (paths : List String) : List String :=
  if nonStateNames.contains name then [] else paths

namespace Expr

/-- The name at the root of a chain of members and indices. -/
def chainRoot? : Expr → Option String
  | .name root _ => some root
  | .member object _ _ _ => chainRoot? object
  | .index object _ _ _ => chainRoot? object
  | _ => none

/-- What a chain reads at its root. A chain that is not static is dynamic, and then so is the root
read; `below` is what its computed parts read. -/
def chainReads (chain : Expr) (below : List String) : List String :=
  match chain.staticPath? with
  | some (root, path) =>
    stateReads root [Path.render (.key root :: path), Path.wildcardOf root]
  | none =>
    (chain.chainRoot?.elim [] fun root => stateReads root [Path.wildcardOf root]) ++ below

/-- Whether an expression is the name of a namespace. -/
def isNamespaceName : Expr → Bool
  | .name n _ => isNamespace n
  | _ => false

mutual

/-- The paths that an expression reads. Inside a chain whose root is covered already, only the
computed parts count. -/
def reads (inChain : Bool) : Expr → List String
  | .name n _ => if inChain then [] else stateReads n [n]
  | .member object p o s =>
    if inChain then reads true object
    else chainReads (.member object p o s) (reads true object)
  | .index object key o s =>
    if inChain then reads false key ++ reads true object
    else chainReads (.index object key o s) (reads false key ++ reads true object)
  | .call callee args _ =>
    (match callee with
      | .name .. => []
      | .member object _ _ _ => if object.isNamespaceName then [] else reads false object
      | other => reads false other) ++ readsOfList args
  | .list elements _ => readsOfList elements
  | .record properties _ => readsOfProperties properties
  | .unary _ operand _ => reads false operand
  | .binary _ left right _ => reads false left ++ reads false right
  | .logical _ left right _ => reads false left ++ reads false right
  | .ternary c a b _ => reads false c ++ reads false a ++ reads false b
  | .bool .. => []
  | .number .. => []
  | .string .. => []
  | .null _ => []
  termination_by structural e => e

def readsOfList : List Expr → List String
  | [] => []
  | e :: rest => reads false e ++ readsOfList rest
  termination_by structural es => es

def readsOfProperties : List (String × Expr) → List String
  | [] => []
  | (_, e) :: rest => reads false e ++ readsOfProperties rest
  termination_by structural ps => ps

end

/-- The set of paths that an expression may read. -/
def dependencies (e : Expr) : NameSet := .ofList (reads false e)

end Expr

/-- The first segment of a path text; a text that is not a path stands for itself. -/
def rootOfPath (text : String) : String :=
  match Path.read text with
  | .ok (segment :: _) => segment.text
  | _ => text

/-- The names that a set of paths starts with. -/
def dependencyRoots (dependencies : NameSet) : NameSet := .ofList (dependencies.map rootOfPath)

end StateScript
