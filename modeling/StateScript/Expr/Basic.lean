/-!
Expressions: their nodes with source spans, the children of a node, and bounds on depth.
-/

namespace StateScript

/-- A place in a source text: bytes before it, line ends before it, and characters since the last
of these. -/
structure Place where
  offset : Nat
  line : Nat
  column : Nat
  deriving DecidableEq, Repr

namespace Place

def origin : Place := ⟨0, 0, 0⟩

/-- The place behind one character. -/
def after (p : Place) (c : Char) : Place :=
  if c = '\n' then ⟨p.offset + c.utf8Size, p.line + 1, 0⟩
  else ⟨p.offset + c.utf8Size, p.line, p.column + 1⟩

/-- The later of two places. -/
def later (p q : Place) : Place := if p.offset < q.offset then q else p

end Place

/-- The part of a source text from a place up to a byte offset. -/
structure Span where
  start : Place
  stop : Nat
  deriving DecidableEq, Repr

/-- The least span around two spans. -/
def Span.merge (a b : Span) : Span :=
  ⟨if a.start.offset ≤ b.start.offset then a.start else b.start, max a.stop b.stop⟩

inductive UnaryOp where
  | not
  | neg
  | plus
  | typeof
  deriving DecidableEq, Repr

inductive BinaryOp where
  | add
  | sub
  | mul
  | div
  | mod
  | eq
  | ne
  | strictEq
  | strictNe
  | lt
  | lte
  | gt
  | gte
  deriving DecidableEq, Repr

def BinaryOp.symbol : BinaryOp → String
  | add => "+"
  | sub => "-"
  | mul => "*"
  | div => "/"
  | mod => "%"
  | eq => "=="
  | ne => "!="
  | strictEq => "==="
  | strictNe => "!=="
  | lt => "<"
  | lte => "<="
  | gt => ">"
  | gte => ">="

/-- Operators that may leave their right operand unevaluated. -/
inductive LogicalOp where
  | and
  | or
  | nullish
  deriving DecidableEq, Repr

inductive Expr where
  | bool (value : Bool) (span : Span)
  | number (value : Float) (span : Span)
  | string (value : String) (span : Span)
  | null (span : Span)
  | list (elements : List Expr) (span : Span)
  | record (properties : List (String × Expr)) (span : Span)
  | name (text : String) (span : Span)
  | member (object : Expr) (property : String) (optional : Bool) (span : Span)
  | index (object : Expr) (key : Expr) (optional : Bool) (span : Span)
  | call (callee : Expr) (args : List Expr) (span : Span)
  | unary (op : UnaryOp) (operand : Expr) (span : Span)
  | binary (op : BinaryOp) (left right : Expr) (span : Span)
  | logical (op : LogicalOp) (left right : Expr) (span : Span)
  | ternary (condition consequent alternate : Expr) (span : Span)

namespace Expr

def span : Expr → Span
  | bool _ s | number _ s | string _ s | null s | list _ s | record _ s | name _ s
  | member _ _ _ s | index _ _ _ s | call _ _ s | unary _ _ s | binary _ _ _ s
  | logical _ _ _ s | ternary _ _ _ s => s

/-- The name of a node's kind, as messages spell it. -/
def kind : Expr → String
  | bool .. | number .. | string .. | null .. => "Literal"
  | list .. => "ArrayExpression"
  | record .. => "ObjectExpression"
  | name .. => "Identifier"
  | member .. | index .. => "MemberExpression"
  | call .. => "CallExpression"
  | unary .. => "UnaryExpression"
  | binary .. => "BinaryExpression"
  | logical .. => "LogicalExpression"
  | ternary .. => "ConditionalExpression"

/-- The direct children, in order of evaluation. -/
def children : Expr → List Expr
  | list elements _ => elements
  | record properties _ => properties.map Prod.snd
  | member object _ _ _ => [object]
  | index object key _ _ => [object, key]
  | call callee args _ => callee :: args
  | unary _ operand _ => [operand]
  | binary _ left right _ | logical _ left right _ => [left, right]
  | ternary condition consequent alternate _ => [condition, consequent, alternate]
  | _ => []

/-- Whether a tree has more than `limit` levels. -/
def exceedsDepth : Nat → Expr → Bool
  | 0, _ => true
  | limit + 1, e => e.children.any (exceedsDepth limit)

mutual

/-- All nodes of a tree, each before its children. -/
def nodes : Expr → List Expr
  | list elements s => list elements s :: nodesOfList elements
  | record properties s => record properties s :: nodesOfProperties properties
  | member object p o s => member object p o s :: nodes object
  | index object i o s => index object i o s :: (nodes object ++ nodes i)
  | call callee args s => call callee args s :: (nodes callee ++ nodesOfList args)
  | unary op operand s => unary op operand s :: nodes operand
  | binary op left right s => binary op left right s :: (nodes left ++ nodes right)
  | logical op left right s => logical op left right s :: (nodes left ++ nodes right)
  | ternary c a b s => ternary c a b s :: (nodes c ++ nodes a ++ nodes b)
  | e => [e]
  termination_by structural e => e

def nodesOfList : List Expr → List Expr
  | [] => []
  | e :: rest => nodes e ++ nodesOfList rest
  termination_by structural es => es

def nodesOfProperties : List (String × Expr) → List Expr
  | [] => []
  | (_, e) :: rest => nodes e ++ nodesOfProperties rest
  termination_by structural ps => ps

end

theorem nodesOfList_eq (es : List Expr) : nodesOfList es = es.flatMap nodes := by
  induction es with
  | nil => rfl
  | cons e rest ih => rw [nodesOfList, ih, List.flatMap_cons]

theorem nodesOfProperties_eq (ps : List (String × Expr)) :
    nodesOfProperties ps = (ps.map Prod.snd).flatMap nodes := by
  induction ps with
  | nil => rfl
  | cons p rest ih => rw [nodesOfProperties, ih, List.map_cons, List.flatMap_cons]

theorem nodes_eq (e : Expr) : e.nodes = e :: e.children.flatMap nodes := by
  cases e <;> simp [nodes, children, nodesOfList_eq, nodesOfProperties_eq]

end Expr

end StateScript
