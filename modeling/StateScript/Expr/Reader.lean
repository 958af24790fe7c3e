import StateScript.Decimal.Reader
import StateScript.Error
import StateScript.Expr.Escape
import StateScript.Expr.Grammar
import StateScript.Text.Blank

/-!
Reading expressions. A text is checked for nesting, recognised by the grammar, and then built into
a tree: operator chains group to the left, escapes are decoded, and no tree gets deeper than a
fixed bound.
-/

namespace StateScript

/-- Why a text is not an expression. -/
inductive ParseFault where
  | empty
  | nesting (depth : Nat)
  | unexpected (place : Place)
  | invalidEscape (place : Place)
  deriving DecidableEq, Repr

/-- The deepest nesting of brackets and conditionals in a text, and of nodes in a tree. -/
def maxNesting : Nat := 256

namespace ParseFault

def atPlace (p : Place) (e : Error) : Error :=
  (e.withMetadata "line" (.nat (p.line + 1))).withMetadata "column" (.nat (p.column + 1))

/-- The error for a source text. -/
def error (source : String) (fault : ParseFault) : Error :=
  Error.withExpression source <| match fault with
  | empty => .expression .expressionParseError "Expression is empty"
  | nesting depth => .expression .expressionValidationError
      s!"Expression nesting depth {depth} exceeds the maximum of {maxNesting}"
  | unexpected p => atPlace p <| .expression .expressionParseError
      s!"Unexpected token at column {p.column + 1}: it does not continue the expression"
  | invalidEscape p => atPlace p <| .expression .expressionParseError "Invalid escape sequence"

end ParseFault

/-- What a scan for nesting has seen: open brackets, the most that were open at once, question
marks of conditionals, the quote it is in, whether a backslash came last, and the last
character. -/
structure NestingScan where
  depth : Nat := 0
  deepest : Nat := 0
  conditionals : Nat := 0
  quote : Option Char := none
  escaped : Bool := false
  last : Option Char := none

namespace NestingScan

/-- Whether a question mark starts a conditional: the ones of `?.` and `??` do not. -/
def startsConditional (last next : Option Char) : Bool :=
  last != some '?' && next != some '.' && next != some '?'

/-- One more character, given the one behind it. -/
def step (s : NestingScan) (c : Char) (next : Option Char) : NestingScan :=
  match s.quote with
  | some q =>
    if s.escaped then { s with escaped := false, last := some c }
    else if c = '\\' then { s with escaped := true, last := some c }
    else if c = q then { s with quote := none, last := some c }
    else { s with last := some c }
  | none =>
    if c = '\'' ∨ c = '"' then { s with quote := some c, last := some c }
    else if c = '(' ∨ c = '[' ∨ c = '\x7b' then
      { s with depth := s.depth + 1, deepest := max s.deepest (s.depth + 1), last := some c }
    else if c = ')' ∨ c = ']' ∨ c = '\x7d' then { s with depth := s.depth - 1, last := some c }
    else if c = '?' ∧ startsConditional s.last next then
      { s with conditionals := s.conditionals + 1, last := some c }
    else { s with last := some c }

def run : NestingScan → List Char → NestingScan
  | s, [] => s
  | s, c :: rest => run (s.step c rest.head?) rest

end NestingScan

/-- Brackets nested at once plus all conditionals, which nest to the right. -/
def sourceNesting (cs : List Char) : Nat :=
  let s := NestingScan.run {} cs
  s.deepest + s.conditionals

namespace Phrase

/-- A depth some levels further down, within the bound. -/
def deeper (depth levels : Nat) : Except ParseFault Nat :=
  if maxNesting < depth + levels then .error (.nesting (depth + levels)) else .ok (depth + levels)

/-- The text of a quoted literal. -/
def decoded (raw : List Char) (span : Span) : Except ParseFault String :=
  match Escape.decode? raw with
  | some cs => .ok (String.ofList cs)
  | none => .error (.invalidEscape span.start)

/-- Groups an operator with the operands on its two sides. -/
def infixNode (op : InfixOp) (left right : Expr) : Expr :=
  let span := left.span.merge right.span
  match op with
  | .binary op => .binary op left right span
  | .logical op => .logical op left right span

/-- Puts unary operators around an operand, the last one innermost. -/
def signedNode (ops : List (UnaryOp × Span)) (operand : Expr) : Expr :=
  ops.foldr (fun (op, span) e => .unary op e (span.merge e.span)) operand

mutual

/-- The tree of a phrase that stands `depth` levels below the root. -/
def build (depth : Nat) : Phrase → Except ParseFault Expr
  | .number digits span => .ok (.number ((Decimal.read? digits).getD Binary64.nan) span)
  | .string raw span => do return .string (← decoded raw span) span
  | .bool value span => .ok (.bool value span)
  | .null span => .ok (.null span)
  | .name text span => .ok (.name text span)
  | .list items span => do
    let below ← deeper depth 1
    return .list (← buildList below items) span
  | .record fields span => do
    let below ← deeper depth 1
    return .record (← buildFields below fields) span
  | .linked base links => do
    let below ← deeper depth links.length
    buildLinks below (← build below base) links
  | .signed ops operand => do
    let below ← deeper depth ops.length
    return signedNode ops (← build below operand)
  | .chain first rest => do
    let below ← deeper depth rest.length
    buildChain below (← build below first) rest
  | .choice test consequent alternate span => do
    let below ← deeper depth 1
    let test ← build below test
    let consequent ← build below consequent
    return .ternary test consequent (← build below alternate) span
  termination_by structural p => p

def buildList (depth : Nat) : List Phrase → Except ParseFault (List Expr)
  | [] => .ok []
  | p :: rest => do
    let e ← build depth p
    return e :: (← buildList depth rest)
  termination_by structural ps => ps

def buildFields (depth : Nat) :
    List (PhraseKey × Phrase) → Except ParseFault (List (String × Expr))
  | [] => .ok []
  | (key, p) :: rest => do
    let label ← match key with
      | .plain label => .ok label
      | .quoted raw span => decoded raw span
    let e ← build depth p
    return (label, e) :: (← buildFields depth rest)
  termination_by structural fs => fs

/-- Hangs the links of an operand onto it, the first one innermost. -/
def buildLinks (depth : Nat) (base : Expr) : List PhraseLink → Except ParseFault Expr
  | [] => .ok base
  | l :: rest => do
    let e ← buildLink depth base l
    buildLinks depth e rest
  termination_by structural ls => ls

def buildLink (depth : Nat) (base : Expr) : PhraseLink → Except ParseFault Expr
  | .member property optional span => .ok (.member base property optional (base.span.merge span))
  | .index key optional span => do
    return .index base (← build depth key) optional (base.span.merge span)
  | .call args span => do return .call base (← buildList depth args) (base.span.merge span)
  termination_by structural l => l

/-- Groups the operators of a chain to the left. -/
def buildChain (depth : Nat) (left : Expr) :
    List (InfixOp × Phrase) → Except ParseFault Expr
  | [] => .ok left
  | (op, p) :: rest => do
    let right ← build depth p
    buildChain depth (infixNode op left right) rest
  termination_by structural ps => ps

end

end Phrase

namespace Expr

/-- The tree of a text without blanks at its ends. -/
def read (cs : List Char) : Except ParseFault Expr :=
  if cs.isEmpty then .error .empty
  else if maxNesting < sourceNesting cs then .error (.nesting (sourceNesting cs))
  else match Grammar.recognise (cs.length + 1) cs with
  | .ok phrase => phrase.build 0
  | .error furthest => .error (.unexpected furthest)

/-- Parses an expression; blanks around it do not count. -/
def parse (source : String) : Except Error Expr :=
  let cs := Text.trim source.toList
  (read cs).mapError (ParseFault.error (String.ofList cs))

end Expr

end StateScript
