import StateScript.Expr.Basic

/-!
Phrases: an expression as it is written, before operators are nested and string escapes are
decoded. A chain keeps the operators of one precedence level side by side.
-/

namespace StateScript

inductive InfixOp where
  | binary (op : BinaryOp)
  | logical (op : LogicalOp)
  deriving DecidableEq, Repr

/-- The key of an object literal, with the raw text between the quotes if it is quoted. -/
inductive PhraseKey where
  | plain (name : String)
  | quoted (raw : List Char) (span : Span)
  deriving DecidableEq, Repr

mutual

inductive Phrase where
  | number (digits : List Char) (span : Span)
  | string (raw : List Char) (span : Span)
  | bool (value : Bool) (span : Span)
  | null (span : Span)
  | name (text : String) (span : Span)
  | list (items : List Phrase) (span : Span)
  | record (fields : List (PhraseKey × Phrase)) (span : Span)
  | linked (base : Phrase) (links : List PhraseLink)
  | signed (ops : List (UnaryOp × Span)) (operand : Phrase)
  | chain (first : Phrase) (rest : List (InfixOp × Phrase))
  | choice (test consequent alternate : Phrase) (span : Span)

/-- What may follow an operand: a member, an index in brackets or call arguments. -/
inductive PhraseLink where
  | member (property : String) (optional : Bool) (span : Span)
  | index (key : Phrase) (optional : Bool) (span : Span)
  | call (args : List Phrase) (span : Span)

end

end StateScript
