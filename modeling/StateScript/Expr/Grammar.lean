import StateScript.Expr.Lexeme
import StateScript.Expr.Phrase

/-!
The grammar of expressions, as a recogniser with ordered choice. Blanks are skipped behind every
word. A failure is reported at the furthest place where one of the named rules was tried in vain.
-/

namespace StateScript

/-- The rest of a source text and the place where it starts. -/
structure Cursor where
  rest : List Char
  place : Place

namespace Cursor

def ofText (cs : List Char) : Cursor := ⟨cs, .origin⟩

/-- Passes over a number of characters. -/
def advance : Nat → Cursor → Cursor
  | n + 1, ⟨c :: rest, place⟩ => advance n ⟨rest, place.after c⟩
  | _, cursor => cursor

def skipBlanks (cursor : Cursor) : Cursor :=
  cursor.advance (cursor.rest.takeWhile Lexeme.isBlank).length

end Cursor

/-- A recogniser moves a cursor or fails, and remembers the furthest place of failure. -/
abbrev Recogniser := StateT Cursor (OptionT (StateM Place))

namespace Grammar

/-- A rule whose failure counts for error reports, at the place where the rule was tried. -/
def named {α : Type} (rule : Recogniser α) : Recogniser α := fun cursor furthest =>
  match rule cursor furthest with
  | (none, furthest) => (none, furthest.later cursor.place)
  | found => found

/-- Moves past `n` characters and the blanks behind them; gives the characters and their span. -/
def taken (n : Nat) : Recogniser (List Char × Span) := do
  let cursor ← get
  let behind := cursor.advance n
  set behind.skipBlanks
  return (cursor.rest.take n, ⟨cursor.place, behind.place.offset⟩)

/-- A fixed word. -/
def word (expected : List Char) : Recogniser Span := do
  if expected.isPrefixOf (← get).rest then return (← taken expected.length).2 else failure

/-- A word whose length a scanner gives. -/
def scanned (length? : List Char → Option Nat) : Recogniser (List Char × Span) := do
  match length? (← get).rest with
  | some n => taken n
  | none => failure

/-- As many matches as there are, up to a number that no text reaches. -/
def many {α : Type} (limit : Nat) (rule : Recogniser α) : Recogniser (List α) :=
  match limit with
  | 0 => return []
  | limit + 1 => (do
      let first ← rule
      return first :: (← many limit rule)) <|> return []

def optional {α : Type} (rule : Recogniser α) : Recogniser (Option α) :=
  (some <$> rule) <|> return none

/-- A name that satisfies a test. -/
def nameSuchThat (accepts : String → Bool) : Recogniser (String × Span) := do
  let (cs, span) ← scanned Lexeme.nameLength?
  if accepts (String.ofList cs) then return (String.ofList cs, span) else failure

def keywords : List String := ["true", "false", "null", "undefined", "typeof"]

def keyword (expected : String) : Recogniser Span := do
  return (← nameSuchThat (· == expected)).2

def identifier : Recogniser (String × Span) := named (nameSuchThat fun s => !keywords.contains s)

def propertyName : Recogniser (String × Span) := named (nameSuchThat fun _ => true)

def indexDigits : Recogniser (String × Span) := named do
  let (cs, span) ← scanned fun cs =>
    if Lexeme.digitsLength cs = 0 then none else some (Lexeme.digitsLength cs)
  return (String.ofList cs, span)

/-- The raw text between two quotes, and the span with the quotes. -/
def quoted : Recogniser (List Char × Span) := named do
  let (cs, span) ← scanned fun
    | quote :: rest =>
      if quote = '\'' ∨ quote = '"' then (Lexeme.quotedLength? quote rest).map (· + 2) else none
    | [] => none
  return (cs.tail.dropLast, span)

/-- The words of a list separated by commas; the list may be empty. -/
def separated {α : Type} (limit : Nat) (rule : Recogniser α) : Recogniser (List α) := do
  match ← optional rule with
  | none => return []
  | some first =>
    return first :: (← many limit do
      let _ ← word [',']
      rule)

def operator {α : Type} (symbol : String) (op : α) : Recogniser α := named do
  let _ ← word symbol.toList
  return op

/-- The first of several rules that matches. -/
def firstOf {α : Type} : List (Recogniser α) → Recogniser α
  | [] => failure
  | rule :: rules => rule <|> firstOf rules

def unaryOperator : Recogniser (UnaryOp × Span) := firstOf [
  named do return (.not, ← word ['!']),
  named do return (.neg, ← word ['-']),
  named do return (.plus, ← word ['+']),
  named do return (.typeof, ← keyword "typeof")]

/-- The infix operators from the loosest level to the tightest; in one level, the longer ones
first. -/
def levels : List (List (String × InfixOp)) := [
  [("||", .logical .or), ("??", .logical .nullish)],
  [("&&", .logical .and)],
  [("===", .binary .strictEq), ("!==", .binary .strictNe), ("==", .binary .eq),
    ("!=", .binary .ne)],
  [("<=", .binary .lte), (">=", .binary .gte), ("<", .binary .lt), (">", .binary .gt)],
  [("+", .binary .add), ("-", .binary .sub)],
  [("*", .binary .mul), ("/", .binary .div), ("%", .binary .mod)]]

/-- The question mark of a conditional. It is neither the start of `??` nor, unless a digit
follows, of `?.`. -/
def questionMark : Recogniser Unit := do
  let cursor ← get
  match cursor.rest with
  | '?' :: '?' :: _ => failure
  | '?' :: '.' :: _ =>
    match (cursor.advance 2).skipBlanks.rest with
    | c :: _ => if c.isDigit then let _ ← taken 1 else failure
    | [] => failure
  | '?' :: _ => let _ ← taken 1
  | _ => failure

section

variable (limit : Nat) (expression : Recogniser Phrase)

def listLiteral : Recogniser Phrase := named do
  let start := (← get).place
  let _ ← word ['[']
  let items ← separated limit expression
  let _ ← optional (word [','])
  let close ← word [']']
  return .list items ⟨start, close.stop⟩

def property : Recogniser (PhraseKey × Phrase) := named do
  let key ← (return .plain (← propertyName).1) <|> (do
    let (raw, span) ← quoted
    return .quoted raw span)
  let _ ← word [':']
  return (key, ← expression)

def recordLiteral : Recogniser Phrase := named do
  let start := (← get).place
  let _ ← word ['\x7b']
  let fields ← separated limit (property expression)
  let _ ← optional (word [','])
  let close ← word ['\x7d']
  return .record fields ⟨start, close.stop⟩

def primary : Recogniser Phrase := firstOf [
  named do
    let (digits, span) ← scanned Lexeme.numberLength?
    return .number digits span,
  do
    let (raw, span) ← quoted
    return .string raw span,
  named do return .bool true (← keyword "true"),
  named do return .bool false (← keyword "false"),
  named do return .null (← keyword "null"),
  named do return .null (← keyword "undefined"),
  listLiteral limit expression,
  recordLiteral limit expression,
  do
    let (text, span) ← identifier
    return .name text span,
  do
    let _ ← word ['(']
    let inner ← expression
    let _ ← word [')']
    return inner]

def link : Recogniser PhraseLink := firstOf [
  named do
    let start := (← get).place
    let _ ← word ['?', '.', '[']
    let key ← expression
    let close ← word [']']
    return .index key true ⟨start, close.stop⟩,
  named do
    let start := (← get).place
    let _ ← word ['?', '.']
    let (property, span) ← propertyName
    return .member property true ⟨start, span.stop⟩,
  named do
    let start := (← get).place
    let _ ← word ['.']
    let (property, span) ← propertyName <|> indexDigits
    return .member property false ⟨start, span.stop⟩,
  named do
    let start := (← get).place
    let _ ← word ['[']
    let key ← expression
    let close ← word [']']
    return .index key false ⟨start, close.stop⟩,
  named do
    let start := (← get).place
    let _ ← word ['(']
    let args ← separated limit expression
    let close ← word [')']
    return .call args ⟨start, close.stop⟩]

/-- An operand with everything that is linked to it. -/
def linked : Recogniser Phrase := named do
  let base ← primary limit expression
  match ← many limit (link limit expression) with
  | [] => return base
  | links => return .linked base links

def signed : Recogniser Phrase := named do
  match ← many limit unaryOperator with
  | [] => linked limit expression
  | ops => return .signed ops (← linked limit expression)

/-- Operands of one level and the levels below it. -/
def chain : List (List (String × InfixOp)) → Recogniser Phrase
  | [] => signed limit expression
  | level :: tighter => named do
    let first ← chain tighter
    let rest ← many limit do
      let op ← firstOf (level.map fun (symbol, op) => operator symbol op)
      return (op, ← chain tighter)
    match rest with
    | [] => return first
    | rest => return .chain first rest

/-- An expression, given the rule for the expressions inside it. -/
def conditional : Recogniser Phrase := named do
  let start := (← get).place
  let test ← chain limit expression levels
  let branches ← optional do
    questionMark
    let consequent ← expression
    let _ ← word [':']
    return (consequent, ← expression)
  match branches with
  | none => return test
  | some (consequent, alternate) =>
    return .choice test consequent alternate ⟨start, (← get).place.offset⟩

end

/-- An expression inside which expressions nest fewer than `allowance` levels deep. -/
def expression (limit : Nat) : Nat → Recogniser Phrase
  | 0 => failure
  | allowance + 1 => conditional limit (expression limit allowance)

/-- Recognises a whole text without blanks at its start; otherwise gives the furthest place of
failure. -/
def recognise (allowance : Nat) (cs : List Char) : Except Place Phrase :=
  let whole : Recogniser Phrase := do
    let phrase ← expression (cs.length + 1) allowance
    named do if (← get).rest.isEmpty then return phrase else failure
  match whole (.ofText cs) .origin with
  | (some (phrase, _), _) => .ok phrase
  | (none, furthest) => .error furthest

end Grammar

end StateScript
