import StateScript.Error
import StateScript.Path.Basic
import StateScript.Text.Blank

/-!
Reading path text such as `user.items[0]['full name'].*`, one character at a time.
-/

namespace StateScript

/-- Why a text is not a path. -/
inductive PathFault where
  | empty
  | emptySegment
  | quotedKeyEnd
  | unterminated
  | emptyBrackets
  | trailingDot
  deriving DecidableEq, Repr

def PathFault.reason : PathFault → String
  | empty => "path is empty"
  | emptySegment => "empty segment"
  | quotedKeyEnd => "expected ']' after quoted key"
  | unterminated => "unterminated '['"
  | emptyBrackets => "empty brackets"
  | trailingDot => "trailing '.'"

namespace Path

/-- The error for a path that cannot be used. -/
def invalid (path reason : String) : Error :=
  (Error.action .actionInvalidParam s!"Invalid path '{path}': {reason}").withMetadata "path"
    (.string path)

/-- Where the reader stands. Characters read so far are kept last one first. -/
inductive Mode where
  | plain (current : List Char) (afterBracket : Bool)
  | opened
  | bracket (inner : List Char)
  | quoted (quote : Char) (inner : List Char)
  | closing (inner : List Char)
  deriving DecidableEq, Repr

/-- The segment that dotted characters end, if there are any. -/
def dotted (current : List Char) : List Segment :=
  if current.isEmpty then [] else [.ofDotted current.reverse]

/-- The segment inside brackets without quotes. -/
def bracketed (inner : List Char) : Except PathFault (List Segment) :=
  let cs := Text.trim inner.reverse
  if cs.isEmpty then .error .emptyBrackets else .ok [.ofDotted cs]

/-- The mode after one more character and the segments that it completes. -/
def step : Mode → Char → Except PathFault (Mode × List Segment)
  | .plain current afterBracket, c =>
    if c = '.' then
      if current.isEmpty && !afterBracket then .error .emptySegment
      else .ok (.plain [] false, dotted current)
    else if c = '[' then .ok (.opened, dotted current)
    else .ok (.plain (c :: current) false, [])
  | .opened, c =>
    if c = '\'' ∨ c = '"' then .ok (.quoted c [], [])
    else if c = ']' then .error .emptyBrackets
    else .ok (.bracket [c], [])
  | .bracket inner, c =>
    if c = ']' then (bracketed inner).map fun segments => (.plain [] true, segments)
    else .ok (.bracket (c :: inner), [])
  | .quoted quote inner, c =>
    if c = quote then .ok (.closing inner, []) else .ok (.quoted quote (c :: inner), [])
  | .closing inner, c =>
    if c = ']' then .ok (.plain [] true, [.key (String.ofList inner.reverse)])
    else .error .quotedKeyEnd

/-- The segments that the end of the text completes. -/
def finish : Mode → Except PathFault (List Segment)
  | .plain current afterBracket =>
    if current.isEmpty && !afterBracket then .error .trailingDot else .ok (dotted current)
  | .closing _ => .error .quotedKeyEnd
  | _ => .error .unterminated

/-- The segments of the rest of a text. -/
def readFrom : Mode → List Char → Except PathFault (List Segment)
  | mode, [] => finish mode
  | mode, c :: rest => do
    let (mode, completed) ← step mode c
    return completed ++ (← readFrom mode rest)

/-- The segments of a path text, or what is wrong with it. -/
def read (text : String) : Except PathFault Path :=
  let cs := Text.trim text.toList
  if cs.isEmpty then .error .empty else readFrom (.plain [] false) cs

/-- Parses a path text. -/
def parse (text : String) : Except Error Path :=
  (read text).mapError fun fault => invalid text fault.reason

end Path

end StateScript
