import StateScript.Text.Blank
import StateScript.Text.Search

/-!
Templates: texts with expressions between double braces. An opening pair without a closing pair
behind it is plain text.
-/

namespace StateScript

/-- A piece of a template: plain text, or the trimmed source of an expression. -/
inductive TemplatePiece where
  | text (cs : List Char)
  | expression (source : List Char)
  deriving DecidableEq, Repr

namespace Template

def opening : List Char := ['\x7b', '\x7b']

def closing : List Char := ['\x7d', '\x7d']

def textPiece (cs : List Char) : List TemplatePiece := if cs.isEmpty then [] else [.text cs]

/-- The pieces of a text. Each step of the fuel passes one expression. -/
def piecesFrom : Nat → List Char → List TemplatePiece
  | 0, cs => textPiece cs
  | fuel + 1, cs =>
    match Text.breakOn opening cs with
    | none => textPiece cs
    | some (before, behind) =>
      match Text.breakOn closing behind with
      | none => textPiece cs
      | some (inner, rest) =>
        textPiece before ++ .expression (Text.trim inner) :: piecesFrom fuel rest

def pieces (cs : List Char) : List TemplatePiece := piecesFrom cs.length cs

/-- The expressions of a template in order. -/
def expressions (cs : List Char) : List String :=
  (pieces cs).filterMap fun
    | .expression source => some (String.ofList source)
    | .text _ => none

def hasMarkers (cs : List Char) : Bool := !(expressions cs).isEmpty

/-- The expression of a template that is exactly one pair of markers, but for blanks around it. -/
def single? (cs : List Char) : Option (List Char) :=
  match pieces (Text.trim cs) with
  | [.expression source] => some source
  | _ => none

/-- The expression inside the markers, or the trimmed text if there are none around it. -/
def stripMarkers (source : String) : String :=
  String.ofList ((single? source.toList).getD (Text.trim source.toList))

end Template

end StateScript
