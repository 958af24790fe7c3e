import StateScript.Action.Basic
import StateScript.Builtin.Number
import StateScript.World.Access

/-!
The actions that write. Texts among the parameters are interpolated in the scope that acts; the
array actions replace the array at a path by an edited one, or fail and leave it.
-/

namespace StateScript

/-- A change of an array. -/
inductive ArrayEdit where
  | append (values : List Json)
  | prepend (values : List Json)
  | dropLast
  | dropFirst
  | splice (start : Float) (deleteCount : Option Float) (values : List Json)

namespace ArrayEdit

/-- How many items behind a position a splice takes out: all of them without a count. -/
def removed (deleteCount : Option Float) (available : Nat) : Nat :=
  match deleteCount with
  | none => available
  | some n => Binary64.toNatClamped available n

def apply : ArrayEdit → List Json → List Json
  | append values, xs => xs ++ values
  | prepend values, xs => values ++ xs
  | dropLast, xs => xs.dropLast
  | dropFirst, xs => xs.drop 1
  | splice start deleteCount values, xs =>
    let first := Builtin.clampedPosition start xs.length
    xs.take first ++ values ++ xs.drop (first + removed deleteCount (xs.length - first))

end ArrayEdit

namespace World

/-- The value of a parameter: a text is interpolated, anything else is taken as written. -/
def evaluateParam (id : ScopeId) : Json → WorldM Json
  | .string template => interpolate id template
  | v => return v

def evaluateMembers (id : ScopeId) : Members → WorldM Members
  | [] => return []
  | (key, v) :: rest => do
    let v ← evaluateParam id v
    return (key, v) :: (← evaluateMembers id rest)

/-- The parameters of a call. The texts directly inside an object are interpolated too. -/
def evaluateParams (id : ScopeId) : Option Json → WorldM Json
  | none => return .null
  | some (.object ms) => return .object (← evaluateMembers id ms)
  | some v => evaluateParam id v

/-- The items of a parameter that stands for an array; null stands for the empty one. -/
def evaluateItems (id : ScopeId) (v : Json) : WorldM (List Json) := do
  match ← resolveValue id v with
  | .array items => return items
  | .null => return []
  | other =>
    throw ((Error.action .actionInvalidParam
      s!"'items' must be an array, got {other.typeName}").withMetadata "param" (.string "items"))

def evaluateInsert (id : ScopeId) : Insert → WorldM (List Json)
  | .value v => return [← resolveValue id v]
  | .items v => evaluateItems id v

/-- The edited array, if there is an array. -/
def editedArray (path : String) (edit : ArrayEdit) :
    Option Json → Except Error (Option Json × Unit)
  | some (.array items) => .ok (some (.array (edit.apply items)), ())
  | other =>
    let found := other.elim "nothing" Json.typeName
    .error ((Error.action .actionInvalidParam
      s!"Path '{path}' is not an array (found {found})").withMetadata "path" (.string path))

def editArray (id : ScopeId) (path : String) (edit : ArrayEdit) : WorldM Unit :=
  updatePath id path (editedArray path edit)

/-- The value of a parameter that stands for a number. -/
def evaluateNumber (id : ScopeId) (v : Json) : WorldM Float := do
  return (← evaluateParam id v).toNumber

def evaluateSplice (id : ScopeId) (start : Json) (deleteCount items : Option Json) :
    WorldM ArrayEdit := do
  let start ← evaluateNumber id start
  let deleteCount ← deleteCount.mapM (evaluateNumber id)
  let values ← match items with
    | some items => evaluateItems id items
    | none => pure []
  return .splice start deleteCount values

/-- The value that decides a branch or gives a loop its items: a text is an expression, with or
without markers. -/
def evaluateSource (id : ScopeId) : Json → WorldM Json
  | .string source => evaluate id source
  | v => return v

end World

end StateScript
