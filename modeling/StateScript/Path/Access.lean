import StateScript.Path.Reader

/-!
Reading, writing and deleting at a path. A write creates missing containers on its way: an array
where the next segment is an index and an object elsewhere.
-/

namespace StateScript

/-- Why a write at a path fails. -/
inductive WriteFault where
  | denied (name : String)
  | wildcard
  | nonNumericKey
  | tooFar (position : Nat)
  | notContainer (typeName : String)
  deriving DecidableEq, Repr

/-- The error of a failed write at a path with the given text. -/
def WriteFault.error (path : String) : WriteFault → Error
  | denied name =>
    (Error.expression .expressionUnsafeAccess s!"Access to '{name}' is not allowed").withMetadata
      "path" (.string path)
  | wildcard => Path.invalid path "wildcards cannot be written"
  | nonNumericKey => Path.invalid path "non-numeric key on array"
  | tooFar i => Path.invalid path s!"index {i} is too far past the end of the array"
  | notContainer typeName => Path.invalid path s!"cannot set a property on {typeName}"

/-- How many items a single write may append to an array. -/
def maxArrayGrowth : Nat := 10000

namespace Json

/-- The value one segment below another value. -/
def child? (value : Json) (segment : Segment) : Option Json :=
  match value, segment with
  | .object ms, .key k => Members.find? k ms
  | .object ms, .index i => Members.find? (toString i) ms
  | .array items, .index i => items[i]?
  | .array items, .key k => (position? k).bind fun i => items[i]?
  | _, _ => none

/-- The value at a path. -/
def get? : Json → Path → Option Json
  | value, [] => some value
  | value, segment :: rest => (value.child? segment).bind fun child => get? child rest

/-- Puts a value in place of an existing child. -/
def setChild (value : Json) (segment : Segment) (child : Json) : Json :=
  match value, segment with
  | .object ms, s => .object (Members.insert s.text child ms)
  | .array items, .index i => .array (items.set i child)
  | .array items, .key k => .array (items.set ((position? k).getD items.length) child)
  | value, _ => value

/-- Puts a value in place of the existing value at a path. -/
def replace? : Json → Path → Json → Option Json
  | _, [], new => some new
  | value, segment :: rest, new => do
    let child ← value.child? segment
    let child ← replace? child rest new
    return value.setChild segment child

/-- The empty container that a segment can be written into. -/
def emptyFor : Segment → Json
  | .index _ => .array []
  | _ => .object []

/-- A null becomes the container that the next segment asks for. -/
def prepared (value : Json) : Path → Json
  | next :: _ => if value.isNull then emptyFor next else value
  | [] => value

/-- The array position that a segment addresses for writing. -/
def slot (items : List Json) : Segment → Except WriteFault Nat
  | .index i => bounded i
  | .key k => match position? k with
    | some i => bounded i
    | none => .error .nonNumericKey
  | .wildcard => .error .wildcard
where
  bounded (i : Nat) : Except WriteFault Nat :=
    if items.length ≤ i ∧ maxArrayGrowth ≤ i - items.length then .error (.tooFar i) else .ok i

/-- The items with nulls appended until position `i` exists. -/
def padded (items : List Json) (i : Nat) : List Json :=
  items ++ List.replicate (i + 1 - items.length) .null

/-- Writes below a container. The first component is what is left there, also after a fault. -/
def writeBelow : Json → Path → Json → Json × Option WriteFault
  | _, [], new => (new, none)
  | .object ms, segment :: rest, new =>
    let old := (Members.find? segment.text ms).getD .null
    let (child, fault) := writeBelow (old.prepared rest) rest new
    (.object (Members.insert segment.text child ms), fault)
  | .array items, segment :: rest, new =>
    match slot items segment with
    | .error fault => (.array items, some fault)
    | .ok i =>
      let items := padded items i
      let (child, fault) := writeBelow ((items.getD i .null).prepared rest) rest new
      (.array (items.set i child), fault)
  | value, _ :: _, _ => (value, some (.notContainer value.typeName))

/-- The first segment of a path that must not be written. -/
def forbidden? : Path → Option WriteFault
  | [] => none
  | .key k :: rest => if isDenied k then some (.denied k) else forbidden? rest
  | .wildcard :: _ => some .wildcard
  | .index _ :: rest => forbidden? rest

/-- What a write begins with. A null at the root becomes a container: the one that a single segment
asks for, and an object if more segments follow. -/
def started : Json → Path → Json
  | .null, [segment] => emptyFor segment
  | .null, _ :: _ => .object []
  | root, _ => root

/-- Writes a value at a path. -/
def write (root : Json) (path : Path) (new : Json) : Json × Option WriteFault :=
  match forbidden? path with
  | some fault => (root, some fault)
  | none => writeBelow (root.started path) path new

/-- Takes the child at a segment out of a container. The first component is what is left of it. -/
def takeChild : Json → Segment → Json × Option Json
  | .object ms, segment => (.object (Members.erase segment.text ms), Members.find? segment.text ms)
  | .array items, .index i => (.array (items.eraseIdx i), items[i]?)
  | value, _ => (value, none)

/-- Removes the value at a path. The first component is what is left of the root. -/
def delete : Json → Path → Json × Option Json
  | value, [] => (value, none)
  | value, [segment] => value.takeChild segment
  | value, segment :: next :: rest =>
    match value.child? segment with
    | none => (value, none)
    | some child =>
      let (child, old) := delete child (next :: rest)
      (value.setChild segment child, old)

end Json

end StateScript
