import StateScript.Binary64

/-!
JSON values. Objects keep their members in increasing key order with one value for each key, and
integers are kept apart from doubles, so that equality of values can tell `1` from `1.0`.
-/

namespace StateScript

/-- A JSON number: an integer that fits 64 bits, or a finite double. -/
inductive Number where
  | int (value : Int)
  | float (value : Float)
  deriving DecidableEq

def Number.toFloat : Number → Float
  | .int i => Binary64.ofInt i
  | .float x => x

/-- Integers equal integers and doubles equal doubles; the two zeros are equal. -/
def Number.same : Number → Number → Bool
  | .int a, .int b => a == b
  | .float a, .float b => a == b
  | _, _ => false

inductive Json where
  | null
  | bool (value : Bool)
  | number (value : Number)
  | string (value : String)
  | array (items : List Json)
  | object (members : List (String × Json))

/-- Members of an object, or bindings of a scope, in increasing key order. -/
abbrev Members := List (String × Json)

instance : Inhabited Json := ⟨.null⟩

namespace Members

/-- The value stored under a key. -/
def find? (key : String) : Members → Option Json
  | [] => none
  | (k, v) :: rest => if k = key then some v else find? key rest

def contains (key : String) (ms : Members) : Bool :=
  (ms.find? key).isSome

/-- Puts a value in place of the one under a key. -/
def replace (key : String) (value : Json) : Members → Members
  | [] => []
  | (k, v) :: rest => if k = key then (key, value) :: rest else (k, v) :: replace key value rest

/-- Puts a value under a key that is not there yet, in order. -/
def insertNew (key : String) (value : Json) : Members → Members
  | [] => [(key, value)]
  | (k, v) :: rest =>
    if key < k then (key, value) :: (k, v) :: rest else (k, v) :: insertNew key value rest

/-- Stores a value under a key: in place of an earlier value, or in order. -/
def insert (key : String) (value : Json) (ms : Members) : Members :=
  if ms.contains key then ms.replace key value else ms.insertNew key value

def erase (key : String) : Members → Members
  | [] => []
  | (k, v) :: rest => if k = key then rest else (k, v) :: erase key rest

/-- Takes out every member. -/
def clear (_ : Members) : Members := []

def keys (ms : Members) : List String := ms.map Prod.fst

/-- The members of a list of pairs; of two pairs with one key the later counts. -/
def ofList (pairs : List (String × Json)) : Members :=
  pairs.foldl (fun ms (k, v) => ms.insert k v) []

end Members

namespace Json

def nat (n : Nat) : Json := .number (.int n)

def int (i : Int) : Json := .number (.int i)

def isNull : Json → Bool
  | .null => true
  | _ => false

def isArray : Json → Bool
  | .array _ => true
  | _ => false

/-- The name of a value's type, as messages spell it. -/
def typeName : Json → String
  | .null => "null"
  | .bool _ => "boolean"
  | .number _ => "number"
  | .string _ => "string"
  | .array _ => "array"
  | .object _ => "object"

mutual

/-- Structural equality, with the equality of `Number.same` at the leaves. -/
def same : Json → Json → Bool
  | .null, .null => true
  | .bool a, .bool b => a == b
  | .number a, .number b => a.same b
  | .string a, .string b => a == b
  | .array xs, .array ys => sameItems xs ys
  | .object ms, .object ns => sameMembers ms ns
  | _, _ => false
  termination_by structural x => x

def sameItems : List Json → List Json → Bool
  | [], [] => true
  | x :: xs, y :: ys => same x y && sameItems xs ys
  | _, _ => false
  termination_by structural x => x

def sameMembers : List (String × Json) → List (String × Json) → Bool
  | [], [] => true
  | (j, x) :: ms, (k, y) :: ns => j == k && same x y && sameMembers ms ns
  | _, _ => false
  termination_by structural x => x

end

/-- The member of an object, absent for other values. -/
def member? (key : String) : Json → Option Json
  | .object ms => Members.find? key ms
  | _ => none

end Json

end StateScript
