/-!
The functions and methods that expressions may call: bare functions, functions of a namespace, and
methods of values. Nothing else can be called.
-/

namespace StateScript

/-- Names of the host environment, reachable only where options allow it. -/
def hostGlobals : List String := ["window", "document", "global", "globalThis", "self"]

def isHostGlobal (name : String) : Bool := hostGlobals.contains name

inductive GlobalFunction where
  | string
  | number
  | boolean
  | parseInt
  | parseFloat
  | isNaN
  | isFinite
  deriving DecidableEq, Repr

namespace GlobalFunction

def all : List GlobalFunction :=
  [string, number, boolean, parseInt, parseFloat, isNaN, isFinite]

def name : GlobalFunction → String
  | string => "String"
  | number => "Number"
  | boolean => "Boolean"
  | parseInt => "parseInt"
  | parseFloat => "parseFloat"
  | isNaN => "isNaN"
  | isFinite => "isFinite"

def ofName? (s : String) : Option GlobalFunction := all.find? fun f => f.name == s

end GlobalFunction

inductive Namespace where
  | math
  | json
  | object
  | array
  deriving DecidableEq, Repr

namespace Namespace

def all : List Namespace := [math, json, object, array]

def name : Namespace → String
  | math => "Math"
  | json => "JSON"
  | object => "Object"
  | array => "Array"

def ofName? (s : String) : Option Namespace := all.find? fun n => n.name == s

end Namespace

inductive NamespaceFunction where
  | abs
  | ceil
  | floor
  | round
  | max
  | min
  | pow
  | sqrt
  | sign
  | trunc
  | stringify
  | parse
  | keys
  | values
  | isArray
  deriving DecidableEq, Repr

namespace NamespaceFunction

def name : NamespaceFunction → String
  | abs => "abs"
  | ceil => "ceil"
  | floor => "floor"
  | round => "round"
  | max => "max"
  | min => "min"
  | pow => "pow"
  | sqrt => "sqrt"
  | sign => "sign"
  | trunc => "trunc"
  | stringify => "stringify"
  | parse => "parse"
  | keys => "keys"
  | values => "values"
  | isArray => "isArray"

/-- The functions of a namespace. -/
def members : Namespace → List NamespaceFunction
  | .math => [abs, ceil, floor, round, max, min, pow, sqrt, sign, trunc]
  | .json => [stringify, parse]
  | .object => [keys, values]
  | .array => [isArray]

/-- The function of a namespace with a given name. -/
def find? (owner : Namespace) (s : String) : Option NamespaceFunction :=
  (members owner).find? fun f => f.name == s

end NamespaceFunction

inductive ValueMethod where
  | toUpperCase
  | toLowerCase
  | trim
  | includes
  | startsWith
  | endsWith
  | indexOf
  | slice
  | split
  | join
  | toFixed
  | toString
  | concat
  | replace
  deriving DecidableEq, Repr

namespace ValueMethod

def all : List ValueMethod :=
  [toUpperCase, toLowerCase, trim, includes, startsWith, endsWith, indexOf, slice, split, join,
    toFixed, toString, concat, replace]

def name : ValueMethod → String
  | toUpperCase => "toUpperCase"
  | toLowerCase => "toLowerCase"
  | trim => "trim"
  | includes => "includes"
  | startsWith => "startsWith"
  | endsWith => "endsWith"
  | indexOf => "indexOf"
  | slice => "slice"
  | split => "split"
  | join => "join"
  | toFixed => "toFixed"
  | toString => "toString"
  | concat => "concat"
  | replace => "replace"

def ofName? (s : String) : Option ValueMethod := all.find? fun m => m.name == s

end ValueMethod

def isGlobalFunction (name : String) : Bool := (GlobalFunction.ofName? name).isSome

def isNamespace (name : String) : Bool := (Namespace.ofName? name).isSome

def isValueMethod (name : String) : Bool := (ValueMethod.ofName? name).isSome

/-- Whether a namespace of the first name has a function of the second name. -/
def isNamespaceFunction (owner name : String) : Bool :=
  match Namespace.ofName? owner with
  | some owner => (NamespaceFunction.find? owner name).isSome
  | none => false

end StateScript
