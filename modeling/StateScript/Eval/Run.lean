import StateScript.Eval.Basic
import StateScript.Expr.StaticPath

/-!
Evaluation of expressions. Every node that is visited costs a step. A static path is read at once,
so the nodes inside it cost nothing.
-/

namespace StateScript

/-- Evaluation counts steps, also when it fails. -/
abbrev EvalM := ExceptT EvalFault (StateM Nat)

namespace Eval

/-- Accounts for one more step. A time limit of zero is over at once; otherwise evaluation takes no
time. -/
def tick (options : EvalOptions) : EvalM Unit := do
  modify (· + 1)
  if options.maxSteps < (← get) then throw (.steps options.maxSteps)
  if options.timeoutMs = 0 then throw (.timeout options.timeoutMs)

def lift {α : Type} (result : Except EvalFault α) : EvalM α := ExceptT.mk (return result)

def unary (op : UnaryOp) (v : Json) : Json :=
  match op with
  | .not => .bool !v.truthy
  | .neg => .ofFloat (-v.toNumber)
  | .plus => .ofFloat v.toNumber
  | .typeof => .string v.typeofName

def binary (op : BinaryOp) (a b : Json) : Json :=
  match op with
  | .add => a.add b
  | .sub => .ofFloat (a.toNumber - b.toNumber)
  | .mul => .ofFloat (a.toNumber * b.toNumber)
  | .div => .ofFloat (a.toNumber / b.toNumber)
  | .mod => .ofFloat (Binary64.remainder a.toNumber b.toNumber)
  | .eq => .bool (a.looseEquals b)
  | .ne => .bool !(a.looseEquals b)
  | .strictEq => .bool (a.strictEquals b)
  | .strictNe => .bool !(a.strictEquals b)
  | .lt => .bool (a.order? b == some .lt)
  | .lte => .bool (a.order? b == some .lt || a.order? b == some .eq)
  | .gt => .bool (a.order? b == some .gt)
  | .gte => .bool (a.order? b == some .gt || a.order? b == some .eq)

/-- Whether the left operand alone decides a logical operation. -/
def decides (op : LogicalOp) (left : Json) : Bool :=
  match op with
  | .and => !left.truthy
  | .or => left.truthy
  | .nullish => !left.isNull

/-- Reads a static path behind the gate. -/
def readStatic (options : EvalOptions) (resolver : Resolver) (root : String) (path : Path) :
    Except EvalFault Json := do
  checkRoot options root
  checkPath path
  return readPath resolver root path

/-- The namespace that a callee names, if it is a member of one. -/
def namespaceOf? : Expr → Option String
  | .name owner _ => if isNamespace owner then some owner else none
  | _ => none

/-- How an evaluation takes the nodes of a tree. Each operation is given the node that it belongs to. -/
structure Evaluator (μ : Type → Type) where
  /-- Accounts for a node that is visited. -/
  visit (node : Expr) : μ Unit
  /-- The path along which a node is read at once, if it has one. -/
  static? (node : Expr) : Option (String × Path)
  /-- Reads a name, and along a path below it, behind the gates. -/
  readStatic (node : Expr) (root : String) (path : Path) : μ Json
  /-- Reads a property below a value, behind the gate. -/
  member (node : Expr) (target : Json) (property : String) : μ Json
  /-- Reads below a value with a computed key, behind the gate. -/
  index (node : Expr) (target key : Json) : μ Json
  /-- The gate for the name of a property in an object literal. -/
  field (node : Expr) (name : String) : μ Unit
  /-- Takes what a builtin gives, or the refusal of what is none. -/
  called (node : Expr) (result : Except CallFault Json) : μ Json

namespace Evaluator

variable {μ : Type → Type} [Monad μ] (evaluator : Evaluator μ)

mutual

/-- The value of an expression. -/
def evaluate (e : Expr) : μ Json := do
  evaluator.visit e
  match e with
  | .bool b _ => return .bool b
  | .number x _ => return .ofFloat x
  | .string s _ => return .string s
  | .null _ => return .null
  | .list elements _ => return .array (← evaluateList elements)
  | .record properties _ => return .object (← evaluateProperties e [] properties)
  | .name n _ => evaluator.readStatic e n []
  | .member object property _ _ =>
    match evaluator.static? e with
    | some (root, path) => evaluator.readStatic e root path
    | none =>
      let target ← evaluate object
      evaluator.member e target property
  | .index object key _ _ =>
    match evaluator.static? e with
    | some (root, path) => evaluator.readStatic e root path
    | none =>
      let target ← evaluate object
      let key ← evaluate key
      evaluator.index e target key
  | .call callee args _ =>
    match callee with
    | .name f _ =>
      match GlobalFunction.ofName? f with
      | some g => return Builtin.callGlobal g (← evaluateList args)
      | none => evaluator.called e (.error (.notWhitelisted f))
    | .member object property o s =>
      match namespaceOf? object with
      | some owner =>
        let args ← evaluateList args
        evaluator.called e (Builtin.namespaced owner property args)
      | none =>
        if isValueMethod property then
          let receiver ← evaluate object
          if receiver.isNull && (Expr.member object property o s).chainIsOptional then return .null
          let args ← evaluateList args
          evaluator.called e (Builtin.method receiver property args)
        else evaluator.called e (.error (.notWhitelisted s!".{property}"))
    | other => evaluator.called e (.error (.notWhitelisted s!"<{other.kind}>"))
  | .unary op operand _ => return unary op (← evaluate operand)
  | .binary op left right _ =>
    let left ← evaluate left
    let right ← evaluate right
    return binary op left right
  | .logical op left right _ =>
    let left ← evaluate left
    if decides op left then return left else evaluate right
  | .ternary condition consequent alternate _ =>
    let condition ← evaluate condition
    if condition.truthy then evaluate consequent else evaluate alternate
  termination_by structural e

def evaluateList (es : List Expr) : μ (List Json) := do
  match es with
  | [] => return []
  | e :: rest =>
    let value ← evaluate e
    return value :: (← evaluateList rest)
  termination_by structural es

/-- Adds the properties of an object literal to members found before. -/
def evaluateProperties (node : Expr) (members : Members) (ps : List (String × Expr)) : μ Members := do
  match ps with
  | [] => return members
  | (key, e) :: rest =>
    evaluator.field node key
    let value ← evaluate e
    evaluateProperties node (members.insert key value) rest
  termination_by structural ps

end

end Evaluator

/-- Every node that is visited costs a step, and a static path is read at once. -/
def stepwise (options : EvalOptions) (resolver : Resolver) : Evaluator EvalM where
  visit _ := tick options
  static? := Expr.staticPath?
  readStatic _ root path := lift (readStatic options resolver root path)
  member _ target property := do
    lift (checkProperty property)
    return project target [.key property]
  index _ target key := do
    let segment ← lift (propertyKey key)
    return project target [segment]
  field _ name := lift (checkProperty name)
  called _ result := lift (result.mapError .call)

/-- The value of an expression. -/
def evaluate (options : EvalOptions) (resolver : Resolver) (e : Expr) : EvalM Json :=
  (stepwise options resolver).evaluate e

/-- Evaluates with a fresh step count; gives the result and the steps taken. -/
def run (options : EvalOptions) (resolver : Resolver) (e : Expr) : Except EvalFault Json × Nat :=
  (evaluate options resolver e).run.run 0

/-- The value of an expression under a fresh budget. -/
def interpret (options : EvalOptions) (resolver : Resolver) (e : Expr) : Except Error Json :=
  (run options resolver e).1.mapError EvalFault.error

end Eval

end StateScript
