import StateScript.Proofs.Courses

/-!
Runs that know which actions are under way. A stacked run does the same as the plain one, but names no action in
its errors; instead it keeps the actions at hand that are under way, and says of every failure during which of
them it has arisen.
-/

namespace StateScript

/-- A failure with the actions that are under way, the innermost one first. It is an error that is raised, beside
the failures that a method has been told of before it raises it, or made up of the failures of a batch. -/
inductive Failure where
  | raised (e : Error) (told : List Failure) (underWay : List Json)
  | gathered (failed : List (Nat × Json × Failure)) (total : Nat) (underWay : List Json)

namespace Failure

/-- Names the innermost of the actions under way. -/
def blaming (underWay : List Json) (e : Error) : Error :=
  e.withContext { e.context with action := underWay.head? }

mutual

/-- The error of a failure: it names the innermost action under way, unless a method hands it on with another one
named already. -/
def error : Failure → Error
  | raised e _ underWay => if e.context.action.isSome then e else blaming underWay e
  | gathered failed total underWay => blaming underWay (.ofFailures (errors failed) total)
  termination_by structural failure => failure

def errors : List (Nat × Json × Failure) → List (Nat × Json × Error)
  | [] => []
  | (index, raw, failure) :: rest => (index, raw, failure.error) :: errors rest
  termination_by structural failed => failed

end

/-- A timer goes off around all actions, so none of them is at fault. -/
def late (limits : ExecuteLimits) : Failure := .raised (Execute.timeoutError limits) [] []

end Failure

namespace Execute

/-- Why a stacked run ends early. -/
inductive Stop where
  | failed (failure : Failure)
  | dropped

/-- A stacked run reads which actions are under way. -/
abbrev StackM := ReaderT (List Json) (ExceptT Stop (StateM Machine))

namespace Stacked

/-- How a method has further actions run, below the actions that are under way. -/
abbrev Reenter := ScopeId → List Json → ExecuteLimits → StackM Unit

section

variable {α : Type}

/-- Takes an operation of the plain run as it is. An error of it arises during the innermost action under way. -/
def during (operation : ExecuteM α) : StackM α := .mk fun underWay => .mk fun m =>
  match operation.run m with
  | (.ok a, m) => (.ok a, m)
  | (.error (.error e), m) => (.error (.failed (.raised e [] underWay)), m)
  | (.error .dropped, m) => (.error .dropped, m)

def attempt (run : StackM α) : StackM (Except Failure α) := .mk fun underWay => .mk fun m =>
  match (run.run underWay).run m with
  | (.ok a, m) => (.ok (.ok a), m)
  | (.error (.failed failure), m) => (.ok (.error failure), m)
  | (.error .dropped, m) => (.error .dropped, m)

def fail (failure : Failure) : StackM α := throw (.failed failure)

end

section

variable (reenter : Reenter) (budget : Budget)

/-- Answers one request of a method, and keeps the failure of the actions that are run for it. -/
def answer (id : ScopeId) (request : Request) : StateT (List Failure) StackM (Except Error Json) := .mk fun told =>
  match request with
  | .execute actions limits => do
    match ← attempt (reenter id actions limits *> return Json.null) with
    | .ok value => return (.ok value, told)
    | .error failure => return (.error failure.error, failure :: told)
  | request => do
    let response ← during (Execute.attempt (Execute.answer Followed.unentered budget id request))
    return (response, told)

/-- A method that fails does so with all failures that it has been told of. -/
def concluded : Except MethodFailure Json × List Failure → Except (MethodFailure × List Failure) Json
  | (.ok value, _) => .ok value
  | (.error failure, told) => .error (failure, told)

def caller : Caller StackM (MethodFailure × List Failure) where
  once := during
  raise e := during (Execute.fail e)
  read f := during do return f (← get).world
  interact id interaction := do return concluded (← (follow (answer reenter budget id) interaction).run [])
  failed name failure := do fail (.raised (failure.1.toError name) failure.2 (← read))

/-- Each step is under way from when it is counted. -/
def runner : Runner StackM Failure where
  toMode := (caller reenter budget).toMode
  error := Failure.error
  fail := fail
  attempt := attempt
  step raw run := withReader (raw :: ·) do
    during (tick budget)
    run
  perform := (caller reenter budget).perform
  makeLoop id var indexVar item index := during (makeLoop id var indexVar item index)
  gather failed total := do if failed.isEmpty then return else fail (.gathered failed total (← read))

end

def timed (limits : ExecuteLimits) (outer : Option Nat) (run : Budget → StackM Unit) : StackM Unit :=
  .mk fun underWay => .mk fun m =>
    let own := m.world.clock + limits.timeoutMs
    let deadline := outer.elim own (min own)
    let (outcome, after) := ((run ⟨m.world.clock, limits, some deadline⟩).run underWay).run { m with steps := 0 }
    let restored := { after with steps := m.steps }
    match outcome with
    | .error .dropped =>
      if deadline = own then (.error (.failed (.late limits)), restored)
      else (.error .dropped, restored)
    | outcome => (outcome, restored)

def runWithin : Nat → Option Nat → Reenter :=
  Runner.nested (fun limits => fail (.late limits)) timed runner

/-- Executes actions in a scope, and says how they fail. -/
def execute (id : ScopeId) (actions : List Json) (limits : ExecuteLimits) (w : World) :
    Except Failure Unit × World :=
  match ((runWithin maxRunDepth none id actions limits).run []).run ⟨w, 0⟩ with
  | (.ok (), m) => (.ok (), m.world)
  | (.error (.failed failure), m) => (.error failure, m.world)
  | (.error .dropped, m) => (.error (.late limits), m.world)

end Stacked

end Execute

end StateScript
