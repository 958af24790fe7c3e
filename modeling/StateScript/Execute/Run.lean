import StateScript.Action.Reader
import StateScript.Execute.Call

/-!
Running steps. Nested lists share the budget of the run they belong to; a method that runs actions
begins a run of its own.
-/

namespace StateScript.Execute

/-- The items of a loop source, each with its index: a position in an array, a key of an object. -/
def loopEntries : Json → Except Error (List (Json × Json))
  | .null => .ok []
  | .array items => .ok (items.mapIdx fun i item => (item, .nat i))
  | .object ms => .ok (ms.map fun (key, item) => (item, .string key))
  | v =>
    .error ((Error.action .actionInvalidParam
      s!"Loop source must be an array or object, got {v.typeName}").withMetadata
        "param" (.string "in"))

/-- Makes the scope of an iteration. -/
def makeLoop (id : ScopeId) (var indexVar : String) (item index : Json) : ExecuteM ScopeId := do
  let m ← get
  let (scope, world) := m.world.addLoop id var indexVar item index
  set { m with world }
  return scope

/-- The failures of a batch, as one error. -/
def batchOutcome (failed : List (Nat × Json × Error)) (total : Nat) : ExecuteM Unit :=
  if failed.isEmpty then return else fail (.ofFailures failed total)

/-- How a way to run actions goes about steps. Its failures are errors, with whatever it keeps beside them. -/
structure Runner (μ : Type → Type) (φ : Type) extends Mode μ where
  error (failure : φ) : Error
  /-- Fails as a run inside has failed. -/
  fail {α : Type} (failure : φ) : μ α
  /-- The outcome of a run as a value; a dropped run stays dropped. -/
  attempt (run : μ Unit) : μ (Except φ Unit)
  /-- Counts one more step and carries it out. Its errors name the action. -/
  step (raw : Json) (run : μ Unit) : μ Unit
  /-- Performs an action without action lists inside. -/
  perform (id : ScopeId) (raw : Json) (action : Action) : μ Unit
  /-- Makes the scope of an iteration. -/
  makeLoop (id : ScopeId) (var indexVar : String) (item index : Json) : μ ScopeId
  /-- Ends a batch with its failures, if there are any. -/
  gather (failed : List (Nat × Json × φ)) (total : Nat) : μ Unit

namespace Runner

variable {μ : Type → Type} [Monad μ] {φ : Type} (runner : Runner μ φ)

/-- Runs one iteration in a scope of its own and gives the scope back, unless the run is
dropped. -/
def iterate (id : ScopeId) (var indexVar : String) (item index : Json)
    (body : ScopeId → μ Unit) : μ Unit := do
  let scope ← runner.makeLoop id var indexVar item index
  let outcome ← runner.attempt (body scope)
  runner.once (modifyWorld (World.release scope []))
  match outcome with
  | .ok () => return
  | .error failure => runner.fail failure

/-- Runs the body of a loop for each item. -/
def each (id : ScopeId) (var indexVar : String) (body : ScopeId → μ Unit) :
    List (Json × Json) → μ Unit
  | [] => return
  | (item, index) :: rest => do
    runner.iterate id var indexVar item index body
    each id var indexVar body rest

/-- Runs a step of a batch and then the others, and puts its failure first among theirs. -/
def collect (index : Nat) (raw : Json) (run : μ Unit) (others : μ (List (Nat × Json × φ))) :
    μ (List (Nat × Json × φ)) := do
  match ← runner.attempt run with
  | .ok () => others
  | .error failure =>
    if isBudgetError (runner.error failure) then runner.fail failure
    else return (index, raw, failure) :: (← others)

mutual

/-- Runs one step in a scope: first it is counted, then it is carried out. -/
def runStep (id : ScopeId) : Step → μ Unit
  | .malformed raw fault => runner.step raw (runner.raise fault.error)
  | .single raw action => runner.step raw (runner.perform id raw action)
  | .branch raw cond yes no => runner.step raw do
    let cond ← runner.once (onWorld (World.evaluateSource id cond))
    if cond.truthy then runAll id yes else runAll id no
  | .loop raw var indexVar source body => runner.step raw do
    let source ← runner.once (onWorld (World.evaluateSource id source))
    match loopEntries source with
    | .ok entries => runner.each id var indexVar (fun scope => runAll scope body) entries
    | .error e => runner.raise e
  | .batch raw steps => runner.step raw do
    let failed ← runEach id 0 steps
    runner.gather failed steps.length
  termination_by structural step => step

/-- Runs steps one after the other; the first error ends them. -/
def runAll (id : ScopeId) : List Step → μ Unit
  | [] => return
  | step :: rest => do
    runStep id step
    runAll id rest
  termination_by structural steps => steps

/-- Runs every step of a batch, and gives the failures with their positions. -/
def runEach (id : ScopeId) (index : Nat) : List Step → μ (List (Nat × Json × φ))
  | [] => return []
  | step :: rest => runner.collect index step.raw (runStep id step) (runEach id (index + 1) rest)
  termination_by structural steps => steps

end

/-- Runs actions, with at most so many runs under way inside one another. A run that would lie deeper is too `late`;
each of the others is `timed`, and has a runner of its own for its steps. -/
def nested (late : ExecuteLimits → μ Unit)
    (timed : ExecuteLimits → Option Nat → (Budget → μ Unit) → μ Unit)
    (runner : (ScopeId → List Json → ExecuteLimits → μ Unit) → Budget → Runner μ φ) :
    Nat → Option Nat → ScopeId → List Json → ExecuteLimits → μ Unit
  | 0, _, _, _, limits => late limits
  | depth + 1, outer, id, actions, limits =>
    if actions.isEmpty then return
    else timed limits outer fun budget =>
      (runner (nested late timed runner depth budget.deadline) budget).runAll id (Step.ofItems actions)

end Runner

/-- Plain runs keep nothing but the machine. -/
def runner (reenter : Reenter) (budget : Budget) : Runner ExecuteM Error where
  toMode := (caller reenter budget).toMode
  error := id
  fail := fail
  attempt := attempt
  step raw run := withAction raw do
    tick budget
    run
  perform := perform reenter budget
  makeLoop := makeLoop
  gather := batchOutcome

/-- Runs actions under a timer of their own, with the count of the run around them put aside. -/
def timed (limits : ExecuteLimits) (outer : Option Nat)
    (run : Budget → ExecuteM Unit) : ExecuteM Unit := ExceptT.mk fun m =>
  let own := m.world.clock + limits.timeoutMs
  let deadline := outer.elim own (min own)
  let (outcome, after) := (run ⟨m.world.clock, limits, some deadline⟩).run { m with steps := 0 }
  let restored := { after with steps := m.steps }
  match outcome with
  | .error .dropped =>
    if deadline = own then (.error (.error (timeoutError limits)), restored)
    else (.error .dropped, restored)
  | outcome => (outcome, restored)

/-- How many runs may be under way inside one another. The bound, and the time-out that a run beyond it fails
with, belong to this model, so that every run ends: what is modelled has no such bound. -/
def maxRunDepth : Nat := 1000

/-- Runs actions with at most so many runs inside one another. -/
def runWithin : Nat → Option Nat → ScopeId → List Json → ExecuteLimits → ExecuteM Unit :=
  Runner.nested (fun limits => fail (timeoutError limits)) timed runner

/-- Executes actions in a scope; the first failure ends them. -/
def execute (id : ScopeId) (actions : List Json) (limits : ExecuteLimits) (w : World) :
    Except Error Unit × World :=
  match (runWithin maxRunDepth none id actions limits).run ⟨w, 0⟩ with
  | (.ok (), m) => (.ok (), m.world)
  | (.error (.error e), m) => (.error e, m.world)
  | (.error .dropped, m) => (.error (timeoutError limits), m.world)

/-- Runs actions without a timer. The machine that is left shows how many steps they took. -/
def runUntimed (id : ScopeId) (actions : List Json) (limits : ExecuteLimits) (w : World) :
    Except Error Unit × Machine :=
  let budget : Budget := ⟨w.clock, limits, none⟩
  match ((runner (runWithin maxRunDepth none) budget).runAll id (Step.ofItems actions)).run ⟨w, 0⟩ with
  | (.ok (), m) => (.ok (), m)
  | (.error (.error e), m) => (.error e, m)
  | (.error .dropped, m) => (.error (timeoutError limits), m)

end StateScript.Execute
