import StateScript.World.Handles

/-!
Runs of actions. A run counts its steps against a budget and stops at the first error; a run under
a timer can also be dropped while it waits, and then leaves everything as it stands.
-/

namespace StateScript

/-- The limits of a run that has begun, and when the earliest timer around it goes off. -/
structure Budget where
  started : Nat
  limits : ExecuteLimits
  deadline : Option Nat

/-- The world, and how many steps the current run has taken. -/
structure Machine where
  world : World
  steps : Nat := 0

/-- Why a run ends early. -/
inductive Interrupt where
  | error (e : Error)
  | dropped

abbrev ExecuteM := ExceptT Interrupt (StateM Machine)

namespace Execute

def timeoutError (limits : ExecuteLimits) : Error :=
  (Error.action .actionTimeout
    s!"Action execution timed out after {limits.timeoutMs}ms").withMetadata
    "timeout_ms" (.nat limits.timeoutMs)

def maxStepsError (limits : ExecuteLimits) : Error :=
  (Error.action .actionMaxStepsExceeded
    s!"Action execution exceeded {limits.maxSteps} steps").withMetadata
      "max_steps" (.nat limits.maxSteps)

/-- Errors that end a whole run, inside a batch too. -/
def isBudgetError (e : Error) : Bool :=
  e.code = .actionTimeout ∨ e.code = .actionMaxStepsExceeded

def fail {α : Type} (e : Error) : ExecuteM α := throw (.error e)

/-- Runs an operation on the world. -/
def onWorld {α : Type} (operation : WorldM α) : ExecuteM α := ExceptT.mk fun m =>
  let (result, world) := operation.run m.world
  (result.mapError .error, { m with world })

def modifyWorld (change : World → World) : ExecuteM Unit :=
  modify fun m => { m with world := change m.world }

/-- The outcome of a run as a value; a dropped run stays dropped. -/
def attempt {α : Type} (run : ExecuteM α) : ExecuteM (Except Error α) := ExceptT.mk fun m =>
  match run.run m with
  | (.ok value, m) => (.ok (.ok value), m)
  | (.error (.error e), m) => (.ok (.error e), m)
  | (.error .dropped, m) => (.error .dropped, m)

/-- Names the action in the error of a run. -/
def withAction {α : Type} (raw : Json) (run : ExecuteM α) : ExecuteM α := ExceptT.mk fun m =>
  match run.run m with
  | (.error (.error e), m) => (.error (.error (e.withAction raw)), m)
  | outcome => outcome

/-- Counts one more step, if time and steps are left. -/
def tick (budget : Budget) : ExecuteM Unit := do
  let m ← get
  if budget.limits.timeoutMs ≤ m.world.clock - budget.started then
    fail (timeoutError budget.limits)
  if budget.limits.maxSteps ≤ m.steps then
    fail (maxStepsError budget.limits)
  set { m with steps := m.steps + 1 }

/-- Waits for something that is already there: only a timer that has gone off can cut in. -/
def suspend (budget : Budget) : ExecuteM Unit := do
  match budget.deadline with
  | some deadline => if deadline ≤ (← get).world.clock then throw .dropped
  | none => return

/-- Waits forever, which is until the earliest timer goes off. -/
def hang (budget : Budget) : ExecuteM Unit := do
  if let some deadline := budget.deadline then
    modifyWorld fun w => { w with clock := max w.clock deadline }
  throw .dropped

end Execute

end StateScript
