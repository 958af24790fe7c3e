import StateScript.Execute.Run
import StateScript.Proofs.RelatedRuns

/-!
Runs without a limit of steps. Such a run lists what it dispatches, each action with the world that it
meets, where the plain run only counts. What an action does by itself does not depend on the count.
-/

namespace StateScript.Execute

/-- An action that is dispatched, and the world that it meets. -/
structure Dispatch where
  action : Json
  world : World

/-- The world, and what has been dispatched so far, the latest last. -/
structure Trace where
  world : World
  dispatches : List Dispatch

abbrev TraceM := ExceptT Interrupt (StateM Trace)

namespace Unlimited

section

variable {α : Type}

/-- Takes an operation of the plain run as it is. -/
def once (operation : ExecuteM α) : TraceM α := ExceptT.mk fun trace =>
  let (result, machine) := operation.run { world := trace.world }
  (result, { trace with world := machine.world })

def fail (e : Error) : TraceM α := throw (.error e)

def attempt (run : TraceM α) : TraceM (Except Error α) := mapOutcome caught run

def withAction (raw : Json) (run : TraceM α) : TraceM α := mapOutcome (attributed raw) run

end

/-- Lists one more action, if time is left. -/
def dispatch (budget : Budget) (raw : Json) : TraceM Unit := do
  let trace ← get
  if budget.limits.timeoutMs ≤ trace.world.clock - budget.started then
    fail (timeoutError budget.limits)
  set { trace with dispatches := trace.dispatches ++ [Dispatch.mk raw trace.world] }

def runner (reenter : Reenter) (budget : Budget) : Runner TraceM Error where
  once := once
  raise := fail
  error := id
  fail := fail
  attempt := attempt
  step raw run := withAction raw do
    dispatch budget raw
    run
  perform id raw action := once (perform reenter budget id raw action)
  makeLoop id var indexVar item index := once (makeLoop id var indexVar item index)
  gather failed total := once (batchOutcome failed total)

/-- Executes actions in a scope under a timer alone, and lists what is dispatched. -/
def execute (id : ScopeId) (actions : List Json) (timeoutMs : Nat) (w : World) : Except Error Unit × Trace :=
  if actions.isEmpty then (.ok (), ⟨w, []⟩)
  else
    -- no step is compared with the zero in these limits
    let limits : ExecuteLimits := ⟨timeoutMs, 0⟩
    let budget : Budget := ⟨w.clock, limits, some (w.clock + timeoutMs)⟩
    let reenter := runWithin (maxRunDepth - 1) budget.deadline
    let (outcome, trace) := ((runner reenter budget).runAll id (Step.ofItems actions)).run ⟨w, []⟩
    (settled limits outcome, trace)

end Unlimited

section

variable {α β : Type}

/-- An operation does the same whatever the count of steps is, and leaves the count alone. -/
def Countless (operation : ExecuteM α) : Prop :=
  ∀ w steps, operation.run ⟨w, steps⟩ =
    ((operation.run ⟨w, 0⟩).1, ⟨(operation.run ⟨w, 0⟩).2.world, steps⟩)

theorem Countless.pure (a : α) : Countless (Pure.pure a) := fun _ _ => rfl

theorem Countless.throw (why : Interrupt) : Countless (throw why : ExecuteM α) := fun _ _ => rfl

theorem Countless.onWorld (operation : WorldM α) : Countless (onWorld operation) := fun _ _ => rfl

theorem Countless.modifyWorld (change : World → World) : Countless (modifyWorld change) := fun _ _ => rfl

/-- Reading the world is no way to the count. -/
theorem Countless.reading {next : Machine → ExecuteM α} (same : ∀ w steps, next ⟨w, steps⟩ = next ⟨w, 0⟩)
    (continues : ∀ w, Countless (next ⟨w, 0⟩)) : Countless (get >>= next) := by
  intro w steps
  show (next ⟨w, steps⟩).run ⟨w, steps⟩ = _
  rw [same]
  exact continues w w steps

theorem Countless.bind {first : ExecuteM α} {next : α → ExecuteM β} (starts : Countless first)
    (continues : ∀ a, Countless (next a)) : Countless (first >>= next) := by
  intro w steps
  have start := starts w steps
  rw [run_bind, run_bind, start]
  rcases first.run ⟨w, 0⟩ with ⟨why | a, after, left⟩
  · rfl
  · have counted := continues a after steps
    have uncounted := continues a after left
    simp only
    rw [counted, uncounted]

theorem Countless.mapOutcome {operation : ExecuteM α} (countless : Countless operation)
    (change : Except Interrupt α → Except Interrupt β) : Countless (mapOutcome change operation) := by
  intro w steps
  show (change (operation.run ⟨w, steps⟩).1, (operation.run ⟨w, steps⟩).2) = _
  rw [countless w steps]
  rfl

theorem Countless.attempt {operation : ExecuteM α} (countless : Countless operation) :
    Countless (attempt operation) := by
  rw [attempt_eq]
  exact countless.mapOutcome caught

theorem Countless.then {operation : ExecuteM α} (countless : Countless operation) (b : β) :
    Countless (operation *> Pure.pure b) := by
  rw [seqRight_eq_bind]
  exact countless.bind fun _ => Countless.pure _

theorem countless_suspend (budget : Budget) : Countless (suspend budget) := by
  unfold suspend
  cases budget.deadline with
  | none => exact Countless.pure _
  | some deadline =>
    have waits (w : World) : Countless (if deadline ≤ w.clock then throw .dropped else pure ()) := by
      split_ifs
      · exact Countless.throw _
      · exact Countless.pure _
    exact Countless.reading (fun _ _ => rfl) waits

theorem countless_hang (budget : Budget) : Countless (hang budget) := by
  unfold hang
  cases budget.deadline with
  | none => exact Countless.throw _
  | some deadline => exact (Countless.modifyWorld _).bind fun _ => Countless.throw _

/-- A run of its own counts for itself. -/
theorem countless_timed (limits : ExecuteLimits) (outer : Option Nat) (run : Budget → ExecuteM Unit) :
    Countless (timed limits outer run) := by
  intro w steps
  unfold timed
  simp only [ExceptT.run_mk]
  rcases (run _).run ⟨w, 0⟩ with ⟨(e | _) | ⟨⟩, after⟩
  · rfl
  · simp only
    split <;> rfl
  · rfl

theorem countless_runWithin (depth : Nat) (outer : Option Nat) (id : ScopeId) (actions : List Json)
    (limits : ExecuteLimits) : Countless (runWithin depth outer id actions limits) := by
  cases depth with
  | zero => exact Countless.throw _
  | succ depth =>
    rw [runWithin_succ]
    split
    · exact Countless.pure _
    · exact countless_timed limits outer _

section

variable {reenter : Reenter} (enters : ∀ id actions limits, Countless (reenter id actions limits))
  (budget : Budget) (id : ScopeId)

include enters

theorem countless_answer (request : Request) : Countless (answer reenter budget id request) := by
  cases request with
  | getPath path => exact Countless.onWorld (World.getPath id path)
  | setPath path value => exact (Countless.onWorld (World.setPath id path value)).then _
  | bind key value => exact (Countless.onWorld (World.set id key value)).then _
  | evaluate source => exact Countless.onWorld (World.evaluate id source)
  | execute actions limits => exact (enters id actions limits).then _
  | describe => exact Countless.reading (fun _ _ => rfl) fun w => Countless.pure (describe id w)
  | keep => exact (Countless.modifyWorld fun w => { w with kept := id :: w.kept }).then _
  | suspend => exact (countless_suspend budget).then _
  | hang => exact (countless_hang budget).then _
  | block ms => exact (Countless.modifyWorld fun w => { w with clock := w.clock + ms }).then _

omit enters

theorem countless_suited : Suited Countless id fun _ => True where
  pure := Countless.pure
  bind := Countless.bind
  fail _ _ := Countless.throw _
  record _ := Countless.modifyWorld _
  emit _ _ := Countless.modifyWorld _
  param _ := Countless.onWorld _
  params _ := Countless.onWorld _
  inserted _ := Countless.onWorld _
  splice _ := Countless.onWorld _
  setPath _ _ := Countless.onWorld _
  editArray _ _ := Countless.onWorld _

include enters

theorem countless_caller : (caller reenter budget).Related (caller reenter budget) id (fun _ => True) Countless
    (Alone Countless) where
  pure := Countless.pure
  bind := Countless.bind
  once countless := countless
  raise _ _ := Countless.throw _
  read _ continues := Countless.reading (fun _ _ => rfl) fun w => continues w trivial
  invoke _ _ _ :=
    have answers (request : Request) := (countless_answer enters budget id request).attempt
    (caller reenter budget).invoke_related (caller reenter budget) (Alone Countless) Countless.pure Countless.bind
      (fun _ => Countless.modifyWorld _) rfl rfl answers fun _ _ => Countless.throw _

theorem countless_perform (raw : Json) (action : Action) : Countless (perform reenter budget id raw action) :=
  (countless_caller enters budget id).perform (countless_suited id) raw fun _ _ => trivial

end

end

/-! Of its budget, an action by itself only heeds the timer. -/

section

variable {budget other : Budget} (same : budget.deadline = other.deadline) (reenter : Reenter) (id : ScopeId)

include same

theorem answer_congr (request : Request) : answer reenter budget id request = answer reenter other id request := by
  cases request with
  | suspend => simp only [answer, suspend, same]
  | hang => simp only [answer, hang, same]
  | _ => rfl

theorem caller_congr : caller reenter budget = caller reenter other := by
  have asks : answer reenter budget = answer reenter other := by
    funext id request
    exact answer_congr same reenter id request
  unfold caller
  rw [asks]

theorem perform_congr (raw : Json) (action : Action) :
    perform reenter budget id raw action = perform reenter other id raw action := by
  rw [perform, perform, caller_congr same]

end

end StateScript.Execute
