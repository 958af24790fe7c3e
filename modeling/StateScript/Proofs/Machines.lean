import StateScript.Execute.Run
import StateScript.Proofs.Runs

/-!
Runs of operations on the world inside a run of actions, and what else a run of actions is made of.
-/

namespace StateScript

namespace Execute

section

variable {α β : Type}

theorem run_onWorld (operation : WorldM α) (m : Machine) : (onWorld operation).run m =
    ((operation.run m.world).1.mapError .error, { m with world := (operation.run m.world).2 }) := rfl

theorem run_onWorld_eq_ok {operation : WorldM α} {m after : Machine} {a : α} :
    (onWorld operation).run m = (.ok a, after) ↔
      (operation.run m.world).1 = .ok a ∧ after = { m with world := (operation.run m.world).2 } := by
  rw [run_onWorld]
  rcases operation.run m.world with ⟨e | b, world⟩
  · constructor
    · intro failed
      cases failed
    · rintro ⟨failed, _⟩
      cases failed
  · constructor
    · intro ran
      cases ran
      exact ⟨rfl, rfl⟩
    · rintro ⟨same, rfl⟩
      cases same
      rfl

theorem onWorld_pure (a : α) : onWorld (pure a) = pure a := rfl

theorem onWorld_bind (first : WorldM α) (next : α → WorldM β) :
    onWorld (first >>= next) = onWorld first >>= fun a => onWorld (next a) := by
  refine ExceptT.ext (funext fun m => ?_)
  have whole := run_bind first next m.world
  show (onWorld (first >>= next)).run m = (onWorld first >>= fun a => onWorld (next a)).run m
  rw [run_bind, run_onWorld, run_onWorld, whole]
  rcases first.run m.world with ⟨e | a, after⟩ <;> rfl

/-- The outcome of a run as a value, unless the run is dropped. -/
def caught : Except Interrupt α → Except Interrupt (Except Error α)
  | .ok a => .ok (.ok a)
  | .error (.error e) => .ok (.error e)
  | .error .dropped => .error .dropped

theorem attempt_eq (run : ExecuteM α) : attempt run = mapOutcome caught run := by
  refine ExceptT.ext (funext fun m => ?_)
  show (attempt run).run m = (mapOutcome caught run).run m
  unfold attempt mapOutcome
  simp only [ExceptT.run_mk]
  rcases run.run m with ⟨(e | _) | a, after⟩ <;> rfl

/-- The outcome of a run with the action named in its error. -/
def attributed (raw : Json) : Except Interrupt α → Except Interrupt α
  | .error (.error e) => .error (.error (e.withAction raw))
  | outcome => outcome

theorem withAction_eq (raw : Json) (run : ExecuteM α) :
    withAction raw run = mapOutcome (attributed raw) run := by
  refine ExceptT.ext (funext fun m => ?_)
  show (withAction raw run).run m = (mapOutcome (attributed raw) run).run m
  unfold withAction mapOutcome
  simp only [ExceptT.run_mk]
  rcases run.run m with ⟨(e | _) | a, after⟩ <;> rfl

theorem run_of_attempt {run : ExecuteM α} {m after : Machine} {a : α}
    (ran : (attempt run).run m = (.ok (.ok a), after)) : run.run m = (.ok a, after) := by
  rw [attempt_eq] at ran
  change (caught (run.run m).1, (run.run m).2) = (.ok (.ok a), after) at ran
  rcases known : run.run m with ⟨(e | _) | b, left⟩ <;> rw [known] at ran <;> cases ran
  rfl

theorem run_of_withAction {raw : Json} {run : ExecuteM α} {m after : Machine} {a : α}
    (ran : (withAction raw run).run m = (.ok a, after)) : run.run m = (.ok a, after) := by
  rw [withAction_eq] at ran
  change (attributed raw (run.run m).1, (run.run m).2) = (.ok a, after) at ran
  rcases known : run.run m with ⟨(e | _) | b, left⟩ <;> rw [known] at ran <;> cases ran
  rfl

@[simp] theorem caller_once (reenter : Reenter) (budget : Budget) (operation : ExecuteM α) :
    (caller reenter budget).once operation = operation := rfl

/-- A step is counted if there is time and a step left. -/
theorem run_tick (budget : Budget) (m : Machine) : (tick budget).run m =
    if budget.limits.timeoutMs ≤ m.world.clock - budget.started then
      (.error (.error (timeoutError budget.limits)), m)
    else if budget.limits.maxSteps ≤ m.steps then (.error (.error (maxStepsError budget.limits)), m)
    else (.ok (), { m with steps := m.steps + 1 }) := by
  unfold tick
  rw [run_bind, run_get]
  by_cases late : budget.limits.timeoutMs ≤ m.world.clock - budget.started
  · simp only [if_pos late]
    rfl
  · by_cases spent : budget.limits.maxSteps ≤ m.steps
    · simp only [if_neg late, if_pos spent]
      rfl
    · simp only [if_neg late, if_neg spent]
      rfl

/-- A step is carried out if it can be counted. -/
theorem run_step (reenter : Reenter) (budget : Budget) (raw : Json) (rest : ExecuteM Unit) (m : Machine) :
    ((runner reenter budget).step raw rest).run m =
      if budget.limits.timeoutMs ≤ m.world.clock - budget.started then
        (.error (.error ((timeoutError budget.limits).withAction raw)), m)
      else if budget.limits.maxSteps ≤ m.steps then
        (.error (.error ((maxStepsError budget.limits).withAction raw)), m)
      else (withAction raw rest).run { m with steps := m.steps + 1 } := by
  have named (operation : ExecuteM Unit) (n : Machine) : (withAction raw operation).run n =
      (attributed raw (operation.run n).1, (operation.run n).2) := by
    rw [withAction_eq]
    rfl
  have counted : (runner reenter budget).step raw rest = withAction raw (tick budget >>= fun _ => rest) := rfl
  rw [counted, named, named, run_bind, run_tick]
  split_ifs <;> rfl

theorem collect_eq (reenter : Reenter) (budget : Budget) (index : Nat) (raw : Json) (run : ExecuteM Unit)
    (others : ExecuteM (List (Nat × Json × Error))) : (runner reenter budget).collect index raw run others = do
      match ← mapOutcome caught run with
      | .ok () => others
      | .error e => if isBudgetError e then fail e else return (index, raw, e) :: (← others) := by
  rw [← attempt_eq]
  refine congrArg (attempt run >>= ·) (funext fun outcome => ?_)
  rcases outcome with e | ⟨⟩ <;> rfl

/-- What a run comes to that may be cut short by its own timer or one around it. -/
def timedOut (limits : ExecuteLimits) (own deadline : Nat) : Except Interrupt Unit → Except Interrupt Unit
  | .error .dropped => if deadline = own then .error (.error (timeoutError limits)) else .error .dropped
  | outcome => outcome

theorem run_timed (limits : ExecuteLimits) (outer : Option Nat) (run : Budget → ExecuteM Unit) (m : Machine) :
    (timed limits outer run).run m =
      let own := m.world.clock + limits.timeoutMs
      let deadline := outer.elim own (min own)
      let ran := (run ⟨m.world.clock, limits, some deadline⟩).run { m with steps := 0 }
      (timedOut limits own deadline ran.1, { ran.2 with steps := m.steps }) := by
  unfold timed
  simp only [ExceptT.run_mk]
  rcases (run _).run { m with steps := 0 } with ⟨(e | _) | _, after⟩
  · rfl
  · unfold timedOut
    dsimp only
    split <;> rfl
  · rfl

/-- What a run comes to in the end: one that is dropped has timed out. -/
def settled (limits : ExecuteLimits) : Except Interrupt α → Except Error α
  | .ok a => .ok a
  | .error (.error e) => .error e
  | .error .dropped => .error (timeoutError limits)

theorem execute_eq (id : ScopeId) (actions : List Json) (limits : ExecuteLimits) (w : World) :
    execute id actions limits w =
      let ran := (runWithin maxRunDepth none id actions limits).run ⟨w, 0⟩
      (settled limits ran.1, ran.2.world) := by
  unfold execute
  rcases (runWithin maxRunDepth none id actions limits).run ⟨w, 0⟩ with ⟨(e | _) | a, after⟩ <;> rfl

theorem runWithin_succ (depth : Nat) (outer : Option Nat) (id : ScopeId) (actions : List Json)
    (limits : ExecuteLimits) : runWithin (depth + 1) outer id actions limits =
      if actions.isEmpty then pure () else timed limits outer fun budget =>
        (runner (runWithin depth budget.deadline) budget).runAll id (Step.ofItems actions) := rfl

/-- A run with no timer around it is not dropped: it would be its own timer that goes off. -/
theorem runWithin_ne_dropped (depth : Nat) (id : ScopeId) (actions : List Json) (limits : ExecuteLimits)
    (m : Machine) : ((runWithin depth none id actions limits).run m).1 ≠ .error .dropped := by
  cases depth with
  | zero => nofun
  | succ depth =>
    rw [runWithin_succ]
    split
    · nofun
    · rw [run_timed]
      dsimp only [timedOut, Option.elim]
      split
      · rw [if_pos rfl]
        nofun
      · assumption

theorem runUntimed_eq (id : ScopeId) (actions : List Json) (limits : ExecuteLimits) (w : World) :
    runUntimed id actions limits w =
      let ran := ((runner (runWithin maxRunDepth none) ⟨w.clock, limits, none⟩).runAll id
        (Step.ofItems actions)).run ⟨w, 0⟩
      (settled limits ran.1, ran.2) := by
  unfold runUntimed
  dsimp only
  rcases ((runner (runWithin maxRunDepth none) ⟨w.clock, limits, none⟩).runAll id (Step.ofItems actions)).run ⟨w, 0⟩
    with ⟨(e | _) | a, after⟩ <;> rfl

end

end Execute

theorem Keeps.onWorld {α : Type} {good : World → Prop} {operation : WorldM α} (keeps : Keeps good operation) :
    Keeps (fun m => good m.world) (Execute.onWorld operation) := fun m holds => keeps m.world holds

theorem Keeps.reading {α β : Type} {good : World → Prop} {reenter : Execute.Reenter} {budget : Budget} {f : World → α}
    {next : α → ExecuteM β} (continues : ∀ w, good w → Keeps (fun m => good m.world) (next (f w))) :
    Keeps (fun m => good m.world) ((Execute.caller reenter budget).read f >>= next) :=
  fun m holds => continues m.world holds m holds

section

variable {good : Machine → Prop}

theorem Keeps.suspend (budget : Budget) : Keeps good (Execute.suspend budget) := by
  unfold Execute.suspend
  cases budget.deadline with
  | none => exact Keeps.pure _
  | some deadline =>
    refine Keeps.get.bind fun m => ?_
    split_ifs
    · exact Keeps.throw _
    · exact Keeps.pure _

theorem Keeps.hang {good : World → Prop} (later : ∀ {w : World} time, good w → good { w with clock := time })
    (budget : Budget) : Keeps (fun m => good m.world) (Execute.hang budget : ExecuteM Unit) := by
  unfold Execute.hang
  cases budget.deadline with
  | none => exact Keeps.throw _
  | some deadline =>
    have waited : Keeps (fun m => good m.world)
        (Execute.modifyWorld fun w => { w with clock := max w.clock deadline }) := fun _ holds => later _ holds
    exact waited.bind fun _ => Keeps.throw _

theorem Keeps.batchOutcome (failed : List (Nat × Json × Error)) (total : Nat) :
    Keeps good (Execute.batchOutcome failed total) := by
  unfold Execute.batchOutcome
  split
  · exact Keeps.pure _
  · exact Keeps.throw _

end

end StateScript
