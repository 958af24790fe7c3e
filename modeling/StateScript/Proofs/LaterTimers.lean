import StateScript.Proofs.Dispatches
import StateScript.Proofs.Errors
import StateScript.Proofs.OnwardRuns

/-!
Runs under laxer limits. A timer shows only where it goes off, and a limit of steps only where it is reached;
so a run that is not cut short by them comes to the same under a later timer and with fewer steps behind it.
-/

namespace StateScript.Execute

section

variable {α β : Type}

/-- A run is spent, or another one that begins in the same world comes to the same and leaves the same world.
The numbers of steps that the two count may differ, as long as they stay related. -/
def Outlasts (spent : Interrupt → Prop) (counts : Nat → Nat → Prop) (tight lax : ExecuteM α) : Prop :=
  ∀ w steps fewer, counts steps fewer →
    (∃ why, spent why ∧ (tight.run ⟨w, steps⟩).1 = .error why) ∨
      ∃ outcome left steps' fewer', tight.run ⟨w, steps⟩ = (outcome, ⟨left, steps'⟩) ∧
        lax.run ⟨w, fewer⟩ = (outcome, ⟨left, fewer'⟩) ∧ counts steps' fewer'

/-- A timer around the run has gone off. -/
def Cut (why : Interrupt) : Prop := why = .dropped

/-- A timer has gone off, or the run has found that its time or its steps are used up. -/
def Exhausted : Interrupt → Prop
  | .dropped => True
  | .error e => isBudgetError e = true

/-- Ways for a run to be spent that pass through the actions around it, batches among them. -/
structure Passes (spent : Interrupt → Prop) : Prop where
  dropped : spent .dropped
  budget : ∀ {e}, spent (.error e) → isBudgetError e = true
  named : ∀ {e} raw, spent (.error e) → spent (.error (e.withAction raw))

theorem isBudgetError_withAction (raw : Json) (e : Error) : isBudgetError (e.withAction raw) = isBudgetError e := by
  simp only [isBudgetError, Error.code_withAction]

theorem cut_passes : Passes Cut where
  dropped := rfl
  budget := nofun
  named _ := nofun

theorem exhausted_passes : Passes Exhausted where
  dropped := trivial
  budget exhausted := exhausted
  named raw exhausted := (isBudgetError_withAction raw _).trans exhausted

variable {spent : Interrupt → Prop} {counts : Nat → Nat → Prop}

namespace Outlasts

theorem of_countless {operation : ExecuteM α} (countless : Countless operation) :
    Outlasts spent counts operation operation := by
  intro w steps fewer related
  exact Or.inr ⟨_, _, steps, fewer, countless w steps, countless w fewer, related⟩

theorem of_eq (operation : ExecuteM α) : Outlasts spent Eq operation operation := by
  rintro w steps _ rfl
  exact Or.inr ⟨_, _, _, _, rfl, rfl, rfl⟩

theorem pure (a : α) : Outlasts spent counts (Pure.pure a) (Pure.pure a) := of_countless (Countless.pure a)

theorem throw (why : Interrupt) : Outlasts spent counts (throw why : ExecuteM α) (throw why) :=
  of_countless (Countless.throw why)

theorem mono {tight lax : ExecuteM α} (outlasts : Outlasts spent counts tight lax) {spent' : Interrupt → Prop}
    (more : ∀ why, spent why → spent' why) : Outlasts spent' counts tight lax := by
  intro w steps fewer related
  rcases outlasts w steps fewer related with ⟨why, ended, failed⟩ | same
  · exact Or.inl ⟨why, more why ended, failed⟩
  · exact Or.inr same

theorem bind {tight lax : ExecuteM α} {next next' : α → ExecuteM β} (starts : Outlasts spent counts tight lax)
    (continues : ∀ a, Outlasts spent counts (next a) (next' a)) :
    Outlasts spent counts (tight >>= next) (lax >>= next') := by
  intro w steps fewer related
  rw [run_bind, run_bind]
  rcases starts w steps fewer related with ⟨why, ended, failed⟩ | ⟨outcome, left, s, f, ran, ran', further⟩
  · refine Or.inl ⟨why, ended, ?_⟩
    rcases ran : tight.run ⟨w, steps⟩ with ⟨_ | _, after⟩ <;> rw [ran] at failed <;> cases failed
    rfl
  · rw [ran, ran']
    cases outcome with
    | error why => exact Or.inr ⟨_, left, s, f, rfl, rfl, further⟩
    | ok a => exact continues a left s f further

/-- What follows may depend on the world that is read, not on the count. -/
theorem reading {next next' : Machine → ExecuteM α} (same : ∀ w steps, next ⟨w, steps⟩ = next ⟨w, 0⟩)
    (same' : ∀ w steps, next' ⟨w, steps⟩ = next' ⟨w, 0⟩)
    (continues : ∀ w, Outlasts spent counts (next ⟨w, 0⟩) (next' ⟨w, 0⟩)) :
    Outlasts spent counts (get >>= next) (get >>= next') := by
  intro w steps fewer related
  rw [run_bind, run_bind, run_get, run_get]
  dsimp only
  rw [same, same']
  exact continues w w steps fewer related

theorem «then» {tight lax : ExecuteM α} (outlasts : Outlasts spent counts tight lax) (b : β) :
    Outlasts spent counts (tight *> Pure.pure b) (lax *> Pure.pure b) := by
  rw [seqRight_eq_bind, seqRight_eq_bind]
  exact outlasts.bind fun _ => pure b

theorem ite (condition : Prop) [Decidable condition] {yes yes' no no' : ExecuteM α}
    (holds : Outlasts spent counts yes yes') (fails : Outlasts spent counts no no') :
    Outlasts spent counts (if condition then yes else no) (if condition then yes' else no') := by
  split
  · exact holds
  · exact fails

theorem withAction {tight lax : ExecuteM α} (outlasts : Outlasts spent counts tight lax) (passes : Passes spent)
    (raw : Json) : Outlasts spent counts (Execute.withAction raw tight) (Execute.withAction raw lax) := by
  rw [withAction_eq, withAction_eq]
  intro w steps fewer related
  have named (run : ExecuteM α) (m : Machine) : (mapOutcome (attributed raw) run).run m =
      (attributed raw (run.run m).1, (run.run m).2) := rfl
  rw [named, named]
  rcases outlasts w steps fewer related with ⟨why, ended, failed⟩ | ⟨outcome, left, s, f, ran, ran', further⟩
  · rw [failed]
    cases why with
    | dropped => exact Or.inl ⟨.dropped, ended, rfl⟩
    | error e => exact Or.inl ⟨.error (e.withAction raw), passes.named raw ended, rfl⟩
  · rw [ran, ran']
    exact Or.inr ⟨_, left, s, f, rfl, rfl, further⟩

/-- Where the outcome of a run is looked at, one that is spent is passed on. -/
theorem attempt_bind {tight lax : ExecuteM α} {next next' : Except Error α → ExecuteM β}
    (inside : Outlasts spent counts tight lax)
    (continues : ∀ outcome, Outlasts spent counts (next outcome) (next' outcome))
    (rethrows : ∀ e, spent (.error e) → next (.error e) = MonadExcept.throw (.error e)) :
    Outlasts spent counts (attempt tight >>= next) (attempt lax >>= next') := by
  rw [attempt_eq, attempt_eq]
  intro w steps fewer related
  rw [run_mapOutcome_bind, run_mapOutcome_bind]
  rcases inside w steps fewer related with ⟨why, ended, failed⟩ | ⟨outcome, left, s, f, ran, ran', further⟩
  · rw [failed]
    cases why with
    | dropped => exact Or.inl ⟨.dropped, ended, rfl⟩
    | error e =>
      simp only [caught]
      rw [rethrows e ended]
      exact Or.inl ⟨.error e, ended, rfl⟩
  · rw [ran, ran']
    rcases outcome with (e | _) | a
    · exact continues (.error e) left s f further
    · exact Or.inr ⟨_, left, s, f, rfl, rfl, further⟩
    · exact continues (.ok a) left s f further

theorem attempt {tight lax : ExecuteM α} (inside : Outlasts Cut counts tight lax) :
    Outlasts Cut counts (Execute.attempt tight) (Execute.attempt lax) := by
  rw [← bind_pure (Execute.attempt tight), ← bind_pure (Execute.attempt lax)]
  exact inside.attempt_bind (fun _ => pure _) fun _ => nofun

end Outlasts

end

/-! An action by itself counts no steps, so only a timer can end it. -/

theorem run_suspend {budget : Budget} {deadline : Nat} (ends : budget.deadline = some deadline) (m : Machine) :
    (suspend budget).run m = if deadline ≤ m.world.clock then (.error .dropped, m) else (.ok (), m) := by
  simp only [suspend, ends]
  rw [run_bind, run_get]
  dsimp only
  split_ifs <;> rfl

section

variable {counts : Nat → Nat → Prop} {tight lax : Reenter}
  (enters : ∀ id actions limits, Outlasts Cut counts (tight id actions limits) (lax id actions limits))
  {budget other : Budget} {soon late : Nat} (ends : budget.deadline = some soon) (ends' : other.deadline = some late)
  (later : soon ≤ late) (id : ScopeId)

include enters ends ends' later

theorem outlasts_answer (request : Request) :
    Outlasts Cut counts (answer tight budget id request) (answer lax other id request) := by
  cases request with
  | getPath path => exact .of_countless (Countless.onWorld (World.getPath id path))
  | setPath path value => exact .of_countless ((Countless.onWorld (World.setPath id path value)).then _)
  | bind key value => exact .of_countless ((Countless.onWorld (World.set id key value)).then _)
  | evaluate source => exact .of_countless (Countless.onWorld (World.evaluate id source))
  | execute actions limits => exact (enters id actions limits).then _
  | describe => exact .of_countless (Countless.reading (fun _ _ => rfl) fun w => Countless.pure (describe id w))
  | keep => exact .of_countless ((Countless.modifyWorld fun w => { w with kept := id :: w.kept }).then _)
  | block ms => exact .of_countless ((Countless.modifyWorld fun w => { w with clock := w.clock + ms }).then _)
  | suspend =>
    have waits : Outlasts Cut counts (suspend budget) (suspend other) := by
      intro w steps fewer related
      rw [run_suspend ends, run_suspend ends']
      by_cases off : soon ≤ w.clock
      · exact Or.inl ⟨.dropped, rfl, congrArg Prod.fst (if_pos off)⟩
      · have on : ¬ late ≤ w.clock := fun gone => off (Nat.le_trans later gone)
        exact Or.inr ⟨.ok (), w, steps, fewer, if_neg off, if_neg on, related⟩
    exact waits.then _
  | hang =>
    have waits : Outlasts Cut counts (hang budget) (hang other) := by
      intro w steps fewer related
      refine Or.inl ⟨.dropped, rfl, ?_⟩
      simp only [hang, ends]
      rfl
    exact waits.then _

theorem outlasts_caller : (caller tight budget).Related (caller lax other) id (fun _ => True) Countless
    (Outlasts Cut counts) where
  pure := .pure
  bind := .bind
  once := .of_countless
  raise _ _ := .throw _
  read _ continues := .reading (fun _ _ => rfl) (fun _ _ => rfl) fun w => continues w trivial
  invoke _ _ _ :=
    have told (event : Event) := Outlasts.of_countless (Countless.modifyWorld (World.record event))
    have answers (request : Request) := (outlasts_answer enters ends ends' later id request).attempt
    (caller tight budget).invoke_related (caller lax other) (Outlasts Cut counts) .pure .bind told rfl rfl answers
      fun _ _ => .throw _

theorem outlasts_perform (raw : Json) (action : Action) :
    Outlasts Cut counts (perform tight budget id raw action) (perform lax other id raw action) :=
  (outlasts_caller enters ends ends' later id).perform (countless_suited id) raw fun _ _ => trivial

end

section

variable {spent : Interrupt → Prop} {counts : Nat → Nat → Prop} {tight lax : Reenter} {budget other : Budget}

/-- A run outlasts another one if its steps are counted as long and each action by itself does as much. -/
theorem outlasts_runner (passes : Passes spent) (ticks : Outlasts spent counts (tick budget) (tick other))
    (performs : ∀ id raw action,
      Outlasts spent counts (perform tight budget id raw action) (perform lax other id raw action)) :
    (runner tight budget).Related (runner lax other) (fun () _ => True) (fun _ => True)
      fun () => Outlasts spent counts where
  pure := .pure
  bind := .bind
  raise _ := .throw _
  step raw _ _ outlasts := (ticks.bind fun _ => outlasts).withAction passes raw
  perform _ _ := performs _ _ _
  condition _ _ := .of_countless (Countless.onWorld _)
  source _ _ := .of_countless (Countless.onWorld _)
  iterate {_ id} var indexVar item index steps _ inside := by
    intro w steps fewer related
    rw [run_iterate, run_iterate]
    dsimp only
    generalize w.addLoop id var indexVar item index = made
    rcases inside () made.1 trivial made.2 steps fewer related with
      ⟨why, ended, failed⟩ | ⟨outcome, left, s, f, ran, ran', further⟩
    · exact Or.inl ⟨why, ended, failed⟩
    · rw [ran, ran']
      exact Or.inr ⟨outcome, _, s, f, rfl, rfl, further⟩
  collect index raw _ _ _ _ here others := by
    refine here.attempt_bind (fun outcome => ?_) fun e ended => if_pos (passes.budget ended)
    cases outcome with
    | ok => exact others
    | error e => exact .ite _ (.throw _) (others.bind fun _ => .pure _)
  gather failed total := .ite _ (.pure _) (.throw _)

end

/-- A run of its own that no timer around it cuts short comes to the same under a later timer around it. -/
theorem outlasts_runWithin (depth : Nat) {soon late : Nat} (later : soon ≤ late) (counts : Nat → Nat → Prop)
    (id : ScopeId) (actions : List Json) (limits : ExecuteLimits) :
    Outlasts Cut counts (runWithin depth (some soon) id actions limits)
      (runWithin depth (some late) id actions limits) := by
  induction depth generalizing soon late counts id actions limits with
  | zero => exact .throw _
  | succ depth ih =>
    rw [runWithin_succ, runWithin_succ]
    refine .ite _ (.pure _) fun w steps fewer related => ?_
    rw [run_timed, run_timed]
    dsimp only [Option.elim_some]
    by_cases own : w.clock + limits.timeoutMs ≤ soon
    · -- its own timer goes off first, whichever is around it
      rw [Nat.min_eq_left own, Nat.min_eq_left (Nat.le_trans own later)]
      exact Or.inr ⟨_, _, steps, fewer, rfl, rfl, related⟩
    · have shut : min (w.clock + limits.timeoutMs) soon = soon := Nat.min_eq_right (by omega)
      have further : soon ≤ min (w.clock + limits.timeoutMs) late := by omega
      rw [shut]
      generalize min (w.clock + limits.timeoutMs) late = then' at further ⊢
      let budget : Budget := ⟨w.clock, limits, some soon⟩
      let other : Budget := ⟨w.clock, limits, some then'⟩
      have ticks : Outlasts Cut Eq (tick budget) (tick other) := .of_eq (tick budget)
      have performs (id : ScopeId) (raw : Json) (action : Action) : Outlasts Cut Eq
          (perform (runWithin depth budget.deadline) budget id raw action)
          (perform (runWithin depth other.deadline) other id raw action) :=
        outlasts_perform (ih further Eq) rfl rfl further id raw action
      have all : Outlasts Cut Eq _ ((runner (runWithin depth other.deadline) other).runAll id _) :=
        (outlasts_runner cut_passes ticks performs).runAll (i := ()) trivial (Step.ofItems actions) fun _ _ => trivial
      have inside := all w 0 0 rfl
      have dropped : timedOut limits (w.clock + limits.timeoutMs) soon (.error .dropped) = .error .dropped :=
        if_neg (by omega)
      rcases inside with ⟨why, ended, failed⟩ | ⟨outcome, left, s, _, ran, ran', rfl⟩
      · cases ended
        rw [failed]
        exact Or.inl ⟨.dropped, rfl, dropped⟩
      · rw [ran, ran']
        rcases outcome with (e | _) | _
        · exact Or.inr ⟨_, left, steps, fewer, rfl, rfl, related⟩
        · exact Or.inl ⟨.dropped, rfl, dropped⟩
        · exact Or.inr ⟨_, left, steps, fewer, rfl, rfl, related⟩

end StateScript.Execute
