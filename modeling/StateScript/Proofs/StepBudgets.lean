import StateScript.Proofs.Dispatches
import StateScript.Proofs.Errors
import StateScript.Proofs.ScopeNumbers

/-!
Runs under a limit of steps. If the limit is enough for all that the run without it dispatches, the two
runs are the same. Otherwise the limited run stops where the first action too many would be dispatched, and
on its way out it only gives its loop scopes back.
-/

namespace StateScript

namespace World

/-- A world that is left from another one without scopes that are at least as new as some number. What the
host has seen and what older scopes bind is the same. -/
structure Unwound (bound : Nat) (stopped left : World) : Prop where
  events : left.events = stopped.events
  trees : left.trees = stopped.trees
  kept : left.kept = stopped.kept
  clock : left.clock = stopped.clock
  standing : ∀ id < bound, left.scope? id = stopped.scope? id
  same_or_gone : ∀ id, left.scope? id = stopped.scope? id ∨ left.scope? id = none

section

variable {bound : Nat} {stopped left : World}

theorem Unwound.refl (bound : Nat) (w : World) : Unwound bound w w :=
  ⟨rfl, rfl, rfl, rfl, fun _ _ => rfl, fun _ => Or.inl rfl⟩

theorem Unwound.mono (unwound : Unwound bound stopped left) {lower : Nat} (less : lower ≤ bound) :
    Unwound lower stopped left :=
  { unwound with standing := fun id old => unwound.standing id (Nat.lt_of_lt_of_le old less) }

/-- A scope is given back that is new, or was not there. -/
theorem Unwound.release (unwound : Unwound bound stopped left) {id : ScopeId} (others : List ScopeId)
    (new_or_missing : id < bound → stopped.scope? id = none) :
    Unwound bound stopped (left.release id others) := by
  obtain ⟨events, trees, kept, clock⟩ := release_eq left id others
  refine ⟨events.trans unwound.events, trees.trans unwound.trees, kept.trans unwound.kept,
    clock.trans unwound.clock, fun other old => ?_, fun other => ?_⟩
  · rcases scope?_release left id other others with same | ⟨rfl, erased⟩
    · rw [same]
      exact unwound.standing other old
    · rw [erased, new_or_missing old]
  · rcases scope?_release left id other others with same | ⟨rfl, erased⟩
    · rw [same]
      exact unwound.same_or_gone other
    · exact Or.inr erased

end

end World

namespace Execute

/-- The error of a run that has no step left for an action. -/
def stopError (limits : ExecuteLimits) (d : Dispatch) : Error := (maxStepsError limits).withAction d.action

theorem code_stopError (limits : ExecuteLimits) (d : Dispatch) :
    (stopError limits d).code = .actionMaxStepsExceeded := rfl

theorem isBudgetError_stopError (limits : ExecuteLimits) (d : Dispatch) :
    isBudgetError (stopError limits d) = true := rfl

/-- The same timer, and no limit of steps that anyone would look at. -/
def unlimited (budget : Budget) : Budget := { budget with limits := { budget.limits with maxSteps := 0 } }

section

variable {α β γ : Type}

/-- How a limited run that begins in a world ends, given how the unlimited one does. -/
structure CutAt (limits : ExecuteLimits) (start : World) (traced : Except Interrupt α × Trace)
    (plain : Except Interrupt α × Machine) : Prop where
  whole : traced.2.dispatches.length ≤ limits.maxSteps →
    plain = (traced.1, ⟨traced.2.world, traced.2.dispatches.length⟩)
  stopped : ∀ d, traced.2.dispatches[limits.maxSteps]? = some d →
    plain.1 = .error (.error (stopError limits d)) ∧ World.Unwound start.scopes.next d.world plain.2.world

/-- An unlimited operation lists its dispatches behind the earlier ones, and the limited operation is cut
at the first one too many. -/
structure Cuts (limits : ExecuteLimits) (traced : TraceM α) (plain : ExecuteM α) : Prop where
  lists : ∀ t : Trace, ∃ added, (traced.run t).2.dispatches = t.dispatches ++ added ∧
    ∀ d ∈ added, t.world.Ages d.world
  ages : ∀ t : Trace, t.world.Ages (traced.run t).2.world
  cut : ∀ t : Trace, t.dispatches.length ≤ limits.maxSteps →
    CutAt limits t.world (traced.run t) (plain.run ⟨t.world, t.dispatches.length⟩)

variable {limits : ExecuteLimits}

/-- Where no action is one too many, there is no dispatch to stop at. -/
theorem CutAt.of_enough {start : World} {traced : Except Interrupt α × Trace}
    {plain : Except Interrupt α × Machine} (enough : traced.2.dispatches.length ≤ limits.maxSteps)
    (same : plain = (traced.1, ⟨traced.2.world, traced.2.dispatches.length⟩)) :
    CutAt limits start traced plain := by
  refine ⟨fun _ => same, fun d found => ?_⟩
  obtain ⟨inside, _⟩ := List.getElem?_eq_some_iff.mp found
  omega

/-- Once a run is cut, what would be dispatched later does not matter. -/
theorem CutAt.of_stopped {start : World} {traced : Except Interrupt α × Trace}
    {plain : Except Interrupt α × Machine} {earlier more : List Dispatch} {d : Dispatch}
    (listed : traced.2.dispatches = earlier ++ more) (found : earlier[limits.maxSteps]? = some d)
    (failed : plain.1 = .error (.error (stopError limits d)))
    (unwound : World.Unwound start.scopes.next d.world plain.2.world) : CutAt limits start traced plain := by
  obtain ⟨inside, _⟩ := List.getElem?_eq_some_iff.mp found
  constructor
  · intro enough
    rw [listed, List.length_append] at enough
    omega
  · intro other there
    rw [listed, List.getElem?_append_left inside, found] at there
    cases there
    exact ⟨failed, unwound⟩

/-- An operation that dispatches nothing. -/
theorem Cuts.once {operation : ExecuteM α} (countless : Countless operation)
    (ages : ∀ w : World, Keeps (fun m => w.Ages m.world) operation) :
    Cuts limits (Unlimited.once operation) operation where
  lists t := ⟨[], (List.append_nil _).symm, by simp⟩
  ages t := ages t.world ⟨t.world, 0⟩ (.refl _)
  cut t enough := CutAt.of_enough enough (countless t.world t.dispatches.length)

/-- What leaves the world alone. -/
theorem Cuts.still (result : Except Interrupt α) :
    Cuts limits (ExceptT.mk (pure result) : TraceM α) (ExceptT.mk (pure result)) where
  lists t := ⟨[], (List.append_nil _).symm, by simp⟩
  ages t := .refl _
  cut t enough := CutAt.of_enough enough rfl

/-- One operation after another, which gets the outcome of the first in some form. If that is the error of a
cut, then the second lets it through. -/
theorem Cuts.follow (change : Except Interrupt α → Except Interrupt γ) {first : TraceM α} {first' : ExecuteM α}
    {next : γ → TraceM β} {next' : γ → ExecuteM β} (starts : Cuts limits first first')
    (continues : ∀ c, Cuts limits (next c) (next' c))
    (passes : ∀ d m, (mapOutcome change (throw (.error (stopError limits d))) >>= next').run m =
      (.error (.error (stopError limits d)), m)) :
    Cuts limits (mapOutcome change first >>= next) (mapOutcome change first' >>= next') := by
  constructor
  · intro t
    obtain ⟨added, listed, aged⟩ := starts.lists t
    have passed := starts.ages t
    rw [run_mapOutcome_bind]
    cases change (first.run t).1 with
    | error why => exact ⟨added, listed, aged⟩
    | ok c =>
      obtain ⟨more, listedOn, agedOn⟩ := (continues c).lists (first.run t).2
      refine ⟨added ++ more, ?_, fun d member => ?_⟩
      · rw [listedOn, listed, List.append_assoc]
      · rcases List.mem_append.mp member with early | late
        · exact aged d early
        · exact passed.trans (agedOn d late)
  · intro t
    rw [run_mapOutcome_bind]
    cases change (first.run t).1 with
    | error why => exact starts.ages t
    | ok c => exact (starts.ages t).trans ((continues c).ages _)
  · intro t enough
    obtain ⟨whole, stopped⟩ := starts.cut t enough
    by_cases further : (first.run t).2.dispatches.length ≤ limits.maxSteps
    · rw [run_mapOutcome_bind, run_mapOutcome_bind, whole further]
      cases change (first.run t).1 with
      | error why => exact CutAt.of_enough further rfl
      | ok c =>
        obtain ⟨wholeOn, stoppedOn⟩ := (continues c).cut _ further
        refine ⟨wholeOn, fun d found => ?_⟩
        obtain ⟨failed, unwound⟩ := stoppedOn d found
        exact ⟨failed, unwound.mono (starts.ages t).next⟩
    · obtain ⟨d, found⟩ : ∃ d, (first.run t).2.dispatches[limits.maxSteps]? = some d :=
        ⟨_, List.getElem?_eq_getElem (Nat.lt_of_not_le further)⟩
      obtain ⟨failed, unwound⟩ := stopped d found
      have through : (mapOutcome change first' >>= next').run ⟨t.world, t.dispatches.length⟩ =
          (.error (.error (stopError limits d)), (first'.run ⟨t.world, t.dispatches.length⟩).2) := by
        rw [← passes, run_mapOutcome_bind, run_mapOutcome_bind, failed]
        rfl
      rw [run_mapOutcome_bind, through]
      cases change (first.run t).1 with
      | error why => exact CutAt.of_stopped (List.append_nil _).symm found rfl unwound
      | ok c =>
        obtain ⟨more, listed, _⟩ := (continues c).lists (first.run t).2
        exact CutAt.of_stopped listed found rfl unwound

theorem Cuts.bind {first : TraceM α} {first' : ExecuteM α} {next : α → TraceM β} {next' : α → ExecuteM β}
    (starts : Cuts limits first first') (continues : ∀ a, Cuts limits (next a) (next' a)) :
    Cuts limits (first >>= next) (first' >>= next') :=
  starts.follow id continues fun _ _ => rfl

/-- What comes after an attempt lets the error of a cut through. -/
theorem Cuts.attempt {first : TraceM α} {first' : ExecuteM α} {next : Except Error α → TraceM β}
    {next' : Except Error α → ExecuteM β} (starts : Cuts limits first first')
    (continues : ∀ outcome, Cuts limits (next outcome) (next' outcome))
    (passes : ∀ d m, (next' (.error (stopError limits d))).run m = (.error (.error (stopError limits d)), m)) :
    Cuts limits (Unlimited.attempt first >>= next) (attempt first' >>= next') := by
  rw [attempt_eq]
  exact starts.follow caught continues passes

/-- An error keeps the first action that it is given. -/
theorem Cuts.withAction {first : TraceM α} {first' : ExecuteM α} (cuts : Cuts limits first first') (raw : Json) :
    Cuts limits (Unlimited.withAction raw first) (withAction raw first') := by
  have named := cuts.follow (attributed raw) (fun a => Cuts.still (.ok a)) fun _ _ => rfl
  rw [withAction_eq]
  rw [← bind_pure (mapOutcome (attributed raw) first')]
  rw [← bind_pure (Unlimited.withAction raw first)]
  exact named

theorem Cuts.ite (condition : Prop) [Decidable condition] {first second : TraceM α} {first' second' : ExecuteM α}
    (holds : Cuts limits first first') (fails : Cuts limits second second') :
    Cuts limits (if condition then first else second) (if condition then first' else second') := by
  split
  · exact holds
  · exact fails

/-- Without a limit, it is enough that there is time left. -/
theorem run_dispatch (reenter : Reenter) (budget : Budget) (raw : Json) (rest : TraceM Unit) (t : Trace) :
    ((Unlimited.runner reenter (unlimited budget)).step raw rest).run t =
      if budget.limits.timeoutMs ≤ t.world.clock - budget.started then
        (.error (.error ((timeoutError budget.limits).withAction raw)), t)
      else (Unlimited.withAction raw rest).run { t with dispatches := t.dispatches ++ [⟨raw, t.world⟩] } := by
  have named (operation : TraceM Unit) (t : Trace) : (Unlimited.withAction raw operation).run t =
      (attributed raw (operation.run t).1, (operation.run t).2) := rfl
  have timer : (unlimited budget).limits.timeoutMs = budget.limits.timeoutMs ∧
      (unlimited budget).started = budget.started := ⟨rfl, rfl⟩
  simp only [Unlimited.runner, Unlimited.dispatch]
  rw [named, named, run_bind, run_bind, run_get]
  simp only [timer]
  by_cases late : budget.limits.timeoutMs ≤ t.world.clock - budget.started
  · simp only [if_pos late]
    rfl
  · simp only [if_neg late]
    rfl

/-- A step is the next dispatch, or else the run is cut here. -/
theorem cuts_step (reenter : Reenter) (budget : Budget) (raw : Json) {rest : TraceM Unit} {rest' : ExecuteM Unit}
    (continues : Cuts budget.limits rest rest') :
    Cuts budget.limits ((Unlimited.runner reenter (unlimited budget)).step raw rest)
      ((runner reenter budget).step raw rest') := by
  have named := continues.withAction raw
  constructor
  · intro t
    rw [run_dispatch]
    split
    · exact ⟨[], (List.append_nil _).symm, by simp⟩
    · obtain ⟨added, listed, aged⟩ := named.lists { t with dispatches := t.dispatches ++ [⟨raw, t.world⟩] }
      refine ⟨⟨raw, t.world⟩ :: added, ?_, fun d member => ?_⟩
      · rw [listed, List.append_assoc]
        rfl
      · rcases List.mem_cons.mp member with rfl | later
        · exact .refl _
        · exact aged d later
  · intro t
    rw [run_dispatch]
    split
    · exact .refl _
    · exact named.ages { t with dispatches := t.dispatches ++ [⟨raw, t.world⟩] }
  · intro t enough
    rw [run_dispatch, run_step]
    by_cases late : budget.limits.timeoutMs ≤ t.world.clock - budget.started
    · rw [if_pos late, if_pos late]
      exact CutAt.of_enough enough rfl
    rw [if_neg late, if_neg late]
    by_cases room : budget.limits.maxSteps ≤ t.dispatches.length
    · -- the limit has been reached, and this dispatch is the first one too many
      rw [if_pos room]
      obtain ⟨added, listed, _⟩ := named.lists { t with dispatches := t.dispatches ++ [⟨raw, t.world⟩] }
      have reached : budget.limits.maxSteps = t.dispatches.length := by omega
      have found : (t.dispatches ++ [⟨raw, t.world⟩])[budget.limits.maxSteps]? = some ⟨raw, t.world⟩ := by
        rw [reached, List.getElem?_append_right (Nat.le_refl _)]
        simp
      exact CutAt.of_stopped listed found rfl (.refl _ _)
    · rw [if_neg room]
      have grown : (t.dispatches ++ [⟨raw, t.world⟩] : List Dispatch).length ≤ budget.limits.maxSteps := by
        rw [List.length_append, List.length_singleton]
        omega
      have further := named.cut { t with dispatches := t.dispatches ++ [⟨raw, t.world⟩] } grown
      simp only [List.length_append, List.length_singleton] at further
      exact further

theorem run_iterate_unlimited (reenter : Reenter) (budget : Budget) (id : ScopeId) (var indexVar : String)
    (item index : Json) (body : ScopeId → TraceM Unit) (t : Trace) :
    ((Unlimited.runner reenter budget).iterate id var indexVar item index body).run t =
      let made := t.world.addLoop id var indexVar item index
      let ran := (body made.1).run { t with world := made.2 }
      (ran.1, { ran.2 with world := leaving made.1 ran.1 ran.2.world }) := by
  have made : (Unlimited.once (makeLoop id var indexVar item index)).run t =
      (.ok (t.world.addLoop id var indexVar item index).1,
        { t with world := (t.world.addLoop id var indexVar item index).2 }) := rfl
  simp only [Runner.iterate, Unlimited.runner]
  rw [run_bind, made]
  dsimp only
  rw [Unlimited.attempt, run_mapOutcome_bind]
  rcases (body _).run _ with ⟨(e | _) | ⟨⟩, after⟩ <;> rfl

/-- A cut inside an iteration still gives the scope of the iteration back. -/
theorem cuts_iterate (reenter : Reenter) (budget other : Budget) (id : ScopeId) (var indexVar : String)
    (item index : Json) {body : ScopeId → TraceM Unit} {body' : ScopeId → ExecuteM Unit}
    (inside : ∀ scope, Cuts limits (body scope) (body' scope)) :
    Cuts limits ((Unlimited.runner reenter budget).iterate id var indexVar item index body)
      ((runner reenter other).iterate id var indexVar item index body') := by
  have made (w : World) : w.Ages (w.addLoop id var indexVar item index).2 :=
    (World.Ages.refl w).addLoop id var indexVar item index
  constructor
  · intro t
    have born := made t.world
    rw [run_iterate_unlimited]
    generalize t.world.addLoop id var indexVar item index = loop at born ⊢
    obtain ⟨added, listed, aged⟩ := (inside loop.1).lists { t with world := loop.2 }
    exact ⟨added, listed, fun d member => born.trans (aged d member)⟩
  · intro t
    have born := made t.world
    rw [run_iterate_unlimited]
    generalize t.world.addLoop id var indexVar item index = loop at born ⊢
    have aged := born.trans ((inside loop.1).ages { t with world := loop.2 })
    dsimp only
    unfold leaving
    split
    · exact aged
    · exact aged.release loop.1 []
  · intro t enough
    have born := made t.world
    have kinds := t.world.addLoop_cases id var indexVar item index
    rw [run_iterate_unlimited, run_iterate]
    dsimp only
    generalize t.world.addLoop id var indexVar item index = loop at born kinds ⊢
    obtain ⟨added, listed, aged⟩ := (inside loop.1).lists { t with world := loop.2 }
    obtain ⟨whole, stopped⟩ := (inside loop.1).cut { t with world := loop.2 } enough
    constructor
    · intro further
      rw [whole further]
    · intro d found
      obtain ⟨failed, unwound⟩ := stopped d found
      dsimp only at failed unwound ⊢
      rw [failed]
      refine ⟨rfl, (unwound.mono born.next).release [] fun old => ?_⟩
      -- the scope that is given back is newer than the iteration, or there never was one
      rcases kinds with ⟨fresh, _⟩ | ⟨same, missing, _⟩
      · rw [fresh] at old
        exact absurd old (Nat.lt_irrefl _)
      · have later : d ∈ added := by
          have there : (t.dispatches ++ added)[limits.maxSteps]? = some d := listed ▸ found
          rw [List.getElem?_append_right enough] at there
          exact List.mem_of_getElem? there
        have gone := (born.trans (aged d later)).gone id (same ▸ old) missing
        rw [same, gone]

end

section

variable (depth : Nat) (outer : Option Nat) (budget : Budget)

theorem cuts_perform (limits : ExecuteLimits) (id : ScopeId) (raw : Json) (action : Action) :
    Cuts limits (Unlimited.once (perform (runWithin depth outer) (unlimited budget) id raw action))
      (perform (runWithin depth outer) budget id raw action) := by
  have same : (unlimited budget).deadline = budget.deadline := rfl
  rw [perform_congr same]
  exact Cuts.once (countless_perform (countless_runWithin depth outer) budget id raw action) fun w =>
    keeps_perform (ages_keptByActions w) depth outer budget id raw action

theorem cuts_source (limits : ExecuteLimits) (id : ScopeId) (source : Json) :
    Cuts limits (Unlimited.once (onWorld (World.evaluateSource id source)))
      (onWorld (World.evaluateSource id source)) :=
  Cuts.once (Countless.onWorld _) fun w => ((ages_keptByActions w).evaluation.source id source).onWorld

theorem cuts_batchOutcome (limits : ExecuteLimits) (failed : List (Nat × Json × Error)) (total : Nat) :
    Cuts limits (Unlimited.once (batchOutcome failed total)) (batchOutcome failed total) := by
  refine Cuts.once ?_ fun w => Keeps.batchOutcome failed total
  unfold batchOutcome
  split
  · exact Countless.pure _
  · exact Countless.throw _

theorem cuts_runner : (Unlimited.runner (runWithin depth outer) (unlimited budget)).Related
    (runner (runWithin depth outer) budget) (fun () _ => True) (fun _ => True) fun () => Cuts budget.limits where
  pure a := Cuts.still (.ok a)
  bind := Cuts.bind
  raise e := Cuts.still (.error (.error e))
  step := cuts_step _ budget
  perform _ _ := cuts_perform depth outer budget budget.limits _ _ _
  condition _ _ := cuts_source budget.limits _ _
  source _ _ := cuts_source budget.limits _ _
  iterate var indexVar item index _ _ inside :=
    cuts_iterate _ _ budget _ var indexVar item index fun scope => inside () scope trivial
  collect index raw _ _ _ _ here others := by
    refine Cuts.attempt here (fun outcome => ?_) fun d m => ?_
    · cases outcome with
      | ok => exact others
      | error e =>
        have listed := others.bind fun failed => Cuts.still (.ok ((index, raw, e) :: failed))
        exact Cuts.ite _ (Cuts.still (.error (.error e))) listed
    · -- the error of a cut is no failure of the batch
      have budgetError :
          isBudgetError ((runner (runWithin depth outer) budget).error (stopError budget.limits d)) = true :=
        isBudgetError_stopError budget.limits d
      simp only [budgetError, if_true]
      rfl
  gather := cuts_batchOutcome budget.limits

end

theorem execute_of_empty {actions : List Json} (empty : actions.isEmpty = true) (id : ScopeId)
    (limits : ExecuteLimits) (w : World) : execute id actions limits w = (.ok (), w) := by
  have depth : maxRunDepth = (maxRunDepth - 1) + 1 := rfl
  rw [execute_eq, depth, runWithin_succ, if_pos empty]
  rfl

/-- A timer of its own makes no difference to what a run comes to in the end. -/
theorem settled_timed (limits : ExecuteLimits) (run : Budget → ExecuteM Unit) (w : World) :
    let timed := (timed limits none run).run ⟨w, 0⟩
    let ran := (run ⟨w.clock, limits, some (w.clock + limits.timeoutMs)⟩).run ⟨w, 0⟩
    (settled limits timed.1, timed.2.world) = (settled limits ran.1, ran.2.world) := by
  unfold timed
  simp only [ExceptT.run_mk, Option.elim_none]
  rcases (run _).run ⟨w, 0⟩ with ⟨(e | _) | ⟨⟩, after⟩
  · rfl
  · simp only [if_true]
    rfl
  · rfl

theorem execute_of_nonempty {actions : List Json} (nonempty : ¬actions.isEmpty = true) (id : ScopeId)
    (limits : ExecuteLimits) (w : World) : execute id actions limits w =
      let budget : Budget := ⟨w.clock, limits, some (w.clock + limits.timeoutMs)⟩
      let ran := ((runner (runWithin (maxRunDepth - 1) budget.deadline) budget).runAll id
        (Step.ofItems actions)).run ⟨w, 0⟩
      (settled limits ran.1, ran.2.world) := by
  have entered : runWithin maxRunDepth none id actions limits = timed limits none fun budget =>
      (runner (runWithin (maxRunDepth - 1) budget.deadline) budget).runAll id (Step.ofItems actions) :=
    if_neg nonempty
  rw [execute_eq, entered]
  exact settled_timed limits _ w

/-- A limit of steps cuts a run at an exact prefix. If it is enough for all that the run without it
dispatches, then both give the same result and leave the same world. Otherwise the run fails for want of
steps, at the first action too many, whatever batches and loops stand around it. The world it leaves is the
one that this action would have met, but for the loop scopes that are given back on the way out. -/
theorem execute_limited (id : ScopeId) (actions : List Json) (timeoutMs maxSteps : Nat) (w : World) :
    let unlimited := Unlimited.execute id actions timeoutMs w
    let limits : ExecuteLimits := ⟨timeoutMs, maxSteps⟩
    (unlimited.2.dispatches.length ≤ maxSteps →
      execute id actions limits w = (unlimited.1, unlimited.2.world)) ∧
    ∀ d, unlimited.2.dispatches[maxSteps]? = some d →
      ∃ left, execute id actions limits w = (.error (stopError limits d), left) ∧
        (stopError limits d).code = .actionMaxStepsExceeded ∧ World.Unwound w.scopes.next d.world left := by
  intro unlimited limits
  by_cases empty : actions.isEmpty = true
  · have nothing : unlimited = (.ok (), ⟨w, []⟩) := by simp only [unlimited, Unlimited.execute, if_pos empty]
    rw [nothing, execute_of_empty empty]
    exact ⟨fun _ => rfl, fun d found => by cases found⟩
  · let budget : Budget := ⟨w.clock, limits, some (w.clock + timeoutMs)⟩
    let traced := ((Unlimited.runner (runWithin (maxRunDepth - 1) budget.deadline)
      (Execute.unlimited budget)).runAll id (Step.ofItems actions)).run ⟨w, []⟩
    have opened : unlimited = (settled limits traced.1, traced.2) := by
      simp only [unlimited, Unlimited.execute, if_neg empty]
      rfl
    have cuts : Cuts limits _ ((runner (runWithin (maxRunDepth - 1) budget.deadline) budget).runAll id _) :=
      (cuts_runner (maxRunDepth - 1) budget.deadline budget).runAll (i := ()) trivial (Step.ofItems actions)
        fun _ _ => trivial
    obtain ⟨whole, stopped⟩ := cuts.cut ⟨w, []⟩ (Nat.zero_le _)
    rw [opened, execute_of_nonempty empty]
    constructor
    · intro enough
      exact congrArg (fun ran => (settled limits ran.1, ran.2.world)) (whole enough)
    · intro d found
      obtain ⟨failed, unwound⟩ := stopped d found
      exact ⟨_, congrArg (fun result => (settled limits result, _)) failed, code_stopError limits d, unwound⟩

/-- A batch that fails at its first action, and goes on with a loop of one action for each of two items. -/
def loopInBatch : List Json :=
  let pop : Json := .object [("path", .string "missing"), ("type", .string "pop")]
  let set : Json := .object [("path", .string "a"), ("type", .string "set"), ("value", .bool true)]
  let loop : Json := .object [("body", .array [set]), ("in", .array [.null, .null]), ("type", .string "loop"),
    ("var", .string "item")]
  [.object [("actions", .array [pop, loop]), ("type", .string "batch")]]

/-- Five steps are enough for the batch, and with four it ends in the second iteration. -/
theorem execute_limited_at_loopInBatch :
    execute 1 loopInBatch ⟨5000, 5⟩ (World.holding []) =
      ((Unlimited.execute 1 loopInBatch 5000 (World.holding [])).1,
        (Unlimited.execute 1 loopInBatch 5000 (World.holding [])).2.world) ∧
    ∃ d left, (Unlimited.execute 1 loopInBatch 5000 (World.holding [])).2.dispatches[4]? = some d ∧
      execute 1 loopInBatch ⟨5000, 4⟩ (World.holding []) = (.error (stopError ⟨5000, 4⟩ d), left) ∧
      World.Unwound (World.holding []).scopes.next d.world left := by
  have counted : (Unlimited.execute 1 loopInBatch 5000 (World.holding [])).2.dispatches.length = 5 := by
    decide +kernel
  have enough := (execute_limited 1 loopInBatch 5000 5 (World.holding [])).1
  have stopped := (execute_limited 1 loopInBatch 5000 4 (World.holding [])).2
  revert counted enough stopped
  generalize Unlimited.execute 1 loopInBatch 5000 (World.holding []) = unlimited
  intro counted enough stopped
  have found := List.getElem?_eq_getElem (show 4 < unlimited.2.dispatches.length by omega)
  obtain ⟨left, failed, _, unwound⟩ := stopped _ found
  exact ⟨enough (Nat.le_of_eq counted), _, left, found, failed, unwound⟩

end Execute

end StateScript
