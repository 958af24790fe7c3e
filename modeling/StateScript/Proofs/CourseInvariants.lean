import StateScript.Proofs.Courses
import StateScript.Proofs.Parameters
import StateScript.Proofs.RelatedRuns
import StateScript.Proofs.ScopeWrites

/-!
Properties that hold throughout a run of actions. What each operation keeps holds at every moment, as
long as the loop scopes that are made on the way do not break it.
-/

namespace StateScript.Execute

/-- How an iteration leaves the world: it gives its scope back, unless the run is dropped. -/
def leaving (scope : ScopeId) (outcome : Except Interrupt Unit) (w : World) : World :=
  match outcome with
  | .error .dropped => w
  | _ => w.release scope []

theorem run_iterate (reenter : Reenter) (budget : Budget) (id : ScopeId) (var indexVar : String)
    (item index : Json) (body : ScopeId → ExecuteM Unit) (m : Machine) :
    ((runner reenter budget).iterate id var indexVar item index body).run m =
      let made := m.world.addLoop id var indexVar item index
      let ran := (body made.1).run { m with world := made.2 }
      (ran.1, { ran.2 with world := leaving made.1 ran.1 ran.2.world }) := by
  have made : (makeLoop id var indexVar item index).run m =
      (.ok (m.world.addLoop id var indexVar item index).1,
        { m with world := (m.world.addLoop id var indexVar item index).2 }) := rfl
  simp only [Runner.iterate, runner, caller]
  rw [run_bind, made]
  dsimp only
  rw [attempt_eq, run_mapOutcome_bind]
  rcases (body _).run _ with ⟨(e | _) | ⟨⟩, after⟩ <;> rfl

/-- How a followed iteration leaves its course. -/
def Followed.leaving (scope : ScopeId) (outcome : Except Interrupt Unit) (course : Course) : Course :=
  match outcome with
  | .error .dropped => course
  | _ =>
    let world := course.machine.world.release scope []
    ⟨{ course.machine with world }, course.moments ++ [{ world }]⟩

theorem Followed.run_iterate (reenter : Followed.Reenter) (budget : Budget) (id : ScopeId) (var indexVar : String)
    (item index : Json) (body : ScopeId → CourseM Unit) (course : Course) :
    ((Followed.runner reenter budget).iterate id var indexVar item index body).run course =
      let made := course.machine.world.addLoop id var indexVar item index
      let names := (course.machine.world.scope? id).map fun _ => (var, indexVar)
      let ran := (body made.1).run
        ⟨{ course.machine with world := made.2 }, course.moments ++ [{ world := made.2, made := names }]⟩
      (ran.1, leaving made.1 ran.1 ran.2) := by
  simp only [Runner.iterate, Followed.runner, Followed.caller]
  rw [run_bind]
  simp only [Followed.makeLoop, ExceptT.run_mk]
  unfold Followed.attempt
  rw [run_mapOutcome_bind]
  rcases (body _).run _ with ⟨(e | _) | ⟨⟩, after⟩ <;> rfl

/-- A property of scopes and pools that actions keep, as long as loop scopes are made with names that fit. -/
structure KeptByActions (good : World → Prop) (fits : String × String → Prop) : Prop where
  beside : ∀ {w after : World}, w.Untouched after → good w → good after
  set : ∀ id key value, Keeps good (World.set id key value)
  setPath : ∀ id path value, Keeps good (World.setPath id path value)
  editArray : ∀ id path edit, Keeps good (World.editArray id path edit)
  release : ∀ id {w : World}, good w → good (w.release id [])
  addLoop : ∀ {w : World} {id : ScopeId} {scope : Scope}, w.scope? id = some scope → good w →
    ∀ var indexVar item index, good (w.addLoop id var indexVar item index).2 ↔ fits (var, indexVar)

namespace KeptByActions

variable {good : World → Prop} {fits : String × String → Prop} (kept : KeptByActions good fits)

include kept

theorem evaluation : World.KeptByEvaluation good := .of_untouched kept.beside

/-- What is told to the host, what methods hold on to and the time do not matter. -/
theorem modifyWorld {change : World → World}
    (same : ∀ w, (change w).scopes = w.scopes ∧ (change w).sessions = w.sessions) :
    Keeps (fun m => good m.world) (Execute.modifyWorld change) := by
  intro m holds
  obtain ⟨scopes, sessions⟩ := same m.world
  refine kept.beside ⟨scopes, fun s => ?_⟩ holds
  show ((change m.world).sessions.find? s).map Session.pool = _
  rw [sessions]
  rfl

omit kept in
theorem tick (budget : Budget) : Keeps (fun m => good m.world) (Execute.tick budget) := by
  intro m holds
  rw [run_tick]
  split_ifs <;> exact holds

theorem answer (budget : Budget) (id : ScopeId) (request : Request) :
    Keeps (fun m => good m.world) (Execute.answer Followed.unentered budget id request) := by
  have session {w : World} (id : ScopeId) (change : Session → Session)
      (keeps : ∀ session, (change session).pool = session.pool) (holds : good w) :
      good (w.modifySession id change) := kept.beside (w.untouched_modifySession id keeps) holds
  have later {w : World} (time : Nat) (holds : good w) : good { w with clock := time } :=
    kept.beside (show w.Untouched { w with clock := time } from ⟨rfl, fun _ => rfl⟩) holds
  cases request with
  | getPath path => exact (World.keeps_getPath session id path).onWorld
  | setPath path value => exact (kept.setPath id path value).onWorld.then _
  | bind key value => exact (kept.set id key value).onWorld.then _
  | evaluate source => exact (kept.evaluation.evaluate id source).onWorld
  | execute actions limits => exact (Keeps.pure _).then _
  | describe => exact Keeps.get.bind fun _ => Keeps.pure _
  | keep =>
    refine Keeps.then ?_ _
    exact kept.modifyWorld fun _ => ⟨rfl, rfl⟩
  | suspend => exact (Keeps.suspend budget).then _
  | hang => exact (Keeps.hang later budget).then _
  | block ms =>
    refine Keeps.then ?_ _
    exact kept.modifyWorld fun _ => ⟨rfl, rfl⟩

theorem suited (id : ScopeId) : Suited (Keeps fun m => good m.world) id fun _ => True where
  pure := Keeps.pure
  bind := Keeps.bind
  fail _ _ := Keeps.throw _
  record _ := kept.modifyWorld fun _ => ⟨rfl, rfl⟩
  emit event data := kept.modifyWorld fun w => by
    unfold World.emit
    split
    · split <;> exact ⟨rfl, rfl⟩
    · exact ⟨rfl, rfl⟩
  param _ := (kept.evaluation.param id _).onWorld
  params _ := (kept.evaluation.params id _).onWorld
  inserted _ := (kept.evaluation.inserted id _).onWorld
  splice _ := (kept.evaluation.splice id _ _ _).onWorld
  setPath path value := (kept.setPath id path value).onWorld
  editArray path edit := (kept.editArray id path edit).onWorld

/-! A followed run follows the plain one, each part of it. -/

section

variable {followed : Followed.Reenter} {plain : Reenter}
  (enters : ∀ id actions limits, Follows good fits (followed id actions limits) (plain id actions limits))
  (budget : Budget) (id : ScopeId)

include enters

theorem follows_answer (request : Request) :
    Follows good fits (Followed.answer followed budget id request) (Execute.answer plain budget id request) := by
  have answers := kept.answer budget id
  refine Follows.asking ?_ request
  cases request with
  | execute actions limits =>
    unfold Execute.answer
    rw [seqRight_eq_bind, seqRight_eq_bind]
    exact (enters id actions limits).bind fun _ => Follows.pure _
  | getPath path => exact Follows.once (answers (.getPath path))
  | setPath path value => exact Follows.once (answers (.setPath path value))
  | bind key value => exact Follows.once (answers (.bind key value))
  | evaluate source => exact Follows.once (answers (.evaluate source))
  | describe => exact Follows.once (answers .describe)
  | keep => exact Follows.once (answers .keep)
  | suspend => exact Follows.once (answers .suspend)
  | hang => exact Follows.once (answers .hang)
  | block ms => exact Follows.once (answers (.block ms))

theorem follows_caller : (Followed.caller followed budget).Related (caller plain budget) id (fun _ => True)
    (Keeps fun m => good m.world) (Follows good fits) where
  pure := Follows.pure
  bind := Follows.bind
  once := Follows.once
  raise _ _ := Follows.throw _
  read _ continues := Follows.reading fun w => continues w trivial
  invoke _ _ _ :=
    have told (event : Event) := Follows.once ((kept.suited id).record event)
    have answers (request : Request) := (kept.follows_answer enters budget id request).attempt
    (Followed.caller followed budget).invoke_related (caller plain budget) (Follows good fits) Follows.pure
      Follows.bind told rfl rfl answers fun _ _ => Follows.throw _

theorem follows_perform (raw : Json) (action : Action) : Follows good fits
    ((Followed.caller followed budget).perform id raw action) (perform plain budget id raw action) :=
  (kept.follows_caller enters budget id).perform (kept.suited id) raw fun _ _ => trivial

end

theorem follows_makeLoop (id : ScopeId) (var indexVar : String) (item index : Json) :
    Follows good fits (Followed.makeLoop id var indexVar item index)
      (makeLoop id var indexVar item index) := by
  intro course
  refine ⟨[{ world := _, made := _ }], rfl, rfl, ?_, ?_⟩
  · rw [List.forall_mem_singleton]
    rintro names made
    obtain ⟨scope, present, rfl⟩ := Option.map_eq_some_iff.mp made
    exact ⟨item, index, World.bindings_addLoop_newest present var indexVar item index⟩
  intro start
  rw [List.forall_mem_singleton, List.forall_mem_singleton]
  cases present : course.machine.world.scope? id with
  | none =>
    have still : good (course.machine.world.addLoop id var indexVar item index).2 := by
      rw [World.addLoop_of_missing present]
      exact start
    simp only [Option.map_none, Option.mem_def, reduceCtorEq, false_implies, implies_true, iff_true]
    exact still
  | some scope =>
    simp only [Option.map_some, Option.mem_def, Option.some.injEq, forall_eq']
    exact kept.addLoop present start var indexVar item index

section

variable {followed : Followed.Reenter} {plain : Reenter}
  (enters : ∀ id actions limits, Follows good fits (followed id actions limits) (plain id actions limits))
  (budget : Budget)

include enters

theorem follows_runner : (Followed.runner followed budget).Related (runner plain budget) (fun () _ => True)
    (fun _ => True) fun () => Follows good fits where
  pure := Follows.pure
  bind := Follows.bind
  raise _ := Follows.throw _
  step raw _ _ inside := ((Follows.once (tick budget)).bind fun _ => inside).withAction raw
  perform _ _ := kept.follows_perform enters budget _ _ _
  condition _ _ := Follows.once (kept.evaluation.source _ _).onWorld
  source _ _ := Follows.once (kept.evaluation.source _ _).onWorld
  iterate var indexVar item index steps _ inside := by
    refine (kept.follows_makeLoop _ var indexVar item index).bind fun scope => ?_
    refine (inside () scope trivial).attempt.bind fun outcome => ?_
    have released : Keeps (fun m => good m.world) (Execute.modifyWorld (World.release scope [])) :=
      fun m holds => kept.release scope holds
    refine (Follows.once released).bind fun _ => ?_
    cases outcome with
    | ok => exact Follows.pure _
    | error e => exact Follows.throw _
  collect index raw _ _ _ _ here others := by
    refine here.attempt.bind fun outcome => ?_
    cases outcome with
    | ok => exact others
    | error e => exact Follows.ite _ (Follows.throw _) (others.bind fun _ => Follows.pure _)
  gather failed total := Follows.once (Keeps.batchOutcome failed total)

theorem follows_runAll (id : ScopeId) (steps : List Step) :
    Follows good fits ((Followed.runner followed budget).runAll id steps) ((runner plain budget).runAll id steps) :=
  (kept.follows_runner enters budget).runAll (i := ()) trivial steps fun _ _ => trivial

end

omit kept

theorem follows_timed (limits : ExecuteLimits) (outer : Option Nat) {run : Budget → CourseM Unit}
    {run' : Budget → ExecuteM Unit} (runs : ∀ budget, Follows good fits (run budget) (run' budget)) :
    Follows good fits (Followed.timed limits outer run) (Execute.timed limits outer run') := by
  intro course
  let own := course.machine.world.clock + limits.timeoutMs
  obtain ⟨added, ran, leads⟩ := runs ⟨course.machine.world.clock, limits, some (outer.elim own (min own))⟩
    { course with machine := { course.machine with steps := 0 } }
  rw [Followed.run_timed, run_timed]
  dsimp only
  rw [ran]
  exact ⟨_, by rw [List.append_assoc], leads.append (.stopped _ _)⟩

theorem follows_runWithin (kept : KeptByActions good fits) (depth : Nat) (outer : Option Nat) (id : ScopeId)
    (actions : List Json) (limits : ExecuteLimits) :
    Follows good fits (Followed.runWithin depth outer id actions limits)
      (Execute.runWithin depth outer id actions limits) := by
  -- a method that runs actions begins a run that may be one less deep
  induction depth generalizing outer id actions limits with
  | zero => exact Follows.throw _
  | succ depth ih =>
    have runs budget := kept.follows_runAll (ih budget.deadline) budget id (Step.ofItems actions)
    exact Follows.ite _ (Follows.pure _) (follows_timed limits outer runs)

/-- The course of an execution ends where the execution does, with the same result. From a good world on,
all its moments are good exactly if each loop scope that is made on the way fits. -/
theorem execute_good_iff (kept : KeptByActions good fits) {w : World} (start : good w) (id : ScopeId)
    (actions : List Json) (limits : ExecuteLimits) :
    let followed := Followed.execute id actions limits w
    (followed.1, followed.2.machine.world) = Execute.execute id actions limits w ∧
      ((∀ moment ∈ followed.2.moments, good moment.world) ↔
        ∀ moment ∈ followed.2.moments, ∀ names ∈ moment.made, fits names) := by
  obtain ⟨added, ran, leads⟩ := kept.follows_runWithin maxRunDepth none id actions limits ⟨⟨w, 0⟩, []⟩
  rw [execute_eq]
  simp only [Followed.execute, ran, List.nil_append]
  exact ⟨trivial, leads.good_iff start⟩

/-- Every loop scope that an execution makes starts with nothing but what its loop binds. -/
theorem execute_fresh (kept : KeptByActions good fits) (w : World) (id : ScopeId) (actions : List Json)
    (limits : ExecuteLimits) : ∀ moment ∈ (Followed.execute id actions limits w).2.moments, moment.Fresh := by
  obtain ⟨added, ran, leads⟩ := kept.follows_runWithin maxRunDepth none id actions limits ⟨⟨w, 0⟩, []⟩
  simp only [Followed.execute, ran, List.nil_append]
  exact leads.fresh

theorem runUntimed_good_iff (kept : KeptByActions good fits) {w : World} (start : good w) (id : ScopeId)
    (actions : List Json) (limits : ExecuteLimits) :
    let followed := Followed.runUntimed id actions limits w
    (followed.1, followed.2.machine) = Execute.runUntimed id actions limits w ∧
      ((∀ moment ∈ followed.2.moments, good moment.world) ↔
        ∀ moment ∈ followed.2.moments, ∀ names ∈ moment.made, fits names) := by
  obtain ⟨added, ran, leads⟩ := kept.follows_runAll (kept.follows_runWithin maxRunDepth none)
    ⟨w.clock, limits, none⟩ id (Step.ofItems actions) ⟨⟨w, 0⟩, []⟩
  rw [runUntimed_eq]
  simp only [Followed.runUntimed, ran, List.nil_append]
  exact ⟨trivial, leads.good_iff start⟩

end KeptByActions

end StateScript.Execute
