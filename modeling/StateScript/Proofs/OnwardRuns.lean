import StateScript.Proofs.ScopeNumbers

/-!
What no run of actions turns back. Trees stay as they are made, and time goes on; so whatever a run does,
and however it ends, it leaves a later world with the same trees.
-/

namespace StateScript

namespace World

section

variable (w : World) (id : ScopeId)

@[simp] theorem modifySession_clock (change : Session → Session) : (w.modifySession id change).clock = w.clock := by
  unfold modifySession
  split <;> rfl

@[simp] theorem notify_clock (path : String) (value : Json) : (w.notify id path value).clock = w.clock := by
  rw [notify_eq]

/-- A later world with the same trees. -/
structure Onward (before after : World) : Prop where
  trees : after.trees = before.trees
  clock : before.clock ≤ after.clock

end

section

variable {before w after : World}

theorem Onward.refl (w : World) : w.Onward w := ⟨rfl, Nat.le_refl _⟩

theorem Onward.trans (first : before.Onward w) (second : w.Onward after) : before.Onward after :=
  ⟨second.trees.trans first.trees, Nat.le_trans first.clock second.clock⟩

theorem Onward.congr (onward : before.Onward w) (trees : after.trees = w.trees) (clock : after.clock = w.clock) :
    before.Onward after :=
  ⟨trees.trans onward.trees, clock ▸ onward.clock⟩

theorem Onward.modifySession (onward : before.Onward w) (id : ScopeId) (change : Session → Session) :
    before.Onward (w.modifySession id change) :=
  onward.congr (modifySession_trees ..) (modifySession_clock ..)

theorem Onward.invalidate (onward : before.Onward w) (id : ScopeId) (path : String) :
    before.Onward (w.invalidate id path) :=
  onward.modifySession id _

theorem Onward.modifyBindings (onward : before.Onward w) (id : ScopeId) (change : Members → Members) :
    before.Onward (w.modifyBindings id change) :=
  onward.congr rfl rfl

theorem Onward.notify (onward : before.Onward w) (id : ScopeId) (path : String) (value : Json) :
    before.Onward (w.notify id path value) :=
  onward.congr (notify_trees ..) (notify_clock ..)

theorem Onward.afterParsing (onward : before.Onward w) (id : ScopeId) (path : String) :
    before.Onward (w.afterParsing id path) := by
  rcases afterParsing_eq id path w with same | ⟨paths, same⟩
  · rw [same]
    exact onward
  · rw [same]
    exact onward.modifySession id _

theorem Onward.emit (onward : before.Onward w) (id : ScopeId) (event : String) (data : Json) :
    before.Onward (w.emit id event data) := by
  unfold World.emit
  split
  · split
    · exact onward.congr rfl rfl
    · exact onward
  · exact onward

theorem Onward.release (onward : before.Onward w) (id : ScopeId) (others : List ScopeId) :
    before.Onward (w.release id others) := by
  obtain ⟨_, trees, _, clock⟩ := release_eq w id others
  exact onward.congr trees clock

theorem Onward.addLoop (onward : before.Onward w) (id : ScopeId) (var indexVar : String) (item index : Json) :
    before.Onward (w.addLoop id var indexVar item index).2 := by
  rw [addLoop_drawn]
  unfold addChild
  split <;> exact (onward.modifySession id _).congr rfl rfl

end

section

variable (before : World) (id : ScopeId)

theorem onward_evaluation : KeptByEvaluation before.Onward :=
  .of_sessions fun id change _ onward => onward.modifySession id change

theorem onward_getPath (path : String) : Keeps before.Onward (getPath id path) :=
  keeps_getPath (fun id change _ onward => onward.modifySession id change) id path

theorem onward_set (key : String) (value : Json) : Keeps before.Onward (set id key value) := by
  intro w onward
  rw [run_set]
  cases checkBindable key with
  | error e => exact onward
  | ok => exact ((onward.modifyBindings id _).invalidate id key).notify id key value

theorem onward_setPath (path : String) (value : Json) : Keeps before.Onward (setPath id path value) := by
  intro w onward
  have parsed := onward.afterParsing id path
  rw [run_setPath]
  cases target path with
  | error e => exact parsed
  | ok found =>
    have written := parsed.modifyBindings (w.owner id found.1)
      fun _ => (assign found.1 found.2 value (w.bindings (w.owner id found.1))).1
    dsimp only
    cases (assign found.1 found.2 value (w.bindings (w.owner id found.1))).2 with
    | some fault => exact written
    | none => exact (written.invalidate id path).notify _ path value

theorem onward_editArray (path : String) (edit : ArrayEdit) : Keeps before.Onward (editArray id path edit) := by
  intro w onward
  have parsed := onward.afterParsing id path
  unfold editArray
  rw [run_updatePath]
  cases target path with
  | error e => exact parsed
  | ok found =>
    dsimp only
    split
    · exact parsed
    · have left old new : before.Onward ((w.afterParsing id path).putBack (w.owner id found.1) found.1 found.2
          old new) := by
        unfold putBack
        split
        · exact parsed.modifyBindings _ _
        · exact parsed
      have dropped old new := ((left old new).invalidate id path).invalidate id (Path.wildcardOf path)
      dsimp only
      split
      · exact (dropped _ _).notify _ path _
      · exact dropped _ _

end

end World

section

variable {α : Type} {good : Machine → Prop} {run : ExecuteM α}

theorem Keeps.attempt (keeps : Keeps good run) : Keeps good (Execute.attempt run) := by
  rw [Execute.attempt_eq]
  exact keeps

theorem Keeps.withAction (keeps : Keeps good run) (raw : Json) : Keeps good (Execute.withAction raw run) := by
  rw [Execute.withAction_eq]
  exact keeps

end

namespace Execute

open World (Onward onward_evaluation onward_getPath onward_set onward_setPath onward_editArray)

/-- However a run ends, the world is a later one with the same trees. -/
abbrev LeadsOn {α : Type} (before : World) (run : ExecuteM α) : Prop := Keeps (fun m => before.Onward m.world) run

section

variable {before : World}

theorem onward_modifyWorld {change : World → World} (forward : ∀ w : World, w.Onward (change w)) :
    LeadsOn before (modifyWorld change) :=
  fun m onward => onward.trans (forward m.world)

theorem onward_tick (budget : Budget) : LeadsOn before (tick budget) := by
  intro m onward
  rw [run_tick]
  split_ifs <;> exact onward

theorem onward_hang (budget : Budget) : LeadsOn before (hang budget : ExecuteM Unit) := by
  unfold hang
  cases budget.deadline with
  | none => exact Keeps.throw _
  | some deadline =>
    have waited : LeadsOn before (modifyWorld fun w => { w with clock := max w.clock deadline }) :=
      onward_modifyWorld fun w => ⟨rfl, Nat.le_max_left ..⟩
    exact waited.bind fun _ => Keeps.throw _

variable (before) in
theorem onward_suited (id : ScopeId) : Suited (LeadsOn before) id fun _ => True where
  pure := Keeps.pure
  bind := Keeps.bind
  fail _ _ := Keeps.throw _
  record _ := onward_modifyWorld fun _ => ⟨rfl, Nat.le_refl _⟩
  emit event data := onward_modifyWorld fun w => (Onward.refl w).emit id event data
  param _ := ((onward_evaluation before).param id _).onWorld
  params _ := ((onward_evaluation before).params id _).onWorld
  inserted _ := ((onward_evaluation before).inserted id _).onWorld
  splice _ := ((onward_evaluation before).splice id _ _ _).onWorld
  setPath path value := (onward_setPath before id path value).onWorld
  editArray path edit := (onward_editArray before id path edit).onWorld

section

variable {reenter : Reenter}
  (enters : ∀ id actions limits, LeadsOn before (reenter id actions limits))
  (budget : Budget) (id : ScopeId)

include enters

theorem onward_answer (request : Request) :
    LeadsOn before (answer reenter budget id request) := by
  cases request with
  | getPath path => exact (onward_getPath before id path).onWorld
  | setPath path value => exact (onward_setPath before id path value).onWorld.then _
  | bind key value => exact (onward_set before id key value).onWorld.then _
  | evaluate source => exact ((onward_evaluation before).evaluate id source).onWorld
  | execute actions limits => exact (enters id actions limits).then _
  | describe => exact Keeps.get.bind fun _ => Keeps.pure _
  | keep =>
    refine Keeps.then ?_ _
    exact onward_modifyWorld fun w => ⟨rfl, Nat.le_refl _⟩
  | suspend => exact (Keeps.suspend budget).then _
  | hang => exact (onward_hang budget).then _
  | block ms =>
    refine Keeps.then ?_ _
    exact onward_modifyWorld fun w => ⟨rfl, Nat.le_add_right ..⟩

theorem onward_caller : (caller reenter budget).Related (caller reenter budget) id (fun _ => True) (LeadsOn before)
    (Alone (LeadsOn before)) where
  pure := Keeps.pure
  bind := Keeps.bind
  once leads := leads
  raise _ _ := Keeps.throw _
  read _ continues := Keeps.reading fun w _ => continues w trivial
  invoke _ _ _ :=
    have answers (request : Request) := (onward_answer enters budget id request).attempt
    (caller reenter budget).invoke_related (caller reenter budget) (Alone (LeadsOn before)) Keeps.pure Keeps.bind
      (onward_suited before id).record rfl rfl answers fun _ _ => Keeps.throw _

theorem onward_perform (raw : Json) (action : Action) : LeadsOn before (perform reenter budget id raw action) :=
  (onward_caller enters budget id).perform (onward_suited before id) raw fun _ _ => trivial

omit id

theorem onward_runner : (runner reenter budget).Related (runner reenter budget) (fun () _ => True) (fun _ => True)
    fun () => Alone (LeadsOn before) where
  pure := Keeps.pure
  bind := Keeps.bind
  raise _ := Keeps.throw _
  step raw _ _ leads := ((onward_tick budget).bind fun _ => leads).withAction raw
  perform _ _ := onward_perform enters budget _ _ _
  condition _ _ := ((onward_evaluation before).source _ _).onWorld
  source _ _ := ((onward_evaluation before).source _ _).onWorld
  iterate {_ id} var indexVar item index steps _ inside := by
    intro m onward
    have made := onward.addLoop id var indexVar item index
    have ran := inside () (m.world.addLoop id var indexVar item index).1 trivial
      { m with world := (m.world.addLoop id var indexVar item index).2 } made
    rw [run_iterate]
    dsimp only
    unfold leaving
    split
    · exact ran
    · exact ran.release _ []
  collect index raw _ _ _ _ here others := by
    refine here.attempt.bind fun outcome => ?_
    cases outcome with
    | ok => exact others
    | error e =>
      dsimp only
      split
      · exact Keeps.throw _
      · exact others.bind fun _ => Keeps.pure _
  gather failed total := Keeps.batchOutcome failed total

end

theorem onward_runWithin (depth : Nat) (outer : Option Nat) (id : ScopeId) (actions : List Json)
    (limits : ExecuteLimits) : LeadsOn before (runWithin depth outer id actions limits) := by
  induction depth generalizing outer id actions limits with
  | zero => exact Keeps.throw _
  | succ depth ih =>
    rw [runWithin_succ]
    split
    · exact Keeps.pure _
    · intro m onward
      rw [run_timed]
      exact (onward_runner (fun id actions limits => ih _ id actions limits) _).runAll (i := ()) trivial
        (Step.ofItems actions) (fun _ _ => trivial) { m with steps := 0 } onward

/-- Whatever is executed, the world that is left is a later one with the same trees. -/
theorem execute_onward (id : ScopeId) (actions : List Json) (limits : ExecuteLimits) (w : World) :
    w.Onward (execute id actions limits w).2 := by
  rw [execute_eq]
  exact onward_runWithin maxRunDepth none id actions limits ⟨w, 0⟩ (.refl w)

end

end Execute

end StateScript
