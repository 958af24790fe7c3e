import StateScript.Proofs.ChangeLogs
import StateScript.Proofs.StepBudgets

/-!
Runs of actions as runs of turns. Loops make scopes and give them back, so after a run the scopes of before
stand as they stood, and what has come stays only where a method holds on to it. If the run succeeds, then
every action in it has, in branches, loops and batches too.
-/

namespace StateScript

namespace World

/-- Whether a method holds on to a scope. -/
def Held (w : World) (id : ScopeId) : Prop := ∃ handle ∈ w.kept, id ∈ w.chain handle

/-- What a run of actions leaves of the scopes: those that there were stand where they stood, and the ones that
have come are there because a method holds on to them. -/
structure Restored (w after : World) : Prop where
  coherent : after.Coherent
  trees : after.trees = w.trees
  next : w.scopes.next ≤ after.scopes.next
  standing : ∀ id < w.scopes.next, after.shape? id = w.shape? id
  kept : w.kept ⊆ after.kept
  held : ∀ id shape, w.scopes.next ≤ id → after.shape? id = some shape → after.Held id

section

variable {w between after : World}

/-- The chain of a scope consists of scopes that are no newer. -/
theorem chain_of_standing {bound : Nat} (coherent : w.Coherent) (still : after.Coherent)
    (standing : ∀ id < bound, after.shape? id = w.shape? id) {id : ScopeId} (old : id < bound) :
    after.chain id = w.chain id := by
  induction id using Nat.strongRecOn with
  | ind id ih =>
    have same := standing id old
    cases found : w.shape? id with
    | none =>
      rw [found] at same
      rw [chain_of_missing found, chain_of_missing same]
    | some shape =>
      obtain ⟨up, tree⟩ := shape
      rw [found] at same
      cases up with
      | none => rw [chain_of_top found, chain_of_top same]
      | some parent =>
        have older := coherent.older found
        rw [coherent.chain_of_parent found, still.chain_of_parent same, ih parent older (Nat.lt_trans older old)]

theorem Restored.of_shapes (coherent : w.Coherent) (shapes : ∀ id, after.shape? id = w.shape? id)
    (trees : after.trees = w.trees) (next : after.scopes.next = w.scopes.next) (kept : w.kept ⊆ after.kept) :
    w.Restored after where
  coherent := coherent.congr shapes trees
  trees := trees
  next := Nat.le_of_eq next.symm
  standing id _ := shapes id
  kept := kept
  held id shape new found := by
    rw [shapes] at found
    exact absurd new (Nat.not_le.mpr (lt_next_of_shape? found))

theorem Restored.of_beside (coherent : w.Coherent) (beside : w.Beside after) : w.Restored after :=
  .of_shapes coherent (shape?_congr beside.scopes) beside.trees (by rw [beside.scopes]) beside.kept

/-- A write leaves the scopes where they stand. -/
theorem Restored.of_written (coherent : w.Coherent) {owner : ScopeId} {change : Members → Members}
    (beside : (w.modifyBindings owner change).Beside after) : w.Restored after := by
  refine .of_shapes coherent (shape?_of_modified beside.scopes) beside.trees ?_ beside.kept
  rw [beside.scopes]
  rfl

theorem Restored.trans (first : w.Restored between) (second : between.Restored after) : w.Restored after where
  coherent := second.coherent
  trees := second.trees.trans first.trees
  next := Nat.le_trans first.next second.next
  standing id old := (second.standing id (Nat.lt_of_lt_of_le old first.next)).trans (first.standing id old)
  kept := List.Subset.trans first.kept second.kept
  held id shape new found := by
    by_cases newer : between.scopes.next ≤ id
    · exact second.held id shape newer found
    · have before : between.shape? id = some shape := by
        rw [← second.standing id (Nat.lt_of_not_le newer)]
        exact found
      obtain ⟨handle, holds, reached⟩ := first.held id shape new before
      refine ⟨handle, second.kept holds, ?_⟩
      have there : ∃ shape, between.shape? handle = some shape := by
        cases start : between.shape? handle with
        | none => simp [chain_of_missing start] at reached
        | some shape => exact ⟨shape, rfl⟩
      obtain ⟨_, start⟩ := there
      rw [chain_of_standing first.coherent second.coherent second.standing (lt_next_of_shape? start)]
      exact reached

theorem release_of_held {id : ScopeId} (held : w.Held id) : (w.release id []).scopes = w.scopes := by
  obtain ⟨handle, kept, reached⟩ := held
  rw [release_scopes, if_pos]
  exact List.any_eq_true.mpr ⟨handle, kept, by simpa using reached⟩

theorem release_of_not_held {id : ScopeId} (free : ¬ w.Held id) :
    (w.release id []).scopes = w.scopes.erase id := by
  rw [release_scopes, if_neg]
  intro reached
  obtain ⟨handle, kept, hit⟩ := List.any_eq_true.mp reached
  exact free ⟨handle, kept, by simpa using hit⟩

/-- Where a run begins with a scope of its own, it leaves nothing below that scope that would not hold it. -/
theorem Restored.bare {loop : ScopeId} (restored : w.Restored after) (newest : w.scopes.next = loop + 1)
    (free : ¬ after.Held loop) : ∀ child tree, after.shape? child ≠ some (some loop, tree) := by
  intro child tree found
  have newer : w.scopes.next ≤ child := by
    rw [newest]
    exact restored.coherent.older found
  obtain ⟨handle, kept, reached⟩ := restored.held child _ newer found
  exact free ⟨handle, kept, restored.coherent.mem_chain_of_parent reached found⟩

/-- A loop scope is drawn, and then added below its parent. -/
theorem addLoop_eq {id : ScopeId} {up : Option ScopeId} {tree : TreeId} (found : w.shape? id = some (up, tree))
    (var indexVar : String) (item index : Json) : ∃ drawn, w.Beside drawn ∧ w.addLoop id var indexVar item index =
      (drawn.scopes.next, drawn.addScope ⟨loopBindings var indexVar item index, some id, tree⟩) := by
  obtain ⟨_, present⟩ := shape?_eq_some_iff.mp found
  refine ⟨_, beside_modifySession w id fun s => { s with pool := s.pool.acquire.2 }, ?_⟩
  rw [addLoop_of_present present, addScope, modifySession_scopes]

/-- A run inside a new scope, which is given back then. -/
theorem Restored.scoped {scope : Scope} (restored : (w.addScope scope).Restored after) :
    w.Restored (after.release w.scopes.next []) := by
  obtain ⟨_, trees, kept, _⟩ := release_eq after w.scopes.next []
  have newest : (w.addScope scope).scopes.next = w.scopes.next + 1 := rfl
  have standing (id : ScopeId) (old : id < w.scopes.next) :
      (after.release w.scopes.next []).shape? id = w.shape? id := by
    have still := restored.standing id (Nat.lt_of_lt_of_le old (Nat.le_succ _))
    rw [shape?_addScope, if_neg (Nat.ne_of_lt old)] at still
    rcases scope?_release after w.scopes.next id [] with same | ⟨hit, _⟩
    · rw [shape?, same]
      exact still
    · exact absurd hit (Nat.ne_of_lt old)
  refine ⟨?_, trees.trans restored.trees, ?_, standing, ?_, ?_⟩
  · by_cases held : after.Held w.scopes.next
    · exact restored.coherent.congr (shape?_congr (release_of_held held)) trees
    · exact restored.coherent.drop [] (restored.bare newest held)
  · rw [release_next]
    exact Nat.le_trans (Nat.le_succ _) restored.next
  · rw [kept]
    exact restored.kept
  · intro id shape new found
    rw [Held, kept]
    by_cases held : after.Held w.scopes.next
    · have same := release_of_held held
      rw [shape?_congr same] at found
      rw [funext (chain_congr same)]
      by_cases own : id = w.scopes.next
      · exact own ▸ held
      · exact restored.held id shape (Nat.lt_of_le_of_ne new (Ne.symm own)) found
    · have gone := release_of_not_held held
      have different : id ≠ w.scopes.next := by
        rintro rfl
        simp [shape?, scope?, gone, Store.find?_erase] at found
      have before : after.shape? id = some shape := by
        rw [shape?, scope?, gone, Store.find?_erase, if_neg different] at found
        exact found
      obtain ⟨handle, holds, reached⟩ := restored.held id shape (Nat.lt_of_le_of_ne new (Ne.symm different)) before
      refine ⟨handle, holds, ?_⟩
      have apart : w.scopes.next ∉ after.chain handle := fun hit => held ⟨handle, holds, hit⟩
      have chain : (after.release w.scopes.next []).chain handle = after.chain handle := by
        rw [World.chain, gone]
        exact chainWithin_erase apart
      rw [chain]
      exact reached

theorem Restored.notify (restored : w.Restored after) (id : ScopeId) (path : String) (value : Json) :
    w.Restored (after.notify id path value) := by
  refine restored.trans (.of_shapes restored.coherent (shape?_congr (notify_scopes ..)) (notify_trees ..) ?_ ?_)
  · rw [notify_scopes]
  · rw [notify_eq]
    exact List.Subset.refl _

theorem Restored.setPath (coherent : w.Coherent) {id : ScopeId} {path : String} {value : Json}
    (success : ((setPath id path value).run w).1 = .ok ()) : w.Restored ((setPath id path value).run w).2 := by
  obtain ⟨_, _, left, _, _, beside, same⟩ := setPath_tells success
  rw [same]
  exact (Restored.of_written coherent beside).notify ..

theorem Restored.editArray (coherent : w.Coherent) {id : ScopeId} {path : String} {edit : ArrayEdit}
    (success : ((editArray id path edit).run w).1 = .ok ()) : w.Restored ((editArray id path edit).run w).2 := by
  obtain ⟨_, _, _, left, _, _, beside, same⟩ := editArray_tells success
  have written := Restored.of_written coherent beside
  rw [same]
  split
  · exact written.notify ..
  · exact written

end

end World

namespace Execute

open World (Restored)

theorem Turns.trans {root : ScopeId} {tree : TreeId} {w between after : World} {writes more : List Write}
    (first : Turns root tree w writes between) (second : Turns root tree between more after) :
    Turns root tree w (writes ++ more) after := by
  induction second with
  | start => exact (List.append_nil writes).symm ▸ first
  | next _ turn ih =>
    rw [← List.append_assoc]
    exact ih.next turn

theorem Writing.restored {writing : Writing} {id : ScopeId} {m after : Machine} (coherent : m.world.Coherent)
    (prepares : Keeps (fun n => m.world.Beside n.world) writing.prepare)
    (ran : (writing.perform id).run m = (.ok (), after)) : m.world.Restored after.world := by
  cases writing with
  | value path prepared =>
    obtain ⟨v, between, _, apart, success, same⟩ := Writing.perform_ok prepares ran
    have ready := Restored.of_beside coherent apart
    rw [same]
    exact ready.trans (.setPath ready.coherent success)
  | edit path prepared =>
    obtain ⟨change, between, _, apart, success, same⟩ := Writing.perform_ok prepares ran
    have ready := Restored.of_beside coherent apart
    rw [same]
    exact ready.trans (.editArray ready.coherent success)

/-- The scopes form trees, a root stands on top of a certain one, and a scope belongs to it. -/
structure Placed (root : ScopeId) (tree : TreeId) (shared : Tree) (id : ScopeId) (w : World) : Prop where
  coherent : w.Coherent
  top : w.shape? root = some (none, tree)
  there : w.trees.find? tree = some shared
  found : ∃ up, w.shape? id = some (up, tree)

/-- A run of turns that leaves the scopes in place. -/
structure Turned (root : ScopeId) (tree : TreeId) (w after : World) : Prop where
  restored : w.Restored after
  turns : ∃ writes, Turns root tree w writes after

section

variable {root id : ScopeId} {tree : TreeId} {shared : Tree} {w between after : World}

theorem Placed.still (placed : Placed root tree shared id w) (restored : w.Restored after) :
    Placed root tree shared id after where
  coherent := restored.coherent
  top := (restored.standing root (World.lt_next_of_shape? placed.top)).trans placed.top
  there := by rw [restored.trees, placed.there]
  found := by
    obtain ⟨up, found⟩ := placed.found
    exact ⟨up, (restored.standing id (World.lt_next_of_shape? found)).trans found⟩

theorem Turned.trans (first : Turned root tree w between) (second : Turned root tree between after) :
    Turned root tree w after where
  restored := first.restored.trans second.restored
  turns := by
    obtain ⟨_, early⟩ := first.turns
    obtain ⟨_, late⟩ := second.turns
    exact ⟨_, early.trans late⟩

theorem Turned.of_beside (coherent : w.Coherent) (beside : w.Beside after) : Turned root tree w after where
  restored := .of_beside coherent beside
  turns := ⟨_, Turns.start.next (.beside beside)⟩

/-- A scope below which nothing is left that a method does not hold on to is given back. -/
theorem Turn.giveBack {loop : ScopeId} (different : loop ≠ root)
    (bare : ¬ w.Held loop → ∀ child tree, w.shape? child ≠ some (some loop, tree)) :
    Turn root tree w [] (w.release loop []) := by
  by_cases held : w.Held loop
  · obtain ⟨events, trees, kept, _⟩ := World.release_eq w loop []
    refine .beside ⟨World.release_of_held held, trees, ?_, ?_⟩
    · rw [kept]
      exact List.Subset.refl _
    · rw [World.changes, events, World.changes]
  · exact .drop [] different (bare held)

/-- The world with a loop scope in it, and what is left once the scope has been given back. -/
theorem Placed.loop (placed : Placed root tree shared id w) (var indexVar : String) (item index : Json) :
    Placed root tree shared (w.addLoop id var indexVar item index).1 (w.addLoop id var indexVar item index).2 ∧
      ∀ {inner : World}, Turned root tree (w.addLoop id var indexVar item index).2 inner →
        Turned root tree w (inner.release (w.addLoop id var indexVar item index).1 []) := by
  obtain ⟨up, found⟩ := placed.found
  obtain ⟨drawn, beside, made⟩ := World.addLoop_eq found var indexVar item index
  have ready := Restored.of_beside placed.coherent beside
  have before := placed.still ready
  obtain ⟨_, parent⟩ := before.found
  have turn : Turn root tree w [] _ := .addLoop id var indexVar item index
  rw [made] at turn ⊢
  constructor
  · refine ⟨before.coherent.addScope_child parent _, World.shape?_addScope_old before.top _, before.there,
      some id, ?_⟩
    rw [World.shape?_addScope, if_pos rfl]
  · intro inner body
    obtain ⟨_, inside⟩ := body.turns
    have different : drawn.scopes.next ≠ root := (World.ne_next before.top).symm
    have back : Turn root tree inner [] (inner.release drawn.scopes.next []) :=
      .giveBack different (body.restored.bare rfl)
    exact ⟨ready.trans body.restored.scoped, _, ((Turns.start.next turn).trans inside).next back⟩

end

section

variable {root : ScopeId} {tree : TreeId} {shared : Tree} {reenter : Reenter} {budget : Budget}

theorem iterate_turned {id : ScopeId} {var indexVar : String} {item index : Json} {body : ScopeId → ExecuteM Unit}
    (inside : ∀ {scope m after}, Placed root tree shared scope m.world → (body scope).run m = (.ok (), after) →
      Turned root tree m.world after.world) {m after : Machine} (placed : Placed root tree shared id m.world)
    (ran : ((runner reenter budget).iterate id var indexVar item index body).run m = (.ok (), after)) :
    Turned root tree m.world after.world := by
  obtain ⟨made, givesBack⟩ := placed.loop var indexVar item index
  rw [run_iterate] at ran
  dsimp only at ran
  rcases known : (body (m.world.addLoop id var indexVar item index).1).run
    { m with world := (m.world.addLoop id var indexVar item index).2 } with ⟨outcome, inner⟩
  rw [known] at ran
  cases outcome with
  | error why => cases ran
  | ok =>
    cases ran
    exact givesBack (inside made known)

theorem each_turned {id : ScopeId} {var indexVar : String} {body : ScopeId → ExecuteM Unit}
    (inside : ∀ {scope m after}, Placed root tree shared scope m.world → (body scope).run m = (.ok (), after) →
      Turned root tree m.world after.world) {entries : List (Json × Json)} {m after : Machine}
    (placed : Placed root tree shared id m.world)
    (ran : ((runner reenter budget).each id var indexVar body entries).run m = (.ok (), after)) :
    Turned root tree m.world after.world := by
  induction entries generalizing m with
  | nil =>
    cases ran
    exact .of_beside placed.coherent (.refl _)
  | cons entry rest ih =>
    obtain ⟨item, index⟩ := entry
    obtain ⟨_, between, first, later⟩ := run_bind_eq_ok.mp ran
    have once := iterate_turned inside placed first
    exact once.trans (ih (placed.still once.restored) later)

theorem perform_turned (quiet : shared.Quiet) {id : ScopeId} {raw : Json} {action : Action} {m after : Machine}
    (placed : Placed root tree shared id m.world)
    (ran : (perform reenter budget id raw action).run m = (.ok (), after)) :
    Turned root tree m.world after.world := by
  obtain ⟨up, found⟩ := placed.found
  have called := World.quiet_of_shape found placed.there quiet
  cases writes : writing? reenter budget id action with
  | none =>
    have kept := perform_beside called writes raw m (.refl _)
    rw [ran] at kept
    exact .of_beside placed.coherent kept
  | some writing =>
    have turn : Turn root tree m.world _ after.world := .write found writes ran
    rw [perform_of_writing? reenter budget id writes] at ran
    exact ⟨Writing.restored placed.coherent (Writing.prepare_beside called writes) ran, _, Turns.start.next turn⟩

theorem source_beside {id : ScopeId} {source value : Json} {m after : Machine}
    (ran : (onWorld (World.evaluateSource id source)).run m = (.ok value, after)) :
    m.world.Beside after.world := by
  have kept := ((World.Beside.keptByEvaluation m.world).source id source).onWorld m (.refl _)
  rwa [ran] at kept

/-- A step that is carried out has been counted before. -/
theorem run_step_eq_ok {raw : Json} {rest : ExecuteM Unit} {m after : Machine}
    (ran : ((runner reenter budget).step raw rest).run m = (.ok (), after)) :
    ∃ counted : Machine, counted.world = m.world ∧ rest.run counted = (.ok (), after) := by
  rw [run_step] at ran
  split_ifs at ran
  · cases ran
  · cases ran
  · exact ⟨{ m with steps := m.steps + 1 }, rfl, run_of_withAction ran⟩

mutual

theorem runStep_turned (quiet : shared.Quiet)
    (step : Step) {id : ScopeId} {m after : Machine} (placed : Placed root tree shared id m.world)
    (ran : ((runner reenter budget).runStep id step).run m = (.ok (), after)) :
    Turned root tree m.world after.world := by
  match step with
  | .malformed raw fault =>
    rw [Runner.runStep] at ran
    obtain ⟨counted, _, failed⟩ := run_step_eq_ok ran
    cases failed
  | .single raw action =>
    rw [Runner.runStep] at ran
    obtain ⟨counted, same, done⟩ := run_step_eq_ok ran
    rw [← same] at placed ⊢
    exact perform_turned quiet placed done
  | .branch raw cond yes no =>
    have first {m after : Machine} (placed : Placed root tree shared id m.world)
        (ran : ((runner reenter budget).runAll id yes).run m = (.ok (), after)) := runAll_turned quiet yes placed ran
    have second {m after : Machine} (placed : Placed root tree shared id m.world)
        (ran : ((runner reenter budget).runAll id no).run m = (.ok (), after)) := runAll_turned quiet no placed ran
    rw [Runner.runStep] at ran
    obtain ⟨counted, same, done⟩ := run_step_eq_ok ran
    rw [← same] at placed ⊢
    obtain ⟨value, between, known, chosen⟩ := run_bind_eq_ok.mp done
    have decided : Turned root tree counted.world between.world :=
      .of_beside placed.coherent (source_beside known)
    have ready := placed.still decided.restored
    split at chosen
    · exact decided.trans (first ready chosen)
    · exact decided.trans (second ready chosen)
  | .loop raw var indexVar source body =>
    have inside {scope : ScopeId} {m after : Machine} (placed : Placed root tree shared scope m.world)
        (ran : ((runner reenter budget).runAll scope body).run m = (.ok (), after)) :=
      runAll_turned quiet body placed ran
    rw [Runner.runStep] at ran
    obtain ⟨counted, same, done⟩ := run_step_eq_ok ran
    rw [← same] at placed ⊢
    obtain ⟨value, between, known, looped⟩ := run_bind_eq_ok.mp done
    have given : Turned root tree counted.world between.world :=
      .of_beside placed.coherent (source_beside known)
    cases listed : loopEntries value with
    | error e =>
      rw [listed] at looped
      cases looped
    | ok entries =>
      rw [listed] at looped
      exact given.trans (each_turned inside (placed.still given.restored) looped)
  | .batch raw steps =>
    have every {m after : Machine} (placed : Placed root tree shared id m.world)
        (ran : ((runner reenter budget).runEach id 0 steps).run m = (.ok [], after)) :=
      runEach_turned quiet 0 steps placed ran
    rw [Runner.runStep] at ran
    obtain ⟨counted, same, done⟩ := run_step_eq_ok ran
    rw [← same] at placed ⊢
    obtain ⟨failed, between, tried, outcome⟩ := run_bind_eq_ok.mp done
    change (batchOutcome failed steps.length).run between = (.ok (), after) at outcome
    unfold batchOutcome at outcome
    split at outcome
    · rename_i complete
      rw [List.isEmpty_iff.mp complete] at tried
      cases outcome
      exact every placed tried
    · cases outcome
  termination_by structural step

theorem runAll_turned (quiet : shared.Quiet)
    (steps : List Step) {id : ScopeId} {m after : Machine} (placed : Placed root tree shared id m.world)
    (ran : ((runner reenter budget).runAll id steps).run m = (.ok (), after)) :
    Turned root tree m.world after.world := by
  match steps with
  | [] =>
    cases ran
    exact .of_beside placed.coherent (.refl _)
  | step :: rest =>
    have first {m after : Machine} (placed : Placed root tree shared id m.world)
        (ran : ((runner reenter budget).runStep id step).run m = (.ok (), after)) :=
      runStep_turned quiet step placed ran
    have others {m after : Machine} (placed : Placed root tree shared id m.world)
        (ran : ((runner reenter budget).runAll id rest).run m = (.ok (), after)) := runAll_turned quiet rest placed ran
    rw [Runner.runAll] at ran
    obtain ⟨_, between, early, late⟩ := run_bind_eq_ok.mp ran
    have done := first placed early
    exact done.trans (others (placed.still done.restored) late)
  termination_by structural steps

/-- A batch without failures has carried out every step. -/
theorem runEach_turned (quiet : shared.Quiet)
    (index : Nat) (steps : List Step) {id : ScopeId} {m after : Machine}
    (placed : Placed root tree shared id m.world)
    (ran : ((runner reenter budget).runEach id index steps).run m = (.ok [], after)) :
    Turned root tree m.world after.world := by
  match steps with
  | [] =>
    cases ran
    exact .of_beside placed.coherent (.refl _)
  | step :: rest =>
    have first {m after : Machine} (placed : Placed root tree shared id m.world)
        (ran : ((runner reenter budget).runStep id step).run m = (.ok (), after)) :=
      runStep_turned quiet step placed ran
    have others {m after : Machine} (placed : Placed root tree shared id m.world)
        (ran : ((runner reenter budget).runEach id (index + 1) rest).run m = (.ok [], after)) :=
      runEach_turned quiet (index + 1) rest placed ran
    rw [Runner.runEach] at ran
    obtain ⟨outcome, between, early, late⟩ := run_bind_eq_ok.mp ran
    cases outcome with
    | ok =>
      have done := first placed (run_of_attempt early)
      exact done.trans (others (placed.still done.restored) late)
    | error e =>
      exfalso
      dsimp only at late
      split at late
      · cases late
      · obtain ⟨_, _, _, listed⟩ := run_bind_eq_ok.mp late
        cases listed
  termination_by structural steps

end

/-- An execution that succeeds in a scope of the tree is a run of turns, whatever branches, loops and batches
there are in it, and leaves the scopes of before in place. -/
theorem execute_turned {w : World} {id : ScopeId} (quiet : shared.Quiet) (placed : Placed root tree shared id w)
    {actions : List Json} {limits : ExecuteLimits} (success : (execute id actions limits w).1 = .ok ()) :
    Turned root tree w (execute id actions limits w).2 := by
  by_cases empty : actions.isEmpty = true
  · rw [execute_of_empty empty]
    exact .of_beside placed.coherent (.refl w)
  · rw [execute_of_nonempty empty] at success ⊢
    dsimp only at success ⊢
    rcases ran : ((runner (runWithin (maxRunDepth - 1) _) _).runAll id (Step.ofItems actions)).run ⟨w, 0⟩
      with ⟨(e | _) | ⟨⟩, after⟩
    · rw [ran] at success
      cases success
    · rw [ran] at success
      cases success
    · exact runAll_turned quiet (Step.ofItems actions) placed ran

end

end Execute

end StateScript
