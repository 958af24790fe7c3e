import StateScript.Proofs.AlikeWorlds
import StateScript.Proofs.GuardedScopes
import StateScript.Proofs.ScopeNumbers

/-!
The pools from which loop scopes are drawn. What a pool keeps does not show in what actions do. Its counts
stay in step at every moment, and a run that no timer cuts short gives back as many maps as it draws.
-/

namespace StateScript

namespace LoopPool

/-- How many maps are drawn and not given back. -/
def outstanding (p : LoopPool) : Int := p.acquired - p.released

/-- Every map that has been given back is thrown away, drawn again or still kept. -/
def Accounted (p : LoopPool) : Prop := p.released = p.discarded + p.reused + p.available

variable {p : LoopPool}

@[simp] theorem outstanding_acquire (p : LoopPool) : p.acquire.2.outstanding = p.outstanding + 1 := by
  unfold acquire
  split <;> simp only [outstanding] <;> omega

@[simp] theorem outstanding_release (vars : Option Members) (p : LoopPool) :
    (p.release vars).outstanding = p.outstanding - 1 := by
  unfold release
  split <;> simp only [outstanding] <;> omega

theorem accounted_new (capacity : Nat) : ({ capacity } : LoopPool).Accounted := rfl

theorem Accounted.acquire (accounted : p.Accounted) : p.acquire.2.Accounted := by
  unfold LoopPool.acquire
  split
  · exact accounted
  · next vars free kept =>
    simp only [Accounted, available, kept, List.length_cons] at accounted ⊢
    omega

theorem Accounted.release (accounted : p.Accounted) (vars : Option Members) : (p.release vars).Accounted := by
  simp only [Accounted] at accounted
  unfold LoopPool.release
  split
  · simp only [Accounted, available, List.length_cons] at accounted ⊢
    omega
  · simp only [Accounted, available] at accounted ⊢
    omega

end LoopPool

namespace World

/-- The pools of all sessions pass. -/
def Pools (good : LoopPool → Prop) (w : World) : Prop := ∀ s pool, w.pool? s = some pool → good pool

/-- What writes inside scopes leave alone: the trees, where scopes stand and the pools. -/
structure SameFrame (w after : World) : Prop where
  trees : after.trees = w.trees
  next : after.scopes.next = w.scopes.next
  shapes : ∀ id, after.shape? id = w.shape? id
  pools : ∀ s, after.pool? s = w.pool? s

section

variable {w between after : World}

theorem SameFrame.refl (w : World) : w.SameFrame w := ⟨rfl, rfl, fun _ => rfl, fun _ => rfl⟩

theorem SameFrame.trans (first : w.SameFrame between) (second : between.SameFrame after) : w.SameFrame after where
  trees := second.trees.trans first.trees
  next := second.next.trans first.next
  shapes id := (second.shapes id).trans (first.shapes id)
  pools s := (second.pools s).trans (first.pools s)

theorem SameFrame.modifySession (frame : w.SameFrame after) (id : ScopeId) {change : Session → Session}
    (keeps : ∀ session, (change session).pool = session.pool) : w.SameFrame (after.modifySession id change) := by
  have untouched := after.untouched_modifySession id keeps
  refine frame.trans ⟨modifySession_trees .., ?_, shape?_congr untouched.scopes, untouched.pools⟩
  rw [untouched.scopes]

theorem SameFrame.modifyBindings (frame : w.SameFrame after) (id : ScopeId) (change : Members → Members) :
    w.SameFrame (after.modifyBindings id change) :=
  frame.trans ⟨rfl, rfl, fun _ => shape?_modifyBindings .., fun _ => rfl⟩

theorem SameFrame.invalidate (frame : w.SameFrame after) (id : ScopeId) (path : String) :
    w.SameFrame (after.invalidate id path) := frame.modifySession id fun _ => rfl

theorem SameFrame.notify (frame : w.SameFrame after) (id : ScopeId) (path : String) (value : Json) :
    w.SameFrame (after.notify id path value) := by
  refine frame.trans ?_
  rw [notify_eq]
  exact ⟨rfl, rfl, fun _ => rfl, fun _ => rfl⟩

theorem SameFrame.afterParsing (frame : w.SameFrame after) (id : ScopeId) (path : String) :
    w.SameFrame (after.afterParsing id path) := by
  rcases afterParsing_eq id path after with same | ⟨paths, same⟩
  · rw [same]
    exact frame
  · rw [same]
    exact frame.modifySession id fun _ => rfl

theorem SameFrame.keptByEvaluation (w : World) : KeptByEvaluation w.SameFrame :=
  .of_sessions fun id _ keeps frame => frame.modifySession id keeps

theorem SameFrame.getPath (w : World) (id : ScopeId) (path : String) : Keeps w.SameFrame (getPath id path) :=
  keeps_getPath (fun id _ keeps frame => frame.modifySession id keeps) id path

theorem SameFrame.set (w : World) (id : ScopeId) (key : String) (value : Json) :
    Keeps w.SameFrame (set id key value) := by
  intro v frame
  rw [run_set]
  cases checkBindable key with
  | error e => exact frame
  | ok => exact ((frame.modifyBindings id _).invalidate id key).notify ..

theorem SameFrame.setPath (w : World) (id : ScopeId) (path : String) (value : Json) :
    Keeps w.SameFrame (setPath id path value) := by
  intro v frame
  have parsed := frame.afterParsing id path
  rw [run_setPath]
  cases target path with
  | error e => exact parsed
  | ok found =>
    have written := parsed.modifyBindings (v.owner id found.1)
      fun _ => (assign found.1 found.2 value (v.bindings (v.owner id found.1))).1
    dsimp only
    cases (assign found.1 found.2 value (v.bindings (v.owner id found.1))).2 with
    | some fault => exact written
    | none => exact (written.invalidate id path).notify ..

theorem SameFrame.updatePath {α : Type} (w : World) (id : ScopeId) (path : String)
    (change : Option Json → Except Error (Option Json × α)) : Keeps w.SameFrame (updatePath id path change) := by
  intro v frame
  have parsed := frame.afterParsing id path
  rw [run_updatePath]
  cases target path with
  | error e => exact parsed
  | ok found =>
    dsimp only
    cases change ((Members.find? found.1 (v.bindings (v.owner id found.1))).bind (Json.get? · found.2)) with
    | error e => exact parsed
    | ok outcome =>
      have left old : w.SameFrame ((v.afterParsing id path).putBack (v.owner id found.1) found.1 found.2 old
          outcome.1) := by
        unfold putBack
        split
        · exact parsed.modifyBindings _ _
        · exact parsed
      have dropped old := ((left old).invalidate id path).invalidate id (Path.wildcardOf path)
      dsimp only
      split
      · exact (dropped _).notify ..
      · exact dropped _

/-- The pools after a loop scope has been made: one has been drawn from. -/
theorem pool?_addLoop {id : ScopeId} {scope : Scope} (present : w.scope? id = some scope) (var indexVar : String)
    (item index : Json) (s : SessionId) : (w.addLoop id var indexVar item index).2.pool? s =
      if (w.tree? id).map Tree.session = some s then (w.pool? s).map fun p => p.acquire.2 else w.pool? s := by
  rw [addLoop_of_present present]
  refine (pool?_modifySession w id _ s).trans ?_
  simp only [pool?, Option.map_map]
  rfl

/-- The pools after a scope has been given back: one has taken it. -/
theorem pool?_release (w : World) (id : ScopeId) (others : List ScopeId) : ∃ vars, ∀ s,
    (w.release id others).pool? s =
      if (w.tree? id).map Tree.session = some s then (w.pool? s).map (LoopPool.release vars) else w.pool? s := by
  refine ⟨if !w.reaches (others ++ w.kept) id then some (w.bindings id) else none, fun s => ?_⟩
  have taken (vars : Option Members) := pool?_modifySession w id (fun s => { s with pool := s.pool.release vars }) s
  simp only [pool?, Option.map_map] at taken ⊢
  unfold World.release
  dsimp only
  split <;> exact taken _

end

theorem Pools.congr {good : LoopPool → Prop} {w after : World} (pools : w.Pools good)
    (same : ∀ s, after.pool? s = w.pool? s) : after.Pools good := by
  intro s pool found
  rw [same] at found
  exact pools s pool found

/-- Actions keep of the pools what drawing and giving back keep. -/
theorem pools_keptByActions {good : LoopPool → Prop} (draws : ∀ p, good p → good p.acquire.2)
    (takes : ∀ vars p, good p → good (p.release vars)) :
    Execute.KeptByActions (Pools good) fun _ => True where
  beside untouched pools := pools.congr untouched.pools
  set id key value w pools := pools.congr (SameFrame.set w id key value w (.refl w)).pools
  setPath id path value w pools := pools.congr (SameFrame.setPath w id path value w (.refl w)).pools
  editArray id path edit w pools := pools.congr (SameFrame.updatePath w id path _ w (.refl w)).pools
  release := by
    intro id w pools s pool found
    obtain ⟨vars, given⟩ := w.pool?_release id []
    rw [given] at found
    split at found
    · obtain ⟨before, there, rfl⟩ := Option.map_eq_some_iff.mp found
      exact takes vars before (pools s before there)
    · exact pools s pool found
  addLoop := by
    intro w id scope present pools var indexVar item index
    refine iff_of_true (fun s pool found => ?_) trivial
    rw [pool?_addLoop present] at found
    split at found
    · obtain ⟨before, there, rfl⟩ := Option.map_eq_some_iff.mp found
      exact draws before (pools s before there)
    · exact pools s pool found

theorem accounted_keptByActions : Execute.KeptByActions (Pools LoopPool.Accounted) fun _ => True :=
  pools_keptByActions (fun _ accounted => accounted.acquire) fun vars _ accounted => accounted.release vars

/-- A later world in which the scopes of before stand where they stood, and every pool has as many maps out
as before. -/
structure Level (w after : World) : Prop where
  trees : after.trees = w.trees
  next : w.scopes.next ≤ after.scopes.next
  standing : ∀ {id shape}, w.shape? id = some shape → after.shape? id = some shape
  out : ∀ s, (after.pool? s).map LoopPool.outstanding = (w.pool? s).map LoopPool.outstanding

section

variable {w between after : World}

theorem Level.trans (first : w.Level between) (second : between.Level after) : w.Level after where
  trees := second.trees.trans first.trees
  next := Nat.le_trans first.next second.next
  standing found := second.standing (first.standing found)
  out s := (second.out s).trans (first.out s)

theorem SameFrame.level (frame : w.SameFrame after) : w.Level after where
  trees := frame.trees
  next := Nat.le_of_eq frame.next.symm
  standing found := (frame.shapes _).trans found
  out s := congrArg _ (frame.pools s)

theorem Level.refl (w : World) : w.Level w := (SameFrame.refl w).level

/-- What happens in a loop scope leaves the pool of the loop with one map more out, which is given back with
the scope. -/
theorem Level.scoped {id : ScopeId} {scope : Scope} (present : w.scope? id = some scope) {var indexVar : String}
    {item index : Json} (level : (w.addLoop id var indexVar item index).2.Level after) :
    w.Level (after.release w.scopes.next []) := by
  have drawn := pool?_addLoop present var indexVar item index
  have made := addLoop_of_present present var indexVar item index
  have grown : (w.addLoop id var indexVar item index).2.scopes =
      (w.scopes.add ⟨loopBindings var indexVar item index, some id, scope.tree⟩).2 := by rw [made]
  have shared : (w.addLoop id var indexVar item index).2.trees = w.trees := by
    rw [made]
    exact modifySession_trees ..
  obtain ⟨_, trees, _, _⟩ := release_eq after w.scopes.next []
  obtain ⟨vars, given⟩ := after.pool?_release w.scopes.next []
  -- the scope that is given back belongs to the tree of the scope that it was made in
  have newest : after.shape? w.scopes.next = some (some id, scope.tree) := by
    refine level.standing ?_
    simp [shape?, scope?, grown, Store.find?_add]
  have own : after.tree? w.scopes.next = w.tree? id := by
    have inTree : w.tree? id = w.trees.find? scope.tree := by simp [tree?, present]
    rw [inTree, ← shared, ← level.trees]
    obtain ⟨bindings, there⟩ := shape?_eq_some_iff.mp newest
    simp [tree?, there]
  constructor
  · rw [trees, level.trees, shared]
  · have older := level.next
    rw [grown] at older
    rw [release_next]
    exact Nat.le_trans (Nat.le_succ _) older
  · intro other shape found
    have different : other ≠ w.scopes.next := Nat.ne_of_lt (lt_next_of_shape? found)
    have still : after.shape? other = some shape := by
      refine level.standing ?_
      rw [shape?, scope?, grown, Store.find?_add, if_neg different]
      exact found
    rcases scope?_release after w.scopes.next other [] with same | ⟨hit, _⟩
    · rw [shape?, same]
      exact still
    · exact absurd hit different
  · intro s
    have out := level.out s
    rw [drawn] at out
    rw [given, own]
    split at out
    · next here =>
      rw [if_pos here, Option.map_map]
      rw [Option.map_map] at out
      have back : LoopPool.outstanding ∘ LoopPool.release vars = (· - 1) ∘ LoopPool.outstanding :=
        funext fun p => p.outstanding_release vars
      have forth : (LoopPool.outstanding ∘ fun p : LoopPool => p.acquire.2) = (· + 1) ∘ LoopPool.outstanding :=
        funext LoopPool.outstanding_acquire
      rw [back, ← Option.map_map, out, forth, Option.map_map, ← Function.comp_assoc]
      congr 1
      funext p
      simp
    · next elsewhere =>
      rw [if_neg elsewhere]
      exact out

/-- One run beside itself, by which the pools stay level. -/
theorem level_respectedByActions : Execute.RespectedByActions (fun base w w' => w = w' ∧ base.Level w)
    (fun (base : World) id => ∃ scope, base.scope? id = some scope) (fun _ => True) True := by
  have framed {α : Type} {operation : WorldM α} (keeps : ∀ w : World, Keeps w.SameFrame operation) (base : World) :
      Respects (fun w w' => w = w' ∧ base.Level w) operation := by
    rintro w _ ⟨rfl, level⟩
    exact ⟨rfl, rfl, level.trans (keeps w w (.refl w)).level⟩
  have evaluated := SameFrame.keptByEvaluation
  constructor
  case scopes => exact fun same => congrArg World.scopes same.1
  case trees => exact fun same => congrArg World.trees same.1
  case clock => exact fun same => congrArg World.clock same.1
  case evaluation =>
    exact fun base =>
      { evaluate := fun id source _ => framed (fun w => (evaluated w).evaluate id source) base
        interpolate := fun id template _ => framed (fun w => (evaluated w).interpolate id template) base
        resolveValue := fun id v _ => framed (fun w => (evaluated w).resolveValue id v) base }
  case getPath => exact fun base id path => framed (fun w => SameFrame.getPath w id path) base
  case set => exact fun base id key value => framed (fun w => SameFrame.set w id key value) base
  case setPath => exact fun base id path value => framed (fun w => SameFrame.setPath w id path value) base
  case editArray => exact fun base id path edit => framed (fun w => SameFrame.updatePath w id path _) base
  case record =>
    rintro base w _ ⟨rfl, level⟩ event
    exact ⟨rfl, level.trans ⟨rfl, Nat.le_refl _, id, fun _ => rfl⟩⟩
  case keep =>
    rintro base w _ ⟨rfl, level⟩ id
    exact ⟨rfl, level.trans ⟨rfl, Nat.le_refl _, fun found => found, fun _ => rfl⟩⟩
  case wait =>
    rintro base w _ ⟨rfl, level⟩ time
    exact ⟨rfl, level.trans ⟨rfl, Nat.le_refl _, fun found => found, fun _ => rfl⟩⟩
  case loop =>
    rintro base w _ ⟨rfl, level⟩ id ⟨scope, present⟩ var indexVar item index
    have found : base.shape? id = some (scope.parent, scope.tree) := by simp [shape?, present]
    obtain ⟨bindings, there⟩ := shape?_eq_some_iff.mp (level.standing found)
    have made := addLoop_of_present there var indexVar item index
    refine ⟨rfl, (w.addLoop id var indexVar item index).2, ?_, ⟨rfl, .refl _⟩, ?_⟩
    · refine ⟨⟨loopBindings var indexVar item index, some id, scope.tree⟩, ?_⟩
      rw [made]
      simp [scope?, Store.find?_add]
    · rintro v _ ⟨rfl, after⟩
      refine ⟨⟨rfl, ?_⟩, Or.inl trivial⟩
      rw [made] at after ⊢
      exact level.trans (Level.scoped there (made ▸ after))

end

end World

/-- Sessions that are the same but for their pools. -/
def SessionRelation.butPools : SessionRelation := fun _ a b => a.engine = b.engine ∧ a.paths = b.paths

/-- Nothing but pools depends on pools. -/
theorem SessionRelation.butPools_respectedByChanges : butPools.RespectedByChanges fun _ => True := by
  have engines {α : Type} (operation : EngineM α) : butPools.Respected operation := by
    intro s a b same
    rw [same.1]
    exact ⟨rfl, rfl, same.2⟩
  constructor
  case paths => exact fun same => same.2
  case parsing => exact fun same _ => ⟨same.1, rfl⟩
  case invalidation =>
    intro s a b same path
    rw [same.1]
    exact ⟨rfl, same.2⟩
  case drawing => exact id
  case release => exact fun same _ => same
  case evaluate => exact fun _ resolver options => engines _
  case interpolate => exact fun _ resolver options => engines _
  case resolveValue => exact fun _ resolver options => engines _

/-- Worlds that are the same but for what their pools can hold, keep and have counted. -/
def World.SameButPools (w w' : World) : Prop := w.Alike w.trees .butPools w'

namespace Execute

open World (SameButPools Pools Level)

section

variable (id : ScopeId) (actions : List Json) (limits : ExecuteLimits)

/-- No timer goes off in the run, nor in one that a method has within it. -/
def Uncut (w : World) : Prop := ∀ moment ∈ (Followed.execute id actions limits w).2.moments, moment.cut = false

/-- What pools have room for, keep and have counted does not show in an execution. -/
theorem execute_sameButPools {w w' : World} (same : w.SameButPools w') :
    (execute id actions limits w).1 = (execute id actions limits w').1 ∧
      (execute id actions limits w).2.SameButPools (execute id actions limits w').2 := by
  have respected : RespectedByActions (fun _ : Unit => World.Alike w.trees .butPools) _ (fun _ => True) False :=
    World.alike_respectedByActions SessionRelation.butPools_respectedByChanges
  have within : Step.Within (fun _ => True) (Step.ofItems actions) := Step.within_of_all (fun _ => trivial) _
  obtain ⟨result, left⟩ := respected.execute (i := ()) same trivial within limits fun moment _ => by
    rintro (⟨⟨⟩, _⟩ | ⟨request, _, asked⟩)
    exact asked (Request.within_of_all (fun _ => trivial) request)
  refine ⟨result, ?_⟩
  rw [SameButPools, left.left]
  exact left

/-- An execution that no timer cuts short gives back as many maps as it draws. -/
theorem execute_level {w : World} {scope : Scope} (present : w.scope? id = some scope)
    (whole : Uncut id actions limits w) : w.Level (execute id actions limits w).2 := by
  have start : w = w ∧ w.Level w := ⟨rfl, .refl w⟩
  have within : Step.Within (fun _ => True) (Step.ofItems actions) := Step.within_of_all (fun _ => trivial) _
  obtain ⟨_, _, level⟩ := World.level_respectedByActions.execute start ⟨scope, present⟩ within limits
    fun moment passed => by
      rintro (⟨_, cut⟩ | ⟨request, _, asked⟩)
      · rw [whole moment passed] at cut
        cases cut
      · exact asked (Request.within_of_all (fun _ => trivial) request)
  exact level

end

/-- A pool is not seen: whatever it has room for and however it has been used, actions have the same result and
the same effects. A run that no timer cuts short, also one that fails, leaves as many maps out as there were. At
every moment of a run all maps in a pool are empty, there are no more than there is room for, and none is
unaccounted for, if that was so at the start. Each iteration begins in a scope that binds nothing but what its
loop binds. -/
theorem pooling_unseen_and_level {w : World} {id : ScopeId} {scope : Scope} (present : w.scope? id = some scope)
    (actions : List Json) (limits : ExecuteLimits) :
    (∀ w', w.SameButPools w' → (execute id actions limits w).1 = (execute id actions limits w').1 ∧
      (execute id actions limits w).2.SameButPools (execute id actions limits w').2) ∧
    (Uncut id actions limits w → ∀ s, ((execute id actions limits w).2.pool? s).map LoopPool.outstanding =
      (w.pool? s).map LoopPool.outstanding) ∧
    let followed := Followed.execute id actions limits w
    (followed.1, followed.2.machine.world) = execute id actions limits w ∧
    (∀ moment ∈ followed.2.moments, moment.world.Pools fun p =>
      (∀ vars ∈ p.free, vars = []) ∧ p.available ≤ p.capacity) ∧
    (w.Pools LoopPool.Accounted → ∀ moment ∈ followed.2.moments, moment.world.Pools LoopPool.Accounted) ∧
    ∀ moment ∈ followed.2.moments, ∀ names ∈ moment.made, ∀ key,
      moment.world.binds key (moment.world.scopes.next - 1) = true ↔
        key = names.1 ∨ key = names.2 ∨ key = "$item" ∨ key = "$index" := by
  have kept := World.accounted_keptByActions
  refine ⟨fun w' same => execute_sameButPools id actions limits same,
    fun whole => (execute_level id actions limits present whole).out, ?_, ?_, ?_, ?_⟩
  · exact ((ages_keptByActions w).execute_good_iff (.refl w) id actions limits).1
  · exact fun moment _ s pool _ => ⟨pool.cleared, pool.bounded⟩
  · intro accounted
    exact (kept.execute_good_iff accounted id actions limits).2.mpr fun _ _ _ _ => trivial
  · intro moment passed names made key
    obtain ⟨item, index, bound⟩ := kept.execute_fresh w id actions limits moment passed names made
    rw [World.binds, bound, World.contains_loopBindings]
    tauto

/-- A loop inside a loop whose body fails. -/
def failingLoops : Json :=
  .object [("body", .array [.object [("body", .array [.object [("type", .string "nothing")]]),
      ("in", .array [.null]), ("type", .string "loop"), ("var", .string "inner")]]),
    ("in", .array [.null]), ("type", .string "loop"), ("var", .string "outer")]

theorem pooling_unseen_and_level_at_failingLoops :
    let w := World.holding []
    let unpooled := w.modifySession 1 fun s => { s with pool := { capacity := 0 } }
    w.scope? 1 = some ⟨[], none, 1⟩ ∧ Uncut 1 [failingLoops] {} w ∧ w.Pools LoopPool.Accounted ∧
      (execute 1 [failingLoops] {} w).1 = (execute 1 [failingLoops] {} unpooled).1 ∧
      ((execute 1 [failingLoops] {} w).2.pool? 1).map LoopPool.outstanding = some 0 ∧
      (Followed.execute 1 [failingLoops] {} w).2.moments.filterMap Moment.made =
        [("outer", "index"), ("inner", "index")] ∧
      ∀ moment ∈ (Followed.execute 1 [failingLoops] {} w).2.moments, moment.world.Pools LoopPool.Accounted := by
  intro w unpooled
  have present : w.scope? 1 = some ⟨[], none, 1⟩ := rfl
  have whole : Uncut 1 [failingLoops] {} w := by
    have none' : (Followed.execute 1 [failingLoops] {} w).2.moments.all (fun moment => !moment.cut) = true := by
      decide +kernel
    intro moment passed
    simpa using List.all_eq_true.mp none' moment passed
  have single (s : SessionId) : w.sessions.find? s = if s = 1 then some (.ofCapacities 10 1024) else none :=
    Store.lookup_cons_eq_if s 1 _ []
  have accounted : w.Pools LoopPool.Accounted := by
    intro s pool found
    rw [World.pool?, single] at found
    split at found
    · cases found
      exact LoopPool.accounted_new 10
    · cases found
  have same : w.SameButPools unpooled := by
    refine ⟨rfl, rfl, rfl, rfl, rfl, rfl, rfl, fun s => ?_⟩
    show Option.Rel _ (w.sessions.find? s) ((w.sessions.modify 1 _).find? s)
    rw [Store.find?_modify, single]
    by_cases own : s = 1
    · rw [if_pos own, if_pos own]
      exact .some ⟨rfl, rfl⟩
    · rw [if_neg own, if_neg own]
      exact .none
  have named : (Followed.execute 1 [failingLoops] {} w).2.moments.filterMap Moment.made =
      [("outer", "index"), ("inner", "index")] := by decide +kernel
  obtain ⟨unseen, level, _, _, counted, _⟩ := pooling_unseen_and_level present [failingLoops] {}
  exact ⟨present, whole, accounted, (unseen unpooled same).1, level whole 1, named, counted accounted⟩

end Execute

end StateScript
