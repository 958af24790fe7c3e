import StateScript.Proofs.Agreements
import StateScript.Proofs.CourseInvariants

/-!
Two runs of the same actions that begin in related worlds. Where every operation on worlds comes to the
same in related worlds and leaves related ones, so does a whole run. Loop scopes may lead from one
relation to another, until they are given back. The first run is followed, so that one can tell from
its moments whether it does anything that the relations do not allow for.
-/

namespace StateScript

namespace Execute

/-- Machines that have taken the same number of steps and are in related worlds. -/
structure Matched (related : World → World → Prop) (m m' : Machine) : Prop where
  steps : m.steps = m'.steps
  worlds : related m.world m'.world

/-- A method asks to have a source evaluated that is not allowed. Where only runs count that no timer cuts
short, a timer that goes off is not allowed for either. -/
def Moment.Strays (allowed : String → Prop) (uncut : Prop) (moment : Moment) : Prop :=
  uncut ∧ moment.cut = true ∨ ∃ request ∈ moment.asked, ¬ request.Within allowed

section

variable {α β : Type}

/-- A run that has been dropped, if it counts, or has strayed on its way. -/
def Void (allowed : String → Prop) (uncut : Prop) (ran : Except Interrupt α × Course) : Prop :=
  uncut ∧ ran.1 = .error .dropped ∨ ∃ moment ∈ ran.2.moments, moment.Strays allowed uncut

/-- A followed run only adds moments. -/
def Grows (followed : CourseM α) : Prop := ∀ course, course.moments <+: (followed.run course).2.moments

/-- A followed run and a plain one that begin in related worlds come to the same and leave related worlds,
unless the followed one is void. -/
structure Twin (allowed : String → Prop) (uncut : Prop) (related : World → World → Prop) (followed : CourseM α)
    (plain : ExecuteM α) : Prop where
  grows : Grows followed
  agrees : ∀ course m, Matched related course.machine m → Void allowed uncut (followed.run course) ∨
    (followed.run course).1 = (plain.run m).1 ∧ Matched related (followed.run course).2.machine (plain.run m).2

variable {allowed : String → Prop} {uncut : Prop} {related : World → World → Prop}

theorem Follows.grows {good : World → Prop} {fits : String × String → Prop} {followed : CourseM α}
    {plain : ExecuteM α} (follows : Follows good fits followed plain) : Grows followed := by
  intro course
  obtain ⟨added, ran, _⟩ := follows course
  rw [ran]
  exact List.prefix_append ..

theorem grows_once (operation : ExecuteM α) : Grows (Followed.once operation) :=
  fun _ => List.prefix_append ..

theorem Grows.then {followed : CourseM α} (grows : Grows followed) (b : β) :
    Grows (followed *> Pure.pure b) := by
  intro course
  have grown := grows course
  rw [seqRight_eq_bind, run_bind]
  rcases ran : followed.run course with ⟨e | a, after⟩ <;> rw [ran] at grown <;> exact grown

namespace Twin

/-- What leaves the course and the machine alone. -/
theorem still {followed : CourseM α} {plain : ExecuteM α} (result : Except Interrupt α)
    (stays : ∀ course, followed.run course = (result, course)) (stays' : ∀ m, plain.run m = (result, m)) :
    Twin allowed uncut related followed plain where
  grows course := by rw [stays]
  agrees course m start := by
    rw [stays, stays']
    exact Or.inr ⟨rfl, start⟩

theorem pure (a : α) : Twin allowed uncut related (Pure.pure a) (Pure.pure a) :=
  still _ (fun _ => rfl) fun _ => rfl

theorem throw (why : Interrupt) : Twin allowed uncut related (throw why : CourseM α) (throw why) :=
  still _ (fun _ => rfl) fun _ => rfl

theorem bind {first : CourseM α} {first' : ExecuteM α} {next : α → CourseM β} {next' : α → ExecuteM β}
    (starts : Twin allowed uncut related first first')
    (continues : ∀ a, Twin allowed uncut related (next a) (next' a)) :
    Twin allowed uncut related (first >>= next) (first' >>= next') where
  grows course := by
    have grown := starts.grows course
    rw [run_bind]
    rcases ran : first.run course with ⟨e | a, after⟩ <;> rw [ran] at grown
    · exact grown
    · exact grown.trans ((continues a).grows after)
  agrees course m start := by
    rw [run_bind, run_bind]
    rcases starts.agrees course m start with (⟨counts, dropped⟩ | ⟨moment, passed, strays⟩) | ⟨same, left⟩
    · refine Or.inl (Or.inl ⟨counts, ?_⟩)
      rcases ran : first.run course with ⟨e | a, after⟩ <;> rw [ran] at dropped <;> cases dropped
      rfl
    · refine Or.inl (Or.inr ⟨moment, ?_, strays⟩)
      rcases known : first.run course with ⟨e | a, after⟩ <;> rw [known] at passed
      · exact passed
      · exact ((continues a).grows after).subset passed
    · rcases known : first.run course with ⟨e | a, after⟩ <;> rcases known' : first'.run m with ⟨e' | a', after'⟩ <;>
        rw [known, known'] at same left <;> cases same
      · exact Or.inr ⟨rfl, left⟩
      · exact (continues a).agrees after after' left

/-- What is looked up has to be the same in related worlds. -/
theorem reading {f : World → α} {next : α → CourseM β} {next' : α → ExecuteM β}
    (same : ∀ w w', related w w' → f w = f w')
    (continues : ∀ w, Twin allowed uncut related (next (f w)) (next' (f w))) :
    Twin allowed uncut related (Followed.read f >>= next) ((do return f (← get).world) >>= next') where
  grows course := (continues course.machine.world).grows course
  agrees course m start := by
    show Void allowed uncut ((next (f course.machine.world)).run course) ∨
      ((next (f course.machine.world)).run course).1 = ((next' (f m.world)).run m).1 ∧
        Matched related ((next (f course.machine.world)).run course).2.machine ((next' (f m.world)).run m).2
    rw [← same _ _ start.worlds]
    exact (continues course.machine.world).agrees course m start

/-- A change of outcomes that leaves a dropped run dropped. -/
theorem mapOutcome {followed : CourseM α} {plain : ExecuteM α} (twin : Twin allowed uncut related followed plain)
    {change : Except Interrupt α → Except Interrupt β} (stays : change (.error .dropped) = .error .dropped) :
    Twin allowed uncut related (StateScript.mapOutcome change followed) (StateScript.mapOutcome change plain) where
  grows := twin.grows
  agrees course m start := by
    rcases twin.agrees course m start with (⟨counts, dropped⟩ | strayed) | ⟨same, left⟩
    · exact Or.inl (Or.inl ⟨counts, (congrArg change dropped).trans stays⟩)
    · exact Or.inl (Or.inr strayed)
    · exact Or.inr ⟨congrArg change same, left⟩

theorem attempt {followed : CourseM α} {plain : ExecuteM α} (twin : Twin allowed uncut related followed plain) :
    Twin allowed uncut related (Followed.attempt followed) (Execute.attempt plain) := by
  rw [attempt_eq]
  exact twin.mapOutcome rfl

theorem withAction {followed : CourseM α} {plain : ExecuteM α} (twin : Twin allowed uncut related followed plain)
    (raw : Json) : Twin allowed uncut related (Followed.withAction raw followed) (Execute.withAction raw plain) := by
  rw [withAction_eq]
  exact twin.mapOutcome rfl

theorem ite (condition : Prop) [Decidable condition] {yes no : CourseM α} {yes' no' : ExecuteM α}
    (holds : Twin allowed uncut related yes yes') (fails : Twin allowed uncut related no no') :
    Twin allowed uncut related (if condition then yes else no) (if condition then yes' else no') := by
  split
  · exact holds
  · exact fails

theorem once {operation : ExecuteM α} (respects : Respects (Matched related) operation) :
    Twin allowed uncut related (Followed.once operation) operation where
  grows := grows_once operation
  agrees _ _ start := Or.inr (respects start)

/-- What a method asks for matters as far as it is allowed. -/
theorem asking {request : Request} {answered : CourseM α} {plain : ExecuteM α} (grows : Grows answered)
    (twin : request.Within allowed → Twin allowed uncut related answered plain) :
    Twin allowed uncut related (Followed.asking request answered) plain where
  grows course := (List.prefix_append ..).trans (grows ⟨course.machine, course.moments ++ [_]⟩)
  agrees course m start := by
    by_cases within : request.Within allowed
    · exact (twin within).agrees _ m start
    · refine Or.inl (Or.inr ⟨{ world := course.machine.world, asked := some request }, ?_, ?_⟩)
      · exact (grows _).subset List.mem_concat_self
      · exact Or.inr ⟨request, rfl, within⟩

end Twin

end

end Execute

theorem Agree.onWorld {α : Type} {related : World → World → Prop} {first second : WorldM α}
    (agree : Agree related first second) :
    Agree (Execute.Matched related) (Execute.onWorld first) (Execute.onWorld second) := by
  intro m m' start
  obtain ⟨same, left⟩ := agree start.worlds
  rw [Execute.run_onWorld, Execute.run_onWorld, same]
  exact ⟨rfl, start.steps, left⟩

namespace Execute

section

variable {allowed : String → Prop} {uncut : Prop} {related related' : World → World → Prop}
  {ran : Except Interrupt Unit × Course} {ran' : Except Interrupt Unit × Machine}

/-- Two runs in a loop scope, and what becomes of them as the scope is given back. -/
theorem Void.leaving {scope : ScopeId} (back : ∀ v v', related' v v' →
      related (v.release scope []) (v'.release scope []) ∧ (uncut ∨ related v v'))
    (inside : Void allowed uncut ran ∨ ran.1 = ran'.1 ∧ Matched related' ran.2.machine ran'.2) :
    Void allowed uncut (ran.1, Followed.leaving scope ran.1 ran.2) ∨
      ran.1 = ran'.1 ∧ Matched related (Followed.leaving scope ran.1 ran.2).machine
        { ran'.2 with world := Execute.leaving scope ran'.1 ran'.2.world } := by
  obtain ⟨outcome, course⟩ := ran
  obtain ⟨outcome', m⟩ := ran'
  rcases inside with (dropped | ⟨moment, passed, strays⟩) | ⟨same, left⟩
  · exact Or.inl (Or.inl dropped)
  · refine Or.inl (Or.inr ⟨moment, ?_, strays⟩)
    unfold Followed.leaving
    split
    · exact passed
    · exact List.mem_append_left _ passed
  · obtain ⟨released, kept⟩ := back _ _ left.worlds
    cases same
    rcases outcome with (e | _) | _
    · exact Or.inr ⟨rfl, left.steps, released⟩
    · exact kept.imp (fun counts => Or.inl ⟨counts, rfl⟩) fun still => ⟨rfl, left.steps, still⟩
    · exact Or.inr ⟨rfl, left.steps, released⟩

/-- Two runs under a timer, and what becomes of them as it goes off, if it does. -/
theorem Void.timedOut (limits : ExecuteLimits) (own deadline steps : Nat)
    (inside : Void allowed uncut ran ∨ ran.1 = ran'.1 ∧ Matched related ran.2.machine ran'.2) :
    Void allowed uncut (Execute.timedOut limits own deadline ran.1,
        ⟨{ ran.2.machine with steps }, ran.2.moments ++ Followed.stopped ran.1 ran.2.machine.world⟩) ∨
      Execute.timedOut limits own deadline ran.1 = Execute.timedOut limits own deadline ran'.1 ∧
        Matched related { ran.2.machine with steps } { ran'.2 with steps } := by
  rcases inside with (⟨counts, dropped⟩ | ⟨moment, passed, strays⟩) | ⟨same, left⟩
  · refine Or.inl (Or.inr ⟨{ world := ran.2.machine.world, cut := true }, ?_, Or.inl ⟨counts, rfl⟩⟩)
    refine List.mem_append_right _ ?_
    rw [dropped]
    exact List.mem_singleton.mpr rfl
  · exact Or.inl (Or.inr ⟨moment, List.mem_append_left _ passed, strays⟩)
  · exact Or.inr ⟨congrArg _ same, rfl, left.worlds⟩

end

theorem respects_modifyWorld {related : World → World → Prop} {change : World → World}
    (each : ∀ w w', related w w' → related (change w) (change w')) :
    Respects (Matched related) (modifyWorld change) :=
  fun _ _ start => ⟨rfl, start.steps, each _ _ start.worlds⟩

/-- What a family of relations between worlds has to keep, so that runs which begin in related worlds stay
related. The members of the family say which scopes may act, and a loop scope leads to another member. -/
structure RespectedByActions {ι : Type} (related : ι → World → World → Prop) (acts : ι → ScopeId → Prop)
    (allowed : String → Prop) (uncut : Prop) : Prop where
  scopes : ∀ {i w w'}, related i w w' → w.scopes = w'.scopes
  trees : ∀ {i w w'}, related i w w' → w.trees = w'.trees
  clock : ∀ {i w w'}, related i w w' → w.clock = w'.clock
  evaluation : ∀ i, World.RespectedByEvaluation (related i) allowed
  getPath : ∀ i id path, Respects (related i) (World.getPath id path)
  set : ∀ i id key value, Respects (related i) (World.set id key value)
  setPath : ∀ i id path value, Respects (related i) (World.setPath id path value)
  editArray : ∀ i id path edit, Respects (related i) (World.editArray id path edit)
  record : ∀ {i w w'}, related i w w' → ∀ event, related i (w.record event) (w'.record event)
  keep : ∀ {i w w'}, related i w w' → ∀ id, related i { w with kept := id :: w.kept } { w' with kept := id :: w'.kept }
  wait : ∀ {i w w'}, related i w w' → ∀ time, related i { w with clock := time } { w' with clock := time }
  loop : ∀ {i w w'}, related i w w' → ∀ {id}, acts i id → ∀ var indexVar item index,
    let made := w.addLoop id var indexVar item index
    let made' := w'.addLoop id var indexVar item index
    made.1 = made'.1 ∧ ∃ j, acts j made.1 ∧ related j made.2 made'.2 ∧
      ∀ v v', related j v v' →
        related i (v.release made.1 []) (v'.release made.1 []) ∧ (uncut ∨ related i v v')

namespace RespectedByActions

variable {ι : Type} {related : ι → World → World → Prop} {acts : ι → ScopeId → Prop} {allowed : String → Prop}
  {uncut : Prop} (respected : RespectedByActions related acts allowed uncut)

include respected

section

variable {i : ι} {w w' : World} (start : related i w w')

include start

theorem tree? (id : ScopeId) : w.tree? id = w'.tree? id := by
  simp only [World.tree?, World.scope?, respected.scopes start, respected.trees start]

theorem emitted (id : ScopeId) (event : String) (data : Json) :
    related i (w.emit id event data) (w'.emit id event data) := by
  unfold World.emit
  rw [← respected.tree? start]
  cases w.tree? id with
  | none => exact start
  | some tree =>
    dsimp only
    split
    · exact respected.record start _
    · exact start

end

section

variable (i : ι)

theorem tick (budget : Budget) : Respects (Matched (related i)) (tick budget) := by
  intro m m' start
  rw [run_tick, run_tick, respected.clock start.worlds, start.steps]
  split_ifs
  · exact ⟨rfl, start⟩
  · exact ⟨rfl, start⟩
  · exact ⟨rfl, rfl, start.worlds⟩

theorem suspend (budget : Budget) : Respects (Matched (related i)) (suspend budget) := by
  unfold Execute.suspend
  cases budget.deadline with
  | none => exact Agree.pure _
  | some deadline =>
    refine Agree.get_bind fun m m' start => ?_
    rw [respected.clock start.worlds]
    exact Agree.ite _ (Agree.throw _) (Agree.pure _)

theorem hang (budget : Budget) : Respects (Matched (related i)) (hang budget) := by
  unfold Execute.hang
  cases budget.deadline with
  | none => exact Agree.throw _
  | some deadline =>
    have waits : ∀ w w', related i w w' →
        related i { w with clock := max w.clock deadline } { w' with clock := max w'.clock deadline } := by
      intro w w' start
      rw [respected.clock start]
      exact respected.wait start _
    exact (respects_modifyWorld waits).bind fun _ => Agree.throw _

/-- All requests but the ones to have actions run. -/
theorem answers (budget : Budget) (id : ScopeId) {request : Request} (within : request.Within allowed) :
    Respects (Matched (related i)) (Execute.answer Followed.unentered budget id request) := by
  cases request with
  | getPath path => exact (respected.getPath i id path).onWorld
  | setPath path value => exact (respected.setPath i id path value).onWorld.then _
  | bind key value => exact (respected.set i id key value).onWorld.then _
  | evaluate source => exact ((respected.evaluation i).evaluate id within).onWorld
  | execute actions limits => exact (Agree.pure ()).then _
  | describe =>
    refine Agree.get_bind fun m m' start => ?_
    have same : describe id m.world = describe id m'.world := by
      simp only [describe, World.depth, World.chain, World.bindings, World.scope?, respected.scopes start.worlds]
    rw [same]
    exact Agree.pure _
  | keep => exact (respects_modifyWorld fun w w' start => respected.keep start id).then _
  | suspend => exact (respected.suspend i budget).then _
  | hang => exact (respected.hang i budget).then _
  | block ms =>
    refine (respects_modifyWorld fun w w' start => ?_).then _
    rw [respected.clock start]
    exact respected.wait start _

theorem suited (id : ScopeId) : Suited (Respects (Matched (related i))) id (Json.Within allowed) where
  pure := Agree.pure
  bind := Agree.bind
  fail _ _ := Agree.throw _
  record event := respects_modifyWorld fun _ _ start => respected.record start event
  emit event data := respects_modifyWorld fun _ _ start => respected.emitted start id event data
  param within := ((respected.evaluation i).param id within).onWorld
  params within := ((respected.evaluation i).params id within).onWorld
  inserted within := ((respected.evaluation i).inserted id within).onWorld
  splice within := by
    simp only [List.mem_cons, List.mem_append, Option.mem_toList] at within
    exact ((respected.evaluation i).splice id (within _ (Or.inl rfl))
      (fun v given => within v (Or.inr (Or.inl given))) fun v given => within v (Or.inr (Or.inr given))).onWorld
  setPath path value := (respected.setPath i id path value).onWorld
  editArray path edit := (respected.editArray i id path edit).onWorld

end

omit respected in
theorem trivial_keptByActions : KeptByActions (fun _ => True) fun _ => True where
  beside _ _ := trivial
  set _ _ _ _ _ := trivial
  setPath _ _ _ _ _ := trivial
  editArray _ _ _ _ _ := trivial
  release _ _ _ := trivial
  addLoop _ _ _ _ _ _ := Iff.rfl

section

variable {enter : Followed.Reenter} {enter' : Reenter}
  (follows : ∀ id actions limits, Follows (fun _ => True) (fun _ => True) (enter id actions limits)
    (enter' id actions limits))
  (enters : ∀ i id actions limits, acts i id → Step.Within allowed (Step.ofItems actions) →
    Twin allowed uncut (related i) (enter id actions limits) (enter' id actions limits))
  (budget : Budget) {i : ι} {id : ScopeId} (acting : acts i id)

include follows enters acting

theorem answer (request : Request) : Twin allowed uncut (related i)
    (Followed.answer enter budget id request) (Execute.answer enter' budget id request) := by
  have answers (within : request.Within allowed) := respected.answers i budget id within
  cases request with
  | execute actions limits =>
    refine Twin.asking ((follows id actions limits).grows.then _) fun within => ?_
    unfold Execute.answer
    rw [seqRight_eq_bind, seqRight_eq_bind]
    exact (enters i id actions limits acting within).bind fun _ => Twin.pure _
  | getPath path => exact Twin.asking (grows_once _) fun within => Twin.once (answers within)
  | setPath path value => exact Twin.asking (grows_once _) fun within => Twin.once (answers within)
  | bind key value => exact Twin.asking (grows_once _) fun within => Twin.once (answers within)
  | evaluate source => exact Twin.asking (grows_once _) fun within => Twin.once (answers within)
  | describe => exact Twin.asking (grows_once _) fun within => Twin.once (answers within)
  | keep => exact Twin.asking (grows_once _) fun within => Twin.once (answers within)
  | suspend => exact Twin.asking (grows_once _) fun within => Twin.once (answers within)
  | hang => exact Twin.asking (grows_once _) fun within => Twin.once (answers within)
  | block ms => exact Twin.asking (grows_once _) fun within => Twin.once (answers within)

theorem twin_caller : (Followed.caller enter budget).Related (caller enter' budget) id (fun _ => True)
    (Respects (Matched (related i))) (Twin allowed uncut (related i)) where
  pure := Twin.pure
  bind := Twin.bind
  once := Twin.once
  raise _ _ := Twin.throw _
  read same continues :=
    Twin.reading (fun w w' start => same w w' (respected.tree? start id)) fun w => continues w trivial
  invoke _ _ _ :=
    have told (event : Event) := Twin.once ((respected.suited i id).record event)
    have answers (request : Request) := (respected.answer follows enters budget acting request).attempt
    (Followed.caller enter budget).invoke_related (caller enter' budget) (Twin allowed uncut (related i)) Twin.pure
      Twin.bind told rfl rfl answers fun _ _ => Twin.throw _

omit acting

theorem twin_runner : (Followed.runner enter budget).Related (runner enter' budget) acts (Step.OwnWithin allowed)
    fun i => Twin allowed uncut (related i) where
  pure := Twin.pure
  bind := Twin.bind
  raise _ := Twin.throw _
  step raw _ _ inside := ((Twin.once (respected.tick _ budget)).bind fun _ => inside).withAction raw
  perform acting within :=
    (respected.twin_caller follows enters budget acting).perform (respected.suited _ _) _ within
  condition _ within := Twin.once ((respected.evaluation _).source _ within).onWorld
  source _ within := Twin.once ((respected.evaluation _).source _ within).onWorld
  iterate {i id} var indexVar item index steps acting inside := {
    grows := by
      have runs := trivial_keptByActions.follows_runner follows budget
      exact (runs.iterate (i := ()) var indexVar item index steps trivial fun _ scope _ =>
        trivial_keptByActions.follows_runAll follows budget scope steps).grows
    agrees := by
      intro course m start
      obtain ⟨named, j, within, made, back⟩ := respected.loop start.worlds acting var indexVar item index
      rw [Followed.run_iterate, run_iterate]
      dsimp only
      rw [← named]
      let names := (course.machine.world.scope? id).map fun _ => (var, indexVar)
      let world := (course.machine.world.addLoop id var indexVar item index).2
      exact Void.leaving back ((inside j _ within).agrees
        ⟨{ course.machine with world }, course.moments ++ [{ world, made := names }]⟩
        { m with world := (m.world.addLoop id var indexVar item index).2 } ⟨start.steps, made⟩) }
  collect index raw _ _ _ _ here others := by
    refine here.attempt.bind fun outcome => ?_
    cases outcome with
    | ok => exact others
    | error e => exact Twin.ite _ (Twin.throw _) (others.bind fun _ => Twin.pure _)
  gather _ _ := Twin.once (Agree.ite _ (Agree.pure _) (Agree.throw _))

end

omit respected

theorem timed (respected : RespectedByActions related acts allowed uncut) {i : ι} (limits : ExecuteLimits)
    (outer : Option Nat) {run : Budget → CourseM Unit} {run' : Budget → ExecuteM Unit}
    (runs : ∀ budget, Twin allowed uncut (related i) (run budget) (run' budget)) :
    Twin allowed uncut (related i) (Followed.timed limits outer run) (Execute.timed limits outer run') where
  grows course := by
    rw [Followed.run_timed]
    exact ((runs _).grows { course with machine := { course.machine with steps := 0 } }).trans
      (List.prefix_append ..)
  agrees course m start := by
    rw [Followed.run_timed, run_timed, ← respected.clock start.worlds]
    dsimp only
    rw [← start.steps]
    exact Void.timedOut limits _ _ _ ((runs _).agrees { course with machine := { course.machine with steps := 0 } }
      { m with steps := 0 } ⟨rfl, start.worlds⟩)

theorem runWithin (respected : RespectedByActions related acts allowed uncut) (depth : Nat) (outer : Option Nat)
    (i : ι) (id : ScopeId) (actions : List Json) (limits : ExecuteLimits) (acting : acts i id)
    (within : Step.Within allowed (Step.ofItems actions)) : Twin allowed uncut (related i)
      (Followed.runWithin depth outer id actions limits) (Execute.runWithin depth outer id actions limits) := by
  -- a method that runs actions begins a run that may be one less deep
  induction depth generalizing outer i id actions limits with
  | zero => exact Twin.throw _
  | succ depth ih =>
    have follows := trivial_keptByActions.follows_runWithin depth
    have runs (budget : Budget) := (respected.twin_runner (follows budget.deadline) (ih budget.deadline)
      budget).runAll acting (Step.ofItems actions) within
    exact Twin.ite _ (Twin.pure _) (respected.timed limits outer runs)

/-- Executions of the same actions in related worlds have the same result and leave related worlds, if the
first one does not stray. -/
theorem execute (respected : RespectedByActions related acts allowed uncut) {i : ι} {w w' : World}
    (start : related i w w') {id : ScopeId} (acting : acts i id) {actions : List Json}
    (within : Step.Within allowed (Step.ofItems actions)) (limits : ExecuteLimits)
    (straight : ∀ moment ∈ (Followed.execute id actions limits w).2.moments, ¬ moment.Strays allowed uncut) :
    (execute id actions limits w).1 = (execute id actions limits w').1 ∧
      related i (execute id actions limits w).2 (execute id actions limits w').2 := by
  obtain ⟨added, followed, _⟩ := trivial_keptByActions.follows_runWithin maxRunDepth none id actions limits ⟨⟨w, 0⟩, []⟩
  have twin := (respected.runWithin maxRunDepth none i id actions limits acting within).agrees ⟨⟨w, 0⟩, []⟩ ⟨w', 0⟩
    ⟨rfl, start⟩
  rw [Followed.execute] at straight
  rw [execute_eq, execute_eq]
  rw [followed] at twin straight
  rcases twin with (⟨_, dropped⟩ | ⟨moment, passed, strays⟩) | ⟨same, left⟩
  · exact (runWithin_ne_dropped maxRunDepth id actions limits ⟨w, 0⟩ dropped).elim
  · exact absurd strays (straight moment passed)
  · exact ⟨congrArg (settled limits) same, left.worlds⟩

end RespectedByActions

end Execute

end StateScript
