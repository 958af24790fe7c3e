import StateScript.Proofs.Batches
import StateScript.Proofs.MirroredRuns
import StateScript.Proofs.UnattributedErrors

/-!
The action that an error names. The plain run fails with the errors of the stacked one; so each of them names the
innermost action that is under way when it arises, also where a method hands it on.
-/

namespace StateScript

namespace Failure

mutual

/-- A failure arises while some actions are under way, the innermost one first. An error that is raised there names
no action yet, one that a method hands on arises where the failure did that the method has been told of, and each of
the failures of a batch arises during the action that it belongs to. -/
inductive ArisesAt : List Json → Failure → Prop
  | raised {e : Error} {told : List Failure} {underWay : List Json} (bare : e.Unattributed) :
      ArisesAt underWay (.raised e told underWay)
  | handedOn {e : Error} {told : List Failure} {underWay stack : List Json} {failure : Failure}
      (named : ¬ e.Unattributed) (member : failure ∈ told) (same : e = failure.error) (deeper : underWay <:+ stack)
      (inside : ArisesAt stack failure) : ArisesAt stack (.raised e told underWay)
  | gathered {failed : List (Nat × Json × Failure)} {total : Nat} {underWay : List Json}
      (inside : ∀ entry ∈ failed, ArisesBelow (entry.2.1 :: underWay) entry.2.2) :
      ArisesAt underWay (.gathered failed total underWay)

/-- A failure arises while some actions are under way, and maybe others inside them, and its error names the
innermost one. -/
inductive ArisesBelow : List Json → Failure → Prop
  | intro {base stack : List Json} {failure : Failure} (below : base <:+ stack) (arises : ArisesAt stack failure)
      (names : failure.error.context.action = stack.head?) : ArisesBelow base failure

end

theorem action_blaming (underWay : List Json) (e : Error) :
    (blaming underWay e).context.action = underWay.head? := by
  cases e <;> rfl

theorem error_raised (e : Error) (told : List Failure) (outer : List Json) (raw : Json) :
    (raised e told (raw :: outer)).error = e.withAction raw := by
  unfold error Error.withAction
  cases e.context.action <;> rfl

theorem late_error (limits : ExecuteLimits) : (late limits).error = Execute.timeoutError limits := rfl

/-- The error of a failure names the innermost action that is under way when it arises. -/
theorem ArisesAt.action {stack : List Json} {failure : Failure} :
    failure.ArisesAt stack → failure.error.context.action = stack.head?
  | .raised bare => by
    rw [error, bare]
    exact action_blaming ..
  | .handedOn named _ same _ inside => by
    have some := Option.isSome_iff_ne_none.mpr named
    rw [error, if_pos some, same]
    exact inside.action
  | .gathered _ => action_blaming ..
  termination_by structural arises => arises

theorem ArisesAt.arisesBelow {base stack : List Json} {failure : Failure} (arises : failure.ArisesAt stack)
    (below : base <:+ stack) : failure.ArisesBelow base :=
  .intro below arises arises.action

namespace ArisesBelow

variable {base : List Json} {raw : Json} {failure : Failure}

theorem mono (arises : failure.ArisesBelow base) {outer : List Json} (less : outer <:+ base) :
    failure.ArisesBelow outer := by
  obtain ⟨below, arises, _⟩ := arises
  exact arises.arisesBelow (less.trans below)

/-- Once an action is named, it stays. -/
theorem withAction_error (arises : failure.ArisesBelow (raw :: base)) (other : Json) :
    failure.error.withAction other = failure.error := by
  obtain ⟨⟨inner, rfl⟩, _, named⟩ := arises
  unfold Error.withAction
  rw [named]
  cases inner <;> rfl

end ArisesBelow

end Failure

/-- Whatever it is answered, an interaction that fails with a service error has either made this itself and names no
action in it, or has been told of it by actions that it has had run; no other answer names an action. Any other
failure gets an error around it, which names none. -/
def Interaction.Candid (told : List Error) : Interaction → Prop
  | .done _ => True
  | .failed failure => ∀ e, failure = .error e → e.isService = true → e.Unattributed ∨ e ∈ told
  | .ask (.execute _ _) next =>
    (∀ v, (next (.ok v)).Candid told) ∧ ∀ e, (next (.error e)).Candid (e :: told)
  | .ask _ next => ∀ response, FaultsWith Error.Unattributed response → (next response).Candid told

/-- All methods of a world name no action in errors of their own. -/
def World.Candid (w : World) : Prop :=
  ∀ tree shared, w.trees.find? tree = some shared →
    ∀ name method, shared.methods.lookup name = some method → ∀ params, (method params).Candid []

namespace World.Candid

variable {w after : World}

theorem congr (candid : w.Candid) (same : after.trees = w.trees) : after.Candid := by
  unfold World.Candid
  rw [same]
  exact candid

theorem method (candid : w.Candid) {id : ScopeId} {name : String} {method : Method}
    (found : w.method? id name = some method) (params : Json) : (method params).Candid [] := by
  unfold World.method? World.methods at found
  cases inTree : w.tree? id with
  | none =>
    rw [inTree] at found
    cases found
  | some shared =>
    rw [inTree] at found
    obtain ⟨scope, _, there⟩ := Option.bind_eq_some_iff.mp inTree
    exact candid scope.tree shared there name method found params

end World.Candid

namespace Execute

/-- The error is the one of a failure that has arisen while some actions were under way. -/
structure Named (base : List Json) (e : Error) (failure : Failure) : Prop where
  error : e = failure.error
  arises : failure.ArisesBelow base

/-- The error is the one of a failure that has arisen during an action as soon as this is named in it. -/
structure Unnamed (outer : List Json) (raw : Json) (e : Error) (failure : Failure) : Prop where
  error : e.withAction raw = failure.error
  arises : failure.ArisesBelow (raw :: outer)

/-- The error is the one of a failure that has arisen during one of some steps. -/
def NamedAmong (underWay : List Json) (steps : List Step) (e : Error) (failure : Failure) : Prop :=
  ∃ step ∈ steps, Named (step.raw :: underWay) e failure

namespace Mirrors

section

variable {α β : Type} {before : World} {agree : Error → Failure → Prop} {fit : α → β → Prop} (outer : List Json)
  (raw : Json)

/-- An operation that names no action in its errors is taken as it is. -/
theorem during {operation : ExecuteM α} (leads : LeadsOn before operation)
    (fails : FailsWith Interrupt.Unattributed operation) :
    Mirrors before (raw :: outer) (Unnamed outer raw) Eq operation (Stacked.during operation) := by
  intro m onward
  have later := leads m onward
  have unattributed := fails m
  unfold Stacked.during
  simp only [ReaderT.run_mk, ExceptT.run_mk]
  revert later unattributed
  rcases operation.run m with ⟨(e | _) | a, after⟩ <;> intro later unattributed
  · have bare : e.Unattributed := unattributed _ rfl
    have named := (Failure.error_raised e [] outer raw).symm
    have arises : Failure.ArisesBelow (raw :: outer) (.raised e [] (raw :: outer)) :=
      Failure.ArisesAt.arisesBelow (.raised bare) (List.suffix_refl _)
    exact ⟨_, _, after, rfl, rfl, later, .failed ⟨named, arises⟩⟩
  · exact ⟨_, _, after, rfl, rfl, later, .dropped⟩
  · exact ⟨_, _, after, rfl, rfl, later, .ok rfl⟩

theorem caught (underWay : List Json) {operation : ExecuteM α} (leads : LeadsOn before operation)
    (fails : FailsWith Interrupt.Unattributed operation) :
    Mirrors before underWay agree (fun a b => a = b ∧ FaultsWith Error.Unattributed a) (attempt operation)
      (Stacked.during (attempt operation)) := by
  intro m onward
  have later := leads m onward
  have unattributed := fails m
  unfold attempt Stacked.during
  simp only [ReaderT.run_mk, ExceptT.run_mk]
  revert later unattributed
  rcases operation.run m with ⟨(e | _) | a, after⟩ <;> intro later unattributed
  · refine ⟨_, _, after, rfl, rfl, later, .ok ⟨rfl, ?_⟩⟩
    rintro _ ⟨⟩
    exact unattributed _ rfl
  · exact ⟨_, _, after, rfl, rfl, later, .dropped⟩
  · refine ⟨_, _, after, rfl, rfl, later, .ok ⟨rfl, ?_⟩⟩
    rintro _ ⟨⟩

/-- What fails in a step itself names no action yet, and what fails in a list inside it names one already; in both
cases naming the step gives the error of the failure. -/
theorem withAction {plain : ExecuteM α} {stacked : StackM β}
    (inside : Mirrors before (raw :: outer) (Unnamed outer raw) fit plain stacked) :
    Mirrors before outer (Named (raw :: outer)) fit (withAction raw plain) (withReader (raw :: ·) stacked) := by
  intro m onward
  obtain ⟨outcome, outcome', after, ran, ran', later, same⟩ := inside m onward
  rw [withAction_eq]
  refine ⟨attributed raw outcome, outcome', after, ?_, ran', later, ?_⟩
  · show (attributed raw (plain.run m).1, (plain.run m).2) = _
    rw [ran]
  · cases same with
    | ok fits => exact .ok fits
    | failed agrees => exact .failed ⟨agrees.error, agrees.arises⟩
    | dropped => exact .dropped

end

/-- A step that is counted and carried out. -/
theorem step (reenter : Reenter) (stacked : Stacked.Reenter) (budget : Budget) {before : World} {outer : List Json}
    (raw : Json) {plain : ExecuteM Unit} {run : StackM Unit}
    (inside : Mirrors before (raw :: outer) (Unnamed outer raw) Eq plain run) :
    Mirrors before outer (Named (raw :: outer)) Eq ((runner reenter budget).step raw plain)
      ((Stacked.runner stacked budget).step raw run) :=
  ((during outer raw (onward_tick budget) (fails_tick budget)).bind fun _ _ _ => inside).withAction outer raw

end Mirrors

theorem NamedAmong.later {underWay : List Json} {steps : List Step} {e : Error} {failure : Failure}
    (named : NamedAmong underWay steps e failure) (step : Step) : NamedAmong underWay (step :: steps) e failure := by
  obtain ⟨other, member, named⟩ := named
  exact ⟨other, List.mem_cons_of_mem step member, named⟩

theorem NamedAmong.unnamed {outer : List Json} {raw : Json} {steps : List Step} {e : Error} {failure : Failure}
    (named : NamedAmong (raw :: outer) steps e failure) : Unnamed outer raw e failure := by
  obtain ⟨step, _, rfl, arises⟩ := named
  exact ⟨arises.withAction_error raw, arises.mono (List.suffix_cons _ _)⟩

/-- The failures of a batch: the errors are theirs, and each of them has arisen during its sub-action. -/
structure Gathers (underWay : List Json) (failed : List (Nat × Json × Error))
    (gathered : List (Nat × Json × Failure)) : Prop where
  errors : failed = Failure.errors gathered
  arise : ∀ entry ∈ gathered, entry.2.2.ArisesBelow (entry.2.1 :: underWay)

theorem Gathers.unnamed {outer : List Json} {raw : Json} {failed : List (Nat × Json × Error)}
    {gathered : List (Nat × Json × Failure)} (gathers : Gathers (raw :: outer) failed gathered) (total : Nat) :
    Unnamed outer raw (.ofFailures failed total) (.gathered gathered total (raw :: outer)) := by
  obtain ⟨rfl, arise⟩ := gathers
  exact ⟨rfl, Failure.ArisesAt.arisesBelow (.gathered arise) (List.suffix_refl _)⟩

theorem Gathers.isEmpty_eq {underWay : List Json} {failed : List (Nat × Json × Error)}
    {gathered : List (Nat × Json × Failure)} (gathers : Gathers underWay failed gathered) :
    failed.isEmpty = gathered.isEmpty := by
  obtain ⟨rfl, _⟩ := gathers
  cases gathered <;> rfl

/-- The error is the one of a failure that a run ends with: its timer has gone off, or the failure has arisen during
one of its actions. -/
structure Ends (underWay : List Json) (actions : List Json) (limits : ExecuteLimits) (e : Error)
    (failure : Failure) : Prop where
  error : e = failure.error
  arises : failure = .late limits ∨ ∃ raw ∈ actions, failure.ArisesBelow (raw :: underWay)

/-- What a method has run does the same as a stacked run below the actions that are under way. -/
def MirrorsRuns (before : World) (reenter : Reenter) (stacked : Stacked.Reenter) : Prop :=
  ∀ underWay id actions limits, Mirrors before underWay (Ends underWay actions limits) Eq (reenter id actions limits)
    (stacked id actions limits)

/-- An error that a method has been told of names no action, or the innermost one of a failure below the call. -/
def Known (underWay : List Json) (told : List Failure) (e : Error) : Prop :=
  e.Unattributed ∨ ∃ failure ∈ told, Named underWay e failure

theorem Ends.known {underWay actions : List Json} {limits : ExecuteLimits} {e : Error} {failure : Failure}
    (ends : Ends underWay actions limits e failure) (told : List Failure) :
    Known underWay (failure :: told) e := by
  obtain ⟨rfl, rfl | ⟨raw, _, arises⟩⟩ := ends
  · exact Or.inl rfl
  · exact Or.inr ⟨failure, List.mem_cons_self, rfl, arises.mono (List.suffix_cons _ _)⟩

theorem Known.more {underWay : List Json} {told : List Failure} {e : Error} (known : Known underWay told e)
    (failure : Failure) : Known underWay (failure :: told) e := by
  obtain bare | ⟨other, member, named⟩ := known
  · exact Or.inl bare
  · exact Or.inr ⟨other, List.mem_cons_of_mem failure member, named⟩

/-- A method is told the same in both runs. From there on it is candid, and it knows the failures of all actions that
it has had run. -/
structure Hears (underWay : List Json) (next : Except Error Json → Interaction) (response : Except Error Json)
    (answered : Except Error Json × List Failure) : Prop where
  same : response = answered.1
  candid : ∃ received, (next response).Candid received ∧ ∀ e ∈ received, Known underWay answered.2 e

/-- What a method comes to in the plain run and in the stacked one. An error that it hands on is known to it. -/
inductive Concludes (underWay : List Json) :
    Except MethodFailure Json → Except (MethodFailure × List Failure) Json → Prop
  | ok (value : Json) : Concludes underWay (.ok value) (.ok value)
  | error {failure : MethodFailure} {told : List Failure}
      (known : ∀ e, failure = .error e → e.isService = true → Known underWay told e) :
      Concludes underWay (.error failure) (.error (failure, told))

/-- The error of a call is raised by the method itself, or arises where the failure did that is handed on. -/
theorem unnamed_of_known (name : String) {failure : MethodFailure} {told : List Failure} {outer : List Json}
    {raw : Json} (known : ∀ e, failure = .error e → e.isService = true → Known (raw :: outer) told e) :
    Unnamed outer raw (failure.toError name) (.raised (failure.toError name) told (raw :: outer)) := by
  refine ⟨(Failure.error_raised ..).symm, ?_⟩
  by_cases bare : (failure.toError name).Unattributed
  · exact Failure.ArisesAt.arisesBelow (.raised bare) (List.suffix_refl _)
  cases failure with
  | messages => exact absurd rfl bare
  | error e =>
    by_cases service : e.isService = true
    · have passed : (MethodFailure.error e).toError name = e := if_pos service
      rw [passed] at bare ⊢
      obtain own | ⟨inner, member, same, ⟨deeper, arises, _⟩⟩ := known e rfl service
      · exact absurd own bare
      · exact Failure.ArisesAt.arisesBelow (.handedOn bare member same deeper arises) deeper
    · have wrapped : ((MethodFailure.error e).toError name).Unattributed := by
        unfold MethodFailure.toError
        dsimp only
        rw [if_neg service]
        rfl
      exact absurd wrapped bare

section

variable {before : World} {reenter : Reenter} {stacked : Stacked.Reenter}
  (enters : MirrorsRuns before reenter stacked) (budget : Budget) (id : ScopeId)

theorem onward_unentered (id : ScopeId) (actions : List Json) (limits : ExecuteLimits) :
    LeadsOn before (Followed.unentered id actions limits) := Keeps.pure _

include enters

theorem mirrors_answer {underWay : List Json} {agree : Error → Failure → Prop} {request : Request}
    {next : Except Error Json → Interaction} {received : List Error} {told : List Failure}
    (candid : (Interaction.ask request next).Candid received) (known : ∀ e ∈ received, Known underWay told e) :
    Mirrors before underWay agree (Hears underWay next) (attempt (answer reenter budget id request))
      ((Stacked.answer stacked budget id request).run told) := by
  have asked (request : Request)
      (candid : ∀ response, FaultsWith Error.Unattributed response → (next response).Candid received) :
      Mirrors before underWay agree (Hears underWay next) (attempt (answer Followed.unentered budget id request))
        (Stacked.during (attempt (answer Followed.unentered budget id request)) >>= fun response =>
          pure (response, told)) := by
    refine (Mirrors.caught underWay (onward_answer onward_unentered budget id request)
      (fails_answer budget id request)).map ?_
    rintro response _ ⟨rfl, faults⟩
    exact ⟨rfl, received, candid response faults, known⟩
  cases request with
  | execute actions limits =>
    obtain ⟨succeeds, fails⟩ := candid
    have ran : Mirrors before underWay (Ends underWay actions limits) Eq (reenter id actions limits *> pure Json.null)
        (stacked id actions limits *> pure Json.null) := by
      rw [seqRight_eq_bind, seqRight_eq_bind]
      exact (enters underWay id actions limits).bind fun _ _ _ => .pure rfl
    rw [← bind_pure (attempt (answer reenter budget id _))]
    refine ran.attempt_bind ?_ fun e failure ends => ?_
    · rintro value _ rfl
      exact .pure ⟨rfl, received, succeeds value, known⟩
    · have others (other : Error) (member : other ∈ received) := (known other member).more failure
      exact .pure ⟨congrArg Except.error ends.error, e :: received, fails e,
        List.forall_mem_cons.mpr ⟨ends.known told, others⟩⟩
  | getPath path => exact asked (.getPath path) candid
  | setPath path value => exact asked (.setPath path value) candid
  | bind key value => exact asked (.bind key value) candid
  | evaluate source => exact asked (.evaluate source) candid
  | describe => exact asked .describe candid
  | keep => exact asked .keep candid
  | suspend => exact asked .suspend candid
  | hang => exact asked .hang candid
  | block ms => exact asked (.block ms) candid

theorem mirrors_follow {underWay : List Json} {agree : Error → Failure → Prop} (interaction : Interaction)
    {received : List Error} (told : List Failure) (candid : interaction.Candid received)
    (known : ∀ e ∈ received, Known underWay told e) :
    Mirrors before underWay agree (fun outcome result => Concludes underWay outcome (Stacked.concluded result))
      (follow (fun request => attempt (answer reenter budget id request)) interaction)
      ((follow (Stacked.answer stacked budget id) interaction).run told) := by
  induction interaction generalizing received told with
  | done value => exact .pure (.ok value)
  | failed failure =>
    refine .pure (.error fun e same service => ?_)
    exact (candid e same service).elim Or.inl (known e)
  | ask request next ih =>
    refine (mirrors_answer enters budget id candid known).bind ?_
    rintro response ⟨_, heard⟩ ⟨rfl, received, candid, known⟩
    exact ih response heard candid known

section

variable (candid : before.Candid) (outer : List Json) (raw : Json)

include candid

theorem mirrors_invoke {w : World} (onward : before.Onward w) {name : String} {method : Method}
    (found : w.method? id name = some method) (params : Json) :
    Mirrors before (raw :: outer) (Unnamed outer raw) Eq ((caller reenter budget).invoke id name method params)
      ((Stacked.caller stacked budget).invoke id name method params) := by
  have told := (onward_suited before id).record (.called name params)
  refine (Mirrors.during outer raw told (.modify _)).bind fun _ _ _ => ?_
  have course := (candid.congr onward.trees).method found params
  have followed : Mirrors before (raw :: outer) (Unnamed outer raw) _ _ _ :=
    mirrors_follow enters budget id (method params) [] course nofun
  refine (followed.map fun _ _ concludes => concludes).bind ?_
  rintro _ _ (value | known)
  · exact .pure rfl
  · exact .fail_below (unnamed_of_known name known)

theorem mirrors_caller : (caller reenter budget).Related (Stacked.caller stacked budget) id before.Onward
    (fun operation => LeadsOn before operation ∧ FailsWith Interrupt.Unattributed operation)
    (Mirrors before (raw :: outer) (Unnamed outer raw) Eq) where
  pure _ := .pure rfl
  bind starts continues := starts.bind fun a _ same => same ▸ continues a
  once fine := .during outer raw fine.1 fine.2
  raise _ bare := .during outer raw (Keeps.throw _) (fails_throw bare)
  read _ continues := .reading continues
  invoke onward found params := mirrors_invoke enters budget id candid outer raw onward found params

theorem mirrors_perform (action : Action) :
    Mirrors before (raw :: outer) (Unnamed outer raw) Eq (perform reenter budget id raw action)
      ((Stacked.runner stacked budget).perform id raw action) :=
  (mirrors_caller enters budget id candid outer raw).perform ((onward_suited before id).and (fails_suited id)) raw
    fun _ _ => trivial

end

end

section

variable {before : World}

mutual

theorem mirrors_runStep {reenter : Reenter} {stacked : Stacked.Reenter} (enters : MirrorsRuns before reenter stacked)
    (candid : before.Candid) (budget : Budget) (outer : List Json) (id : ScopeId) (step : Step) :
    Mirrors before outer (Named (step.raw :: outer)) Eq ((runner reenter budget).runStep id step)
      ((Stacked.runner stacked budget).runStep id step) := by
  have source (raw source : Json) : Mirrors before (raw :: outer) (Unnamed outer raw) Eq
      (onWorld (World.evaluateSource id source)) (Stacked.during (onWorld (World.evaluateSource id source))) :=
    .during outer raw ((World.onward_evaluation before).source id source).onWorld (fails_evaluateSource id source)
  match step with
  | .malformed raw fault =>
    refine .step reenter stacked budget raw ?_
    exact .during outer raw (Keeps.throw _) (fails_throw fault.error_unattributed)
  | .single raw action =>
    exact .step reenter stacked budget raw (mirrors_perform enters budget id candid outer raw action)
  | .branch raw cond yes no =>
    have first := mirrors_runAll enters candid budget (raw :: outer) id yes
    have second := mirrors_runAll enters candid budget (raw :: outer) id no
    rw [Runner.runStep, Runner.runStep]
    refine .step reenter stacked budget raw ((source raw cond).bind ?_)
    rintro cond _ rfl
    exact .ite _ (first.mono fun _ _ named => named.unnamed) (second.mono fun _ _ named => named.unnamed)
  | .loop raw var indexVar items body =>
    have inside scope := (mirrors_runAll enters candid budget (raw :: outer) scope body).mono
      fun _ _ named => named.unnamed
    rw [Runner.runStep, Runner.runStep]
    refine .step reenter stacked budget raw ((source raw items).bind ?_)
    rintro value _ rfl
    cases found : loopEntries value with
    | error e => exact .during outer raw (Keeps.throw _) (fails_throw (faults_loopEntries value e found))
    | ok entries => exact mirrors_each reenter stacked budget id var indexVar inside entries
  | .batch raw steps =>
    have every := (mirrors_runEach enters candid budget (raw :: outer) id 0 steps).mono
      fun _ _ named => named.unnamed
    rw [Runner.runStep, Runner.runStep]
    refine .step reenter stacked budget raw (every.bind fun failed gathered gathers => ?_)
    show Mirrors _ _ _ _ (batchOutcome failed _) _
    unfold batchOutcome
    rw [gathers.isEmpty_eq]
    exact .ite _ (.pure rfl) (.fail_below (gathers.unnamed _))
  termination_by structural step

theorem mirrors_runAll {reenter : Reenter} {stacked : Stacked.Reenter} (enters : MirrorsRuns before reenter stacked)
    (candid : before.Candid) (budget : Budget) (underWay : List Json) (id : ScopeId) (steps : List Step) :
    Mirrors before underWay (NamedAmong underWay steps) Eq ((runner reenter budget).runAll id steps)
      ((Stacked.runner stacked budget).runAll id steps) := by
  match steps with
  | [] => exact .pure rfl
  | step :: rest =>
    have first := mirrors_runStep enters candid budget underWay id step
    have others := mirrors_runAll enters candid budget underWay id rest
    rw [Runner.runAll, Runner.runAll]
    refine (first.mono fun _ _ named => ⟨step, List.mem_cons_self, named⟩).bind fun _ _ _ => ?_
    exact others.mono fun _ _ named => named.later step
  termination_by structural steps

theorem mirrors_runEach {reenter : Reenter} {stacked : Stacked.Reenter} (enters : MirrorsRuns before reenter stacked)
    (candid : before.Candid) (budget : Budget) (underWay : List Json) (id : ScopeId) (index : Nat)
    (steps : List Step) : Mirrors before underWay (NamedAmong underWay steps) (Gathers underWay)
      ((runner reenter budget).runEach id index steps) ((Stacked.runner stacked budget).runEach id index steps) := by
  match steps with
  | [] => exact .pure ⟨rfl, nofun⟩
  | step :: rest =>
    have first := mirrors_runStep enters candid budget underWay id step
    have others := (mirrors_runEach enters candid budget underWay id (index + 1) rest).mono
      fun _ _ named => named.later step
    rw [Runner.runEach, Runner.runEach]
    refine first.attempt_bind (fun _ _ _ => others) fun e failure named => ?_
    obtain rfl := named.error
    refine .ite _ (.fail ⟨step, List.mem_cons_self, named⟩) (others.bind fun failed gathered gathers => .pure ?_)
    exact ⟨by rw [Failure.errors, gathers.errors], List.forall_mem_cons.mpr ⟨named.arises, gathers.arise⟩⟩
  termination_by structural steps

end

theorem NamedAmong.ends {underWay actions : List Json} {e : Error} {failure : Failure}
    (named : NamedAmong underWay (Step.ofItems actions) e failure) (limits : ExecuteLimits) :
    Ends underWay actions limits e failure := by
  obtain ⟨step, member, same, arises⟩ := named
  exact ⟨same, Or.inr ⟨step.raw, Step.raw_mem_of_mem_ofItems member, arises⟩⟩

theorem mirrors_runWithin (candid : before.Candid) (depth : Nat) (soon : Option Nat) (underWay : List Json)
    (id : ScopeId) (actions : List Json) (limits : ExecuteLimits) :
    Mirrors before underWay (Ends underWay actions limits) Eq (runWithin depth soon id actions limits)
      (Stacked.runWithin depth soon id actions limits) := by
  have late {underWay actions : List Json} {limits : ExecuteLimits} :
      Ends underWay actions limits (timeoutError limits) (.late limits) := ⟨rfl, Or.inl rfl⟩
  induction depth generalizing soon underWay id actions limits with
  | zero => exact .fail late
  | succ depth ih =>
    rw [runWithin_succ, Stacked.runWithin, Runner.nested]
    refine .ite _ (.pure rfl) (mirrors_timed late fun budget => ?_)
    have ran := mirrors_runAll (ih budget.deadline) candid budget underWay id (Step.ofItems actions)
    exact ran.mono fun _ _ named => named.ends limits

end

/-- Unless its timer has gone off, an execution that fails does so with an error that names the innermost action
under way as it arises, however deep the actions are nested and in whatever executions that methods have asked for:
the one that is being read, counted or carried out, and the batch itself where its failures are made one error. Each
error inside this names the innermost action that was under way in its sub-action in the same sense. -/
theorem execute_blames_innermost {id : ScopeId} {actions : List Json} {limits : ExecuteLimits} {w : World} {e : Error}
    (candid : w.Candid) (failed : (execute id actions limits w).1 = .error e) :
    ∃ failure, Stacked.execute id actions limits w = (.error failure, (execute id actions limits w).2) ∧
      e = failure.error ∧ (failure = .late limits ∨
        ∃ stack, failure.ArisesAt stack ∧ e.context.action = stack.head? ∧ ∃ raw ∈ actions, [raw] <:+ stack) := by
  obtain ⟨outcome, outcome', after, ran, ran', _, same⟩ :=
    mirrors_runWithin candid maxRunDepth none [] id actions limits ⟨w, 0⟩ (.refl w)
  unfold Stacked.execute
  unfold execute at failed ⊢
  rw [ran] at failed ⊢
  rw [ran']
  cases same with
  | ok => cases failed
  | dropped =>
    cases failed
    exact ⟨.late limits, rfl, rfl, Or.inl rfl⟩
  | failed ends =>
    cases failed
    obtain ⟨rfl, late | ⟨raw, member, below, arises, names⟩⟩ := ends
    · exact ⟨_, rfl, rfl, Or.inl late⟩
    · exact ⟨_, rfl, rfl, Or.inr ⟨_, arises, names, raw, member, below⟩⟩

/-- A method that fails with an error of its own. -/
def refusing : Method := fun _ => .failed (.error (.service .serviceCallError "refused"))

def absentCall : Json := .object [("method", .string "absent"), ("type", .string "call")]

/-- A method that has an action run, and hands on its error. -/
def relaying : Method := fun _ => .ask (.execute [absentCall] {}) fun
  | .ok value => .done value
  | .error e => .failed (.error e)

def refusal : World :=
  ((World.create { state := .null, methods := [("refuse", refusing), ("relay", relaying)] } 1).run
    (World.addSession (.ofCapacities 10 1024) {}).2).2

theorem refusal_candid : refusal.Candid := by
  have refuses (params : Json) : (refusing params).Candid [] := by
    rintro e ⟨⟩ _
    exact Or.inl rfl
  have relays (params : Json) : (relaying params).Candid [] := by
    refine ⟨fun _ => trivial, fun e => ?_⟩
    rintro _ ⟨⟩ _
    exact Or.inr List.mem_cons_self
  intro tree shared found name method known
  have only : shared.methods = [("refuse", refusing), ("relay", relaying)] := by
    have trees : refusal.trees.entries =
        [(1, ⟨1, [("refuse", refusing), ("relay", relaying)], {}, false, false, .absent⟩)] := rfl
    rw [Store.find?, trees, Store.lookup_cons_eq_if] at found
    split at found <;> cases found
    rfl
  rw [only, List.lookup_cons, List.lookup_cons] at known
  split at known
  · cases known
    exact refuses
  · split at known <;> cases known
    exact relays

def refusedCall : Json := .object [("method", .string "refuse"), ("type", .string "call")]

def relayedCall : Json := .object [("method", .string "relay"), ("type", .string "call")]

def missingPop : Json := .object [("path", .string "missing"), ("type", .string "pop")]

/-- Calls both methods, and takes the last item off a list that is not there in a loop. -/
def refusedBatch : Json :=
  let loop : Json := .object [("body", .array [missingPop]), ("in", .array [.null]), ("type", .string "loop"),
    ("var", .string "item")]
  .object [("actions", .array [refusedCall, loop, relayedCall]), ("type", .string "batch")]

/-- The batch is carried out under a condition. -/
def refusedActions : List Json :=
  [.object [("cond", .bool true), ("then", .array [refusedBatch]), ("type", .string "if")]]

/-- The texts of the actions that the error of a batch names, its own and those inside, and its message. -/
def batchReport : Except Error Unit → Option (String × Option String × List (Option String))
  | .error (.batch message failed context) => some (message, context.action.map Json.compact,
      failed.map fun entry => entry.2.2.context.action.map Json.compact)
  | _ => none

/-- The error names the batch, not the condition around it. Inside it names the call, the write in the loop, and the
action that the other method has had run. -/
theorem execute_blames_innermost_at_refusedActions :
    ∃ failed context failure stack, (execute 1 refusedActions {} refusal).1 =
        .error (.batch "3 of 3 batched actions failed" failed context) ∧
      (Stacked.execute 1 refusedActions {} refusal).1 = .error failure ∧ failure.ArisesAt stack ∧
      context.action = stack.head? ∧ context.action.map Json.compact = some refusedBatch.compact ∧
      failed.map (fun entry => entry.2.2.context.action.map Json.compact) =
        [some refusedCall.compact, some missingPop.compact, some absentCall.compact] := by
  have named : batchReport (execute 1 refusedActions {} refusal).1 = some ("3 of 3 batched actions failed",
      some refusedBatch.compact, [some refusedCall.compact, some missingPop.compact, some absentCall.compact]) := by
    decide +kernel
  cases failing : (execute 1 refusedActions {} refusal).1 with
  | ok =>
    rw [failing] at named
    cases named
  | error e =>
    rw [failing] at named
    cases e with
    | single => cases named
    | batch message failed context =>
      simp only [batchReport, Option.some.injEq, Prod.mk.injEq] at named
      obtain ⟨rfl, blamed, inside⟩ := named
      obtain ⟨failure, stacked, same, late | ⟨stack, arises, innermost, _⟩⟩ :=
        execute_blames_innermost refusal_candid failing
      · rw [late, Failure.late_error] at same
        cases same
      · exact ⟨failed, context, failure, stack, rfl, congrArg Prod.fst stacked, arises, innermost, blamed, inside⟩

end Execute

end StateScript
