import StateScript.Execute.Run
import StateScript.Proofs.Machines
import StateScript.Proofs.WrittenSources

/-!
Runs of actions that go together. If two ways to run actions take each part of an action in related ways, then
whatever they make of actions is related, because they go through it in the same order.
-/

namespace StateScript.Execute

/-- A kind of operations that one can put together. All that an action in a scope does to the world is of this
kind, as long as it evaluates values that belong to it. -/
structure Suited (fine : {α : Type} → ExecuteM α → Prop) (id : ScopeId) (own : Json → Prop) : Prop where
  pure : ∀ {α : Type} (a : α), fine (pure a : ExecuteM α)
  bind : ∀ {α β : Type} {first : ExecuteM α} {next : α → ExecuteM β}, fine first → (∀ a, fine (next a)) →
    fine (first >>= next)
  fail : ∀ e, e.context.action = none → fine (fail e : ExecuteM Unit)
  record : ∀ event, fine (modifyWorld (World.record event))
  emit : ∀ event data, fine (modifyWorld (World.emit id event data))
  param : ∀ {v}, own v → fine (onWorld (World.evaluateParam id v))
  params : ∀ {params}, (∀ v ∈ params.toList, own v) → fine (onWorld (World.evaluateParams id params))
  inserted : ∀ {inserted : Insert}, own inserted.written → fine (onWorld (World.evaluateInsert id inserted))
  splice : ∀ {start deleteCount items}, (∀ v ∈ start :: (deleteCount.toList ++ items.toList), own v) →
    fine (onWorld (World.evaluateSplice id start deleteCount items))
  setPath : ∀ path value, fine (onWorld (World.setPath id path value))
  editArray : ∀ path edit, fine (onWorld (World.editArray id path edit))

namespace Suited

variable {fine : {α : Type} → ExecuteM α → Prop} {id : ScopeId} {own : Json → Prop} (suited : Suited fine id own)

include suited

theorem navigateBy (navigator : Navigator) (target : Json) : fine (navigateBy navigator target) := by
  have told := suited.record (.navigated target)
  cases navigator with
  | accepts => exact told
  | refuses reason => exact suited.bind told fun _ => suited.fail _ rfl
  | absent => exact suited.fail _ rfl

theorem emitted (event : String) {data : Option Json} (within : ∀ v ∈ data.toList, own v) :
    fine (Execute.emit id event data) := by
  have told (v : Json) := suited.emit event v
  cases data with
  | none => exact suited.bind (suited.pure _) told
  | some v => exact suited.bind (suited.param (within v (List.mem_singleton.mpr rfl))) told

theorem log {message : Json} (within : own message) : fine (log id message) :=
  suited.bind (suited.param within) fun _ => suited.pure _

/-- What is of two kinds is of one kind. -/
theorem and {fine' : {α : Type} → ExecuteM α → Prop} (suited' : Suited fine' id own) :
    Suited (fun operation => fine operation ∧ fine' operation) id own where
  pure a := ⟨suited.pure a, suited'.pure a⟩
  bind first next := ⟨suited.bind first.1 fun a => (next a).1, suited'.bind first.2 fun a => (next a).2⟩
  fail e bare := ⟨suited.fail e bare, suited'.fail e bare⟩
  record event := ⟨suited.record event, suited'.record event⟩
  emit event data := ⟨suited.emit event data, suited'.emit event data⟩
  param within := ⟨suited.param within, suited'.param within⟩
  params within := ⟨suited.params within, suited'.params within⟩
  inserted within := ⟨suited.inserted within, suited'.inserted within⟩
  splice within := ⟨suited.splice within, suited'.splice within⟩
  setPath path value := ⟨suited.setPath path value, suited'.setPath path value⟩
  editArray path edit := ⟨suited.editArray path edit, suited'.editArray path edit⟩

end Suited

/-- The relation of plain runs in which the first alone is of a kind. -/
def Alone (fine : {α : Type} → ExecuteM α → Prop) {α : Type} (run _ : ExecuteM α) : Prop := fine run

/-- If the answers to requests are related, then so are the courses of a method. -/
theorem follow_related {μ ν : Type → Type} [Monad μ] [Monad ν] (rel : {α : Type} → μ α → ν α → Prop)
    (pure : ∀ {α : Type} (a : α), rel (pure a) (pure a))
    (bind : ∀ {α β : Type} {x : μ α} {x' : ν α} {next : α → μ β} {next' : α → ν β}, rel x x' →
      (∀ a, rel (next a) (next' a)) → rel (x >>= next) (x' >>= next'))
    {ask : Request → μ (Except Error Json)} {ask' : Request → ν (Except Error Json)}
    (answers : ∀ request, rel (ask request) (ask' request)) (interaction : Interaction) :
    rel (follow ask interaction) (follow ask' interaction) := by
  induction interaction with
  | done | failed => exact pure _
  | ask request next ih => exact bind (answers request) ih

namespace Caller

variable {μ ν : Type → Type} [Monad μ] [Monad ν] {κ ι : Type}

/-- Two ways to run actions take operations of a kind in related ways, what they look up in the tree of a world that
they meet, and the methods that they find there. A relation of what is put together follows from the parts. -/
structure Related (first : Caller μ κ) (second : Caller ν ι) (id : ScopeId) (met : World → Prop)
    (fine : {α : Type} → ExecuteM α → Prop) (rel : {α : Type} → μ α → ν α → Prop) : Prop where
  pure : ∀ {α : Type} (a : α), rel (pure a) (pure a)
  bind : ∀ {α β : Type} {x : μ α} {x' : ν α} {next : α → μ β} {next' : α → ν β}, rel x x' →
    (∀ a, rel (next a) (next' a)) → rel (x >>= next) (x' >>= next')
  once : ∀ {α : Type} {operation : ExecuteM α}, fine operation → rel (first.once operation) (second.once operation)
  raise : ∀ e, e.context.action = none → rel (first.raise e : μ Unit) (second.raise e)
  read : ∀ {α β : Type} {f : World → α} {next : α → μ β} {next' : α → ν β},
    (∀ w w', w.tree? id = w'.tree? id → f w = f w') → (∀ w, met w → rel (next (f w)) (next' (f w))) →
    rel (first.read f >>= next) (second.read f >>= next')
  invoke : ∀ {w name method}, met w → w.method? id name = some method → ∀ params,
    rel (first.invoke id name method params) (second.invoke id name method params)

/-- Methods are called in related ways if what they ask for is answered so. -/
theorem invoke_related (first : Caller μ MethodFailure) (second : Caller ν MethodFailure) {id : ScopeId}
    {ask : Request → μ (Except Error Json)} {ask' : Request → ν (Except Error Json)}
    (rel : {α : Type} → μ α → ν α → Prop) (pure : ∀ {α : Type} (a : α), rel (pure a) (pure a))
    (bind : ∀ {α β : Type} {x : μ α} {x' : ν α} {next : α → μ β} {next' : α → ν β}, rel x x' →
      (∀ a, rel (next a) (next' a)) → rel (x >>= next) (x' >>= next'))
    (told : ∀ event, rel (first.once (modifyWorld (World.record event)))
      (second.once (modifyWorld (World.record event))))
    (follows : first.interact id = follow ask) (follows' : second.interact id = follow ask')
    (answers : ∀ request, rel (ask request) (ask' request))
    (failed : ∀ name failure, rel (first.failed name failure : μ Json) (second.failed name failure))
    {name : String} {method : Method} {params : Json} :
    rel (first.invoke id name method params) (second.invoke id name method params) := by
  unfold Caller.invoke
  rw [follows, follows']
  refine bind (told _) fun _ => bind (follow_related rel pure bind answers (method params)) fun outcome => ?_
  cases outcome with
  | ok value => exact pure _
  | error failure => exact failed name failure

namespace Related

variable {first : Caller μ κ} {second : Caller ν ι} {id : ScopeId} {met : World → Prop}
  {fine : {α : Type} → ExecuteM α → Prop} {rel : {α : Type} → μ α → ν α → Prop} {own : Json → Prop}
  (related : first.Related second id met fine rel) (suited : Suited fine id own)

theorem method?_congr {w w' : World} (same : w.tree? id = w'.tree? id) (name : String) :
    w.method? id name = w'.method? id name := by
  simp only [World.method?, World.methods, same]

include related

theorem custom (kind : String) (raw : Json) : rel (first.custom id kind raw) (second.custom id kind raw) := by
  refine related.read (fun w w' same => method?_congr same kind) fun w met => ?_
  cases found : w.method? id kind with
  | none => exact related.raise _ rfl
  | some method => exact related.bind (related.invoke met found raw) fun _ => related.pure _

include suited

theorem call (name : String) {params : Option Json} (within : ∀ v ∈ params.toList, own v)
    (resultTo : Option String) : rel (first.call id name params resultTo) (second.call id name params resultTo) := by
  refine related.read (fun w w' same => method?_congr same name) fun w met => ?_
  cases found : w.method? id name with
  | none => exact related.raise _ rfl
  | some method =>
    refine related.bind (related.once (suited.params within)) fun given => ?_
    refine related.bind (related.invoke met found given) fun result => ?_
    cases resultTo with
    | none => exact related.pure _
    | some path => exact related.once (suited.setPath path result)

theorem navigate {target : Json} (within : own target) :
    rel (first.navigate id target) (second.navigate id target) := by
  refine related.bind (related.once (suited.param within)) fun place => ?_
  refine related.read (fun w w' same => by simp only [method?_congr same]) fun w met => ?_
  cases first' : navigateMethods.findSome? fun name => (w.method? id name).map (name, ·) with
  | some taken =>
    obtain ⟨name, _, given⟩ := List.exists_of_findSome?_eq_some first'
    obtain ⟨method, found, rfl⟩ := Option.map_eq_some_iff.mp given
    exact related.bind (related.invoke met found place) fun _ => related.pure _
  | none =>
    refine related.read (fun w w' same => by rw [same]) fun w _ => ?_
    exact related.once (suited.navigateBy _ place)

/-- What two ways to run actions make of an action is related. -/
theorem perform (raw : Json) {action : Action} (within : ∀ v ∈ action.parameters, own v) :
    rel (first.perform id raw action) (second.perform id raw action) := by
  have evaluated {v : Json} (member : v ∈ action.parameters) := suited.param (within v member)
  cases action with
  | set path value =>
    refine related.once ?_
    rw [onWorld_bind]
    exact suited.bind (evaluated List.mem_cons_self) fun v => suited.setPath path v
  | push path inserted =>
    refine related.once ?_
    rw [onWorld_bind]
    exact suited.bind (suited.inserted (within _ List.mem_cons_self)) fun values => suited.editArray path _
  | unshift path inserted =>
    refine related.once ?_
    rw [onWorld_bind]
    exact suited.bind (suited.inserted (within _ List.mem_cons_self)) fun values => suited.editArray path _
  | splice path start deleteCount items =>
    refine related.once ?_
    rw [onWorld_bind]
    exact suited.bind (suited.splice within) fun edit => suited.editArray path edit
  | pop path | shift path => exact related.once (suited.editArray path _)
  | call method params resultTo => exact related.call suited method within resultTo
  | emit event data => exact related.once (suited.emitted event within)
  | navigate target => exact related.navigate suited (within _ List.mem_cons_self)
  | log level message => exact related.once (suited.log (within _ List.mem_cons_self))
  | custom kind => exact related.custom kind raw

end Related

end Caller

namespace Runner

variable {μ ν : Type → Type} [Monad μ] [Monad ν] {φ ι : Type}

/-- Two ways to run actions take each part of a step in related ways. The members of the family of relations say which
scopes may act, and each step evaluates what belongs to it. -/
structure Related (first : Runner μ φ) (second : Runner ν φ) (acts : ι → ScopeId → Prop) (own : Step → Prop)
    (rel : ι → {α : Type} → μ α → ν α → Prop) : Prop where
  pure : ∀ {i} {α : Type} (a : α), rel i (pure a) (pure a)
  bind : ∀ {i} {α β : Type} {x : μ α} {x' : ν α} {next : α → μ β} {next' : α → ν β}, rel i x x' →
    (∀ a, rel i (next a) (next' a)) → rel i (x >>= next) (x' >>= next')
  raise : ∀ {i} e, rel i (first.raise e : μ Unit) (second.raise e)
  step : ∀ {i} raw {run : μ Unit} {run' : ν Unit}, rel i run run' → rel i (first.step raw run) (second.step raw run')
  perform : ∀ {i id raw action}, acts i id → own (.single raw action) →
    rel i (first.perform id raw action) (second.perform id raw action)
  condition : ∀ {i id raw cond yes no}, acts i id → own (.branch raw cond yes no) →
    rel i (first.once (onWorld (World.evaluateSource id cond))) (second.once (onWorld (World.evaluateSource id cond)))
  source : ∀ {i id raw var indexVar source body}, acts i id → own (.loop raw var indexVar source body) →
    rel i (first.once (onWorld (World.evaluateSource id source)))
      (second.once (onWorld (World.evaluateSource id source)))
  iterate : ∀ {i id} var indexVar item index (steps : List Step), acts i id →
    (∀ j scope, acts j scope → rel j (first.runAll scope steps) (second.runAll scope steps)) →
    rel i (first.iterate id var indexVar item index fun scope => first.runAll scope steps)
      (second.iterate id var indexVar item index fun scope => second.runAll scope steps)
  collect : ∀ {i} index raw {run : μ Unit} {run' : ν Unit} {others : μ (List (Nat × Json × φ))}
    {others' : ν (List (Nat × Json × φ))}, rel i run run' → rel i others others' →
    rel i (first.collect index raw run others) (second.collect index raw run' others')
  gather : ∀ {i} failed total, rel i (first.gather failed total) (second.gather failed total)

namespace Related

variable {first : Runner μ φ} {second : Runner ν φ} {acts : ι → ScopeId → Prop} {own : Step → Prop}
  {rel : ι → {α : Type} → μ α → ν α → Prop}

theorem each (related : first.Related second acts own rel) {i : ι} {id : ScopeId} (acting : acts i id)
    (var indexVar : String) {body : List Step}
    (inside : ∀ j scope, acts j scope → rel j (first.runAll scope body) (second.runAll scope body))
    (entries : List (Json × Json)) :
    rel i (first.each id var indexVar (fun scope => first.runAll scope body) entries)
      (second.each id var indexVar (fun scope => second.runAll scope body) entries) := by
  induction entries with
  | nil => exact related.pure _
  | cons entry rest ih =>
    obtain ⟨item, index⟩ := entry
    exact related.bind (related.iterate var indexVar item index body acting inside) fun _ => ih

mutual

/-- What two ways to run actions make of a step is related if all steps inside it evaluate what belongs to them. -/
theorem runStep (related : first.Related second acts own rel) {i : ι} {id : ScopeId} (acting : acts i id)
    (step : Step) (within : ∀ inner ∈ step.inside, own inner) :
    rel i (first.runStep id step) (second.runStep id step) := by
  match step with
  | .malformed raw fault => exact related.step raw (related.raise _)
  | .single raw action =>
    exact related.step raw (related.perform acting (within _ List.mem_cons_self))
  | .branch raw cond yes no =>
    simp only [Step.inside, List.forall_mem_cons, List.forall_mem_append] at within
    have first' := related.runAll acting yes within.2.1
    have second' := related.runAll acting no within.2.2
    simp only [Runner.runStep]
    refine related.step raw (related.bind (related.condition acting within.1) fun cond => ?_)
    split
    · exact first'
    · exact second'
  | .loop raw var indexVar source body =>
    simp only [Step.inside, List.forall_mem_cons] at within
    have inside (j : ι) (scope : ScopeId) (acting : acts j scope) := related.runAll acting body within.2
    simp only [Runner.runStep]
    refine related.step raw (related.bind (related.source acting within.1) fun source => ?_)
    cases loopEntries source with
    | error e => exact related.raise e
    | ok entries => exact related.each acting var indexVar inside entries
  | .batch raw steps =>
    simp only [Step.inside, List.forall_mem_cons] at within
    have every := related.runEach acting 0 steps within.2
    simp only [Runner.runStep]
    exact related.step raw (related.bind every fun failed => related.gather failed _)
  termination_by structural step

/-- What two ways to run actions make of a list of steps is related. -/
theorem runAll (related : first.Related second acts own rel) {i : ι} {id : ScopeId} (acting : acts i id)
    (steps : List Step) (within : ∀ inner ∈ Step.insideAll steps, own inner) :
    rel i (first.runAll id steps) (second.runAll id steps) := by
  match steps with
  | [] => exact related.pure _
  | step :: rest =>
    simp only [Step.insideAll, List.forall_mem_append] at within
    have here := related.runStep acting step within.1
    have others := related.runAll acting rest within.2
    simp only [Runner.runAll]
    exact related.bind here fun _ => others
  termination_by structural steps

theorem runEach (related : first.Related second acts own rel) {i : ι} {id : ScopeId} (acting : acts i id)
    (index : Nat) (steps : List Step) (within : ∀ inner ∈ Step.insideAll steps, own inner) :
    rel i (first.runEach id index steps) (second.runEach id index steps) := by
  match steps with
  | [] => exact related.pure _
  | step :: rest =>
    simp only [Step.insideAll, List.forall_mem_append] at within
    have here := related.runStep acting step within.1
    have others := related.runEach acting (index + 1) rest within.2
    simp only [Runner.runEach]
    exact related.collect index step.raw here others
  termination_by structural steps

end

end Related

end Runner

end StateScript.Execute
