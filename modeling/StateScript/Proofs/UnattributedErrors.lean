import StateScript.Proofs.Courses
import StateScript.Proofs.Errors
import StateScript.Proofs.EvaluatedTexts
import StateScript.Proofs.Parameters
import StateScript.Proofs.RelatedRuns
import StateScript.Proofs.ScopeWrites

/-!
Errors that name no action. Whatever fails below the runs of actions, be it in the engine or in a scope, fails
with such an error; so it is for the run around it to name the action.
-/

namespace StateScript

/-- No action is named in the error. -/
def Error.Unattributed (e : Error) : Prop := e.context.action = none

/-- No action is named in the error of the run, if it ends with one. -/
def Interrupt.Unattributed : Interrupt → Prop
  | .error e => e.Unattributed
  | .dropped => True

namespace Error.Unattributed

theorem withMetadata {e : Error} (bare : e.Unattributed) (key : String) (value : Json) :
    (e.withMetadata key value).Unattributed := by
  cases e <;> exact bare

theorem withExpression {e : Error} (bare : e.Unattributed) (source : String) :
    (e.withExpression source).Unattributed := by
  unfold Error.withExpression
  split
  · exact bare
  · cases e <;> exact bare

end Error.Unattributed

/-! The errors of faults, whatever the fault is. -/

theorem ParseFault.error_unattributed (source : String) (fault : ParseFault) :
    (fault.error source).Unattributed := by
  cases fault <;> rfl

theorem CallFault.error_unattributed (fault : CallFault) : fault.error.Unattributed := by
  cases fault <;> rfl

theorem EvalFault.error_unattributed (fault : EvalFault) : fault.error.Unattributed := by
  cases fault with
  | call fault => exact fault.error_unattributed
  | _ => rfl

theorem WriteFault.error_unattributed (path : String) (fault : WriteFault) : (fault.error path).Unattributed := by
  cases fault <;> rfl

theorem ActionFault.error_unattributed (fault : ActionFault) : fault.error.Unattributed := by
  cases fault <;> rfl

section

variable {ε δ σ α β : Type}

/-- A result is no error but one of some kind. -/
def FaultsWith (kind : ε → Prop) (result : Except ε α) : Prop := ∀ e, result = .error e → kind e

theorem FaultsWith.mapError {kind : ε → Prop} {other : δ → Prop} {result : Except δ α} {change : δ → ε}
    (faults : FaultsWith other result) (changed : ∀ d, other d → kind (change d)) :
    FaultsWith kind (result.mapError change) := by
  intro e failed
  cases result with
  | ok => cases failed
  | error d =>
    cases failed
    exact changed d (faults d rfl)

theorem FaultsWith.of_mapError {kind : ε → Prop} {change : δ → ε} (all : ∀ d, kind (change d))
    (result : Except δ α) : FaultsWith kind (result.mapError change) :=
  mapError (fun _ _ => (trivial : True)) fun d _ => all d

/-- Whatever state an operation begins in, it fails with nothing but errors of some kind. -/
def FailsWith (kind : ε → Prop) (operation : ExceptT ε (StateM σ) α) : Prop :=
  ∀ s, FaultsWith kind (operation.run s).1

variable {kind : ε → Prop}

namespace FailsWith

theorem pure (a : α) : FailsWith kind (pure a : ExceptT ε (StateM σ) α) := fun _ _ => nofun

theorem get : FailsWith kind (get : ExceptT ε (StateM σ) σ) := fun _ _ => nofun

theorem set (s : σ) : FailsWith kind (set s : ExceptT ε (StateM σ) PUnit) := fun _ _ => nofun

theorem modify (change : σ → σ) : FailsWith kind (modify change : ExceptT ε (StateM σ) PUnit) :=
  fun _ _ => nofun

theorem throw {e : ε} (known : kind e) : FailsWith kind (throw e : ExceptT ε (StateM σ) α) := by
  rintro s _ ⟨⟩
  exact known

theorem ofExcept {result : Except ε α} (faults : FaultsWith kind result) :
    FailsWith kind (ExceptT.mk (Pure.pure result) : ExceptT ε (StateM σ) α) := fun _ => faults

theorem bind {first : ExceptT ε (StateM σ) α} {next : α → ExceptT ε (StateM σ) β}
    (fails : FailsWith kind first) (rest : ∀ a, FailsWith kind (next a)) : FailsWith kind (first >>= next) := by
  intro s e failed
  rw [run_bind] at failed
  have failing := fails s
  rcases ran : first.run s with ⟨_ | a, between⟩ <;> rw [ran] at failed failing
  · cases failed
    exact failing e rfl
  · exact rest a between e failed

theorem «then» {first : ExceptT ε (StateM σ) α} (fails : FailsWith kind first) (b : β) :
    FailsWith kind (first *> Pure.pure b) := by
  rw [seqRight_eq_bind]
  exact fails.bind fun _ => pure b

theorem ite (condition : Prop) [Decidable condition] {yes no : ExceptT ε (StateM σ) α}
    (holds : FailsWith kind yes) (otherwise : FailsWith kind no) :
    FailsWith kind (if condition then yes else no) := by
  split
  · exact holds
  · exact otherwise

end FailsWith

end

/-! Results on their own. -/

theorem faults_parse (source : String) : FaultsWith Error.Unattributed (Expr.parse source) :=
  .of_mapError (ParseFault.error_unattributed _) _

theorem faults_check (options : ValidationOptions) (e : Expr) : FaultsWith Error.Unattributed (e.check options) := by
  unfold Expr.check
  split
  · rintro _ ⟨⟩
    rfl
  · nofun

theorem faults_interpret (options : EvalOptions) (resolver : Resolver) (e : Expr) :
    FaultsWith Error.Unattributed (Eval.interpret options resolver e) :=
  .of_mapError EvalFault.error_unattributed _

theorem faults_parsePath (path : String) : FaultsWith Error.Unattributed (Path.parse path) := by
  have all (fault : PathFault) : (Path.invalid path fault.reason).Unattributed := rfl
  exact .of_mapError all _

theorem faults_checkBindable (key : String) : FaultsWith Error.Unattributed (checkBindable key) := by
  unfold checkBindable
  split
  · nofun
  · rintro _ ⟨⟩
    rfl

theorem faults_firstKey (path : String) (segments : Path) :
    FaultsWith Error.Unattributed (World.firstKey path segments) := by
  unfold World.firstKey
  split
  · rintro _ ⟨⟩
    rfl
  · rintro _ ⟨⟩
    rfl
  · nofun

theorem faults_editedArray (path : String) (edit : ArrayEdit) (old : Option Json) :
    FaultsWith Error.Unattributed (World.editedArray path edit old) := by
  unfold World.editedArray
  split
  · nofun
  · rintro _ ⟨⟩
    rfl

theorem faults_loopEntries (source : Json) : FaultsWith Error.Unattributed (Execute.loopEntries source) := by
  unfold Execute.loopEntries
  split
  · nofun
  · nofun
  · nofun
  · rintro _ ⟨⟩
    rfl

namespace Engine

theorem fails_parse (source : String) : FailsWith Error.Unattributed (parse source) := by
  unfold parse
  refine FailsWith.get.bind fun engine => ?_
  split
  · exact .pure _
  · refine (FailsWith.ofExcept (faults_parse source)).bind fun tree => ?_
    exact FailsWith.get.bind fun engine => (FailsWith.set _).bind fun _ => .pure _

theorem fails_prepare (source : String) (options : EvalOptions) :
    FailsWith Error.Unattributed (prepare source options) := by
  unfold prepare
  refine (fails_parse _).bind fun p => ?_
  cases p.validated.contains options.validation with
  | true => exact .pure _
  | false =>
    have checked := faults_check options.validation p.tree
    refine (FailsWith.ofExcept (checked.mapError fun e bare => bare.withExpression _)).bind fun _ => ?_
    exact (FailsWith.modify _).bind fun _ => .pure _

theorem fails_compile (source : String) : FailsWith Error.Unattributed (compile source) := by
  have direct (source : String) : FailsWith Error.Unattributed (directOf source) := by
    intro engine
    unfold directOf
    dsimp only [ExceptT.run_mk]
    split <;> nofun
  unfold compile
  refine FailsWith.get.bind fun engine => ?_
  split
  · exact .pure _
  · refine (direct _).bind fun found => ?_
    exact FailsWith.get.bind fun engine => (FailsWith.set _).bind fun _ => .pure _

theorem fails_compute (p : ParsedExpr) (source : String) (resolver : Resolver) (options : EvalOptions) :
    FailsWith Error.Unattributed (compute p source resolver options) := by
  unfold compute
  refine (fails_compile source).bind fun c => ?_
  split
  · exact .pure _
  · exact .ofExcept ((faults_interpret options resolver p.tree).mapError fun e bare => bare.withExpression _)

section

variable (resolver : Resolver) (options : EvalOptions)

theorem fails_evaluate (source : String) : FailsWith Error.Unattributed (evaluate source resolver options) := by
  unfold evaluate
  refine (fails_prepare _ options).bind fun p => ?_
  dsimp only
  split
  · exact fails_compute p _ resolver options
  · refine FailsWith.get.bind fun engine => ?_
    split
    · exact .pure _
    · exact (fails_compute p _ resolver options).bind fun value => (FailsWith.modify _).bind fun _ => .pure _

theorem fails_sources : HoldsOfSources (fun _ => True) resolver options
    fun operation => FailsWith Error.Unattributed operation where
  evaluate _ := fails_evaluate resolver options _
  pure := FailsWith.pure
  bind := FailsWith.bind

end

end Engine

namespace World

theorem fails_withEngine {α : Type} (id : ScopeId) {operation : EngineM α}
    (fails : FailsWith Error.Unattributed operation) : FailsWith Error.Unattributed (withEngine id operation) :=
  fun w => fails ((w.session? id).elim {} Session.engine)

theorem fails_evaluation : HoldsOfEvaluation fun operation => FailsWith Error.Unattributed operation where
  evaluate id source := FailsWith.get.bind fun w =>
    fails_withEngine id (Engine.fails_evaluate (w.resolver id) (w.evalOptions id) source)
  interpolate id _ := FailsWith.get.bind fun w =>
    fails_withEngine id ((Engine.fails_sources (w.resolver id) (w.evalOptions id)).interpolate fun _ _ => trivial)
  resolveValue id _ := FailsWith.get.bind fun w =>
    fails_withEngine id ((Engine.fails_sources (w.resolver id) (w.evalOptions id)).resolveValue fun _ _ _ _ => trivial)
  pure := FailsWith.pure
  reject bare := .throw bare
  bind := FailsWith.bind

section

variable (id : ScopeId)

theorem fails_parsePath (path : String) : FailsWith Error.Unattributed (parsePath id path) := by
  intro w
  rw [run_parsePath]
  exact faults_parsePath path

theorem fails_writablePath (path : String) : FailsWith Error.Unattributed (writablePath id path) := by
  refine (fails_parsePath id path).bind fun segments => ?_
  refine (FailsWith.ofExcept (faults_firstKey path segments)).bind fun first => ?_
  exact (FailsWith.ofExcept (faults_checkBindable first)).bind fun _ => .pure _

theorem fails_getPath (path : String) : FailsWith Error.Unattributed (getPath id path) := by
  refine (fails_parsePath id path).bind fun segments => ?_
  split
  · exact .pure _
  · exact FailsWith.get.bind fun w => .pure _

theorem fails_set (key : String) (value : Json) : FailsWith Error.Unattributed (set id key value) :=
  (FailsWith.ofExcept (faults_checkBindable key)).bind fun _ => .modify _

theorem fails_setPath (path : String) (value : Json) : FailsWith Error.Unattributed (setPath id path value) := by
  refine (fails_writablePath id path).bind fun found => FailsWith.get.bind fun w => ?_
  refine (FailsWith.modify _).bind fun _ => ?_
  split
  · next fault _ => exact .throw ((fault.error_unattributed _).withMetadata _ _)
  · exact .modify _

theorem fails_editArray (path : String) (edit : ArrayEdit) :
    FailsWith Error.Unattributed (editArray id path edit) := by
  unfold editArray updatePath
  refine (fails_writablePath id path).bind fun found => FailsWith.get.bind fun w => ?_
  refine (FailsWith.ofExcept (faults_editedArray path edit _)).bind fun edited => ?_
  have changed {dropping telling : World → World} : FailsWith Error.Unattributed
      (modify dropping >>= fun _ => modify telling >>= fun _ => pure edited.2 : WorldM Unit) :=
    (FailsWith.modify _).bind fun _ => (FailsWith.modify _).bind fun _ => .pure _
  dsimp only
  split
  · exact (FailsWith.modify _).bind fun _ => changed
  · exact changed

end

end World

namespace Execute

theorem fails_onWorld {α : Type} {operation : WorldM α} (fails : FailsWith Error.Unattributed operation) :
    FailsWith Interrupt.Unattributed (onWorld operation) := fun m =>
  (fails m.world).mapError fun _ bare => bare

theorem fails_throw {α : Type} {e : Error} (bare : e.Unattributed) :
    FailsWith Interrupt.Unattributed (fail e : ExecuteM α) := .throw bare

theorem fails_tick (budget : Budget) : FailsWith Interrupt.Unattributed (tick budget) := by
  intro m
  rw [run_tick]
  split_ifs
  · rintro _ ⟨⟩
    rfl
  · rintro _ ⟨⟩
    rfl
  · nofun

theorem fails_suspend (budget : Budget) : FailsWith Interrupt.Unattributed (suspend budget) := by
  unfold suspend
  split
  · exact FailsWith.get.bind fun m => .ite _ (.throw trivial) (.pure _)
  · exact .pure _

theorem fails_hang (budget : Budget) : FailsWith Interrupt.Unattributed (hang budget) := by
  unfold hang
  cases budget.deadline with
  | none => exact .throw trivial
  | some deadline => exact FailsWith.bind (.modify _) fun _ => .throw trivial

theorem fails_suited (id : ScopeId) : Suited (FailsWith Interrupt.Unattributed) id fun _ => True where
  pure := FailsWith.pure
  bind := FailsWith.bind
  fail _ bare := .throw bare
  record _ := .modify _
  emit _ _ := .modify _
  param _ := fails_onWorld (World.fails_evaluation.param id _)
  params _ := fails_onWorld (World.fails_evaluation.params id _)
  inserted _ := fails_onWorld (World.fails_evaluation.inserted id _)
  splice _ := fails_onWorld (World.fails_evaluation.splice id _ _ _)
  setPath path value := fails_onWorld (World.fails_setPath id path value)
  editArray path edit := fails_onWorld (World.fails_editArray id path edit)

theorem fails_evaluateSource (id : ScopeId) (source : Json) :
    FailsWith Interrupt.Unattributed (onWorld (World.evaluateSource id source)) :=
  fails_onWorld (World.fails_evaluation.source id source)

/-- So it is with what a method asks for, the actions apart that it has run. -/
theorem fails_answer (budget : Budget) (id : ScopeId) (request : Request) :
    FailsWith Interrupt.Unattributed (answer Followed.unentered budget id request) := by
  cases request with
  | getPath path => exact fails_onWorld (World.fails_getPath id path)
  | setPath path value => exact (fails_onWorld (World.fails_setPath id path value)).then _
  | bind key value => exact (fails_onWorld (World.fails_set id key value)).then _
  | evaluate source => exact fails_onWorld (World.fails_evaluation.evaluate id source)
  | execute actions limits => exact FailsWith.then (.pure ()) _
  | describe => exact FailsWith.get.bind fun m => .pure _
  | keep => exact FailsWith.then (.modify _) _
  | suspend => exact (fails_suspend budget).then _
  | hang => exact (fails_hang budget).then _
  | block ms => exact FailsWith.then (.modify _) _

end Execute

end StateScript
