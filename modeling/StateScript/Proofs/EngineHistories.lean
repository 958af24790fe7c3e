import StateScript.Proofs.EngineMemory
import StateScript.Proofs.Errors
import StateScript.Proofs.Gates

/-!
What an engine has been asked before does not matter. After any history of calls, a source that may
not use kept results is evaluated as by a new engine: it fails with its first violation if the
options do not allow it, and otherwise agrees with the interpreter as far as that gets.
-/

namespace StateScript

/-- An evaluation has taken too many steps or too much time. -/
def Error.isOverBudget (e : Error) : Bool :=
  e.code = .expressionMaxStepsExceeded ∨ e.code = .expressionTimeout

theorem Error.isOverBudget_withExpression (source : String) (e : Error) :
    (e.withExpression source).isOverBudget = e.isOverBudget := by
  simp only [isOverBudget, code_withExpression]

namespace Engine

/-- One call on an engine. -/
inductive Operation where
  | parse (source : String)
  | prepare (source : String) (options : EvalOptions)
  | compile (source : String)
  | evaluate (source : String) (resolver : Resolver) (options : EvalOptions)
  | interpret (source : String) (resolver : Resolver) (options : EvalOptions)
  | dependencies (source : String) (options : EvalOptions)
  | invalidate (path : String)
  | clearResults
  | clearCompiled
  | clear

/-- What a call makes of an engine, whether it succeeds or fails. -/
def Operation.perform : Operation → Engine → Engine
  | parse source, engine => ((Engine.parse source).run engine).2
  | prepare source options, engine => ((Engine.prepare source options).run engine).2
  | compile source, engine => ((Engine.compile source).run engine).2
  | evaluate source resolver options, engine => ((Engine.evaluate source resolver options).run engine).2
  | interpret source resolver options, engine => ((Engine.interpret source resolver options).run engine).2
  | dependencies source options, engine => ((Engine.dependencies source options).run engine).2
  | invalidate path, engine => (engine.invalidate path).2
  | clearResults, engine => engine.clearResults
  | clearCompiled, engine => engine.clearCompiled
  | clear, engine => engine.clear

/-- A new engine after some calls, the first one first. -/
def after (history : List Operation) : Engine :=
  history.foldl (fun engine operation => operation.perform engine) {}

/-- The value of a source without markers by the interpreter alone, computed with nothing remembered. -/
def interpretation (source : String) (resolver : Resolver) (options : EvalOptions) : Except Error Json := do
  let tree ← checkedTree source options
  (Eval.interpret options resolver tree).mapError (Error.withExpression source)

theorem source_of_prepare {source : String} {options : EvalOptions} {engine after : Engine} {p : ParsedExpr}
    (prepared : (prepare source options).run engine = (.ok p, after)) :
    p.source = Template.stripMarkers source := by
  unfold prepare at prepared
  rw [run_bind] at prepared
  rcases parsed : (parse (Template.stripMarkers source)).run engine with ⟨e | q, between⟩
  · rw [parsed] at prepared
    cases prepared
  · have named := source_of_parse parsed
    simp only [parsed] at prepared
    split at prepared
    · rw [run_bind] at prepared
      split at prepared
      · cases prepared
        exact named
      · cases prepared
    · cases prepared
      exact named

section

variable {α : Type} {operation : EngineM α} {outcome : Except Error α → Prop}

theorem Gives.keeps (gives : Gives operation outcome) : Keeps Sound operation :=
  fun engine sound => (gives engine sound).1

theorem interpret_gives (source : String) (resolver : Resolver) (options : EvalOptions) :
    Gives (interpret source resolver options) fun result =>
      result = interpretation (Template.stripMarkers source) resolver options := by
  intro engine sound
  obtain ⟨still, kept, given⟩ := prepare_gives source options engine sound
  unfold interpret interpretation
  rw [run_bind]
  rcases prepared : (prepare source options).run engine with ⟨e | p, between⟩
  · rw [prepared] at still kept given
    have failed : checkedTree (Template.stripMarkers source) options = .error e := given.symm
    exact ⟨still, kept, by rw [failed, error_bind]⟩
  · have named := source_of_prepare prepared
    rw [prepared] at still kept given
    have checked : checkedTree (Template.stripMarkers source) options = .ok p.tree := given.symm
    refine ⟨still, kept, ?_⟩
    rw [checked, ok_bind, ← named]
    rfl

/-- An evaluation keeps an engine sound, also where it may use and keep results. -/
theorem keeps_evaluate (source : String) (resolver : Resolver) (options : EvalOptions) :
    Keeps Sound (evaluate source resolver options) := by
  unfold evaluate
  have bare := Template.stripMarkers_stripMarkers source
  generalize Template.stripMarkers source = source at bare ⊢
  refine (prepare_gives source options).keeps.bind fun p => ?_
  have computing := (compute_gives p bare resolver options).keeps
  cases (if options.cacheResults then resolver.cacheScope p.roots else none) with
  | none => exact computing
  | some scope =>
    intro engine sound
    simp only
    rw [run_bind, run_get]
    cases hit : engine.results.find? scope source with
    | some entry =>
      simp only [hit]
      exact sound
    | none =>
      simp only [hit]
      refine computing.bind (fun value => ?_) engine sound
      exact fun between still => still.withResults (between.results.insert ⟨scope, source, value, p.dependencies⟩)

end

theorem Sound.perform {engine : Engine} (sound : engine.Sound) (operation : Operation) :
    (operation.perform engine).Sound := by
  cases operation with
  | parse source => exact (parse_gives source).keeps engine sound
  | prepare source options => exact (prepare_gives source options).keeps engine sound
  | compile source => exact (compile_gives source).keeps engine sound
  | evaluate source resolver options => exact keeps_evaluate source resolver options engine sound
  | interpret source resolver options => exact (interpret_gives source resolver options).keeps engine sound
  | dependencies source options =>
    exact ((prepare_gives source options).keeps.bind fun _ => Keeps.pure _) engine sound
  | invalidate path => exact sound.withResults _
  | clearResults => exact sound.withResults _
  | clearCompiled => exact ⟨sound.trees, sound.validated, by simp [Operation.perform, clearCompiled]⟩
  | clear => exact Sound.empty _

theorem sound_after (history : List Operation) : (after history).Sound := by
  unfold after
  generalize start : ({} : Engine) = engine
  have sound : engine.Sound := start ▸ Sound.empty 0
  clear start
  induction history generalizing engine with
  | nil => exact sound
  | cons operation rest ih => exact ih _ (sound.perform operation)

/-- A tree with a direct form is interpreted to the direct value, unless the budget is spent. -/
theorem interpret_of_direct {tree : Expr} {direct : Direct} (simple : Direct.ofExpr? tree = some direct)
    (options : EvalOptions) (resolver : Resolver) :
    Eval.interpret options resolver tree = .ok (direct.call resolver) ∨
      ∃ e, Eval.interpret options resolver tree = .error e ∧ e.isOverBudget = true := by
  have steps : Eval.run options resolver tree =
      (do Eval.tick options; return direct.call resolver : EvalM Json).run 0 := by
    rw [← Direct.evaluate_eq simple options resolver]
    rfl
  rw [run_bind, Eval.run_tick] at steps
  unfold Eval.interpret
  rw [steps]
  split_ifs
  · exact Or.inr ⟨_, rfl, rfl⟩
  · exact Or.inr ⟨_, rfl, rfl⟩
  · exact Or.inl rfl

/-- Where the interpreter gets to the end of a tree within the budget, the answer is what it gives. -/
theorem answer_eq_interpretation {source : String} {resolver : Resolver} {options : EvalOptions}
    (within : ∀ e, interpretation source resolver options = .error e → e.isOverBudget = false) :
    answer source resolver options = interpretation source resolver options := by
  unfold answer interpretation at *
  cases checked : checkedTree source options with
  | error e => rfl
  | ok tree =>
    rw [checked] at within
    simp only [ok_bind] at within ⊢
    unfold valueOf
    cases form : directForm? source with
    | none => rfl
    | some direct =>
      have simple : Direct.ofExpr? tree = some direct := by
        rw [directForm?, parse_of_checkedTree checked] at form
        simp only at form
        split at form
        · exact form
        · cases form
      rcases interpret_of_direct simple options resolver with value | ⟨e, failed, spent⟩
      · rw [value]
        rfl
      · rw [failed] at within
        have inside := within _ rfl
        rw [Error.isOverBudget_withExpression, spent] at inside
        cases inside

/-- After any history, a source that may not use kept results has the value that a new engine gives it.
It fails with its first violation if there is one, and where interpreting it does not exceed the
budget, it has the outcome of that. -/
theorem evaluate_after_history (history : List Operation) (source : String) {resolver : Resolver}
    (uncached : ∀ names, resolver.cacheScope names = none) (options : EvalOptions) :
    ((evaluate source resolver options).run (after history)).1 =
        ((evaluate source resolver options).run {}).1 ∧
      (∀ tree v rest, Expr.parse (Template.stripMarkers source) = .ok tree →
        tree.violations options.validation = v :: rest →
          ((evaluate source resolver options).run (after history)).1 =
            .error (v.error.withExpression (Template.stripMarkers source))) ∧
      ((∀ e, ((interpret source resolver options).run (after history)).1 = .error e → e.isOverBudget = false) →
        ((evaluate source resolver options).run (after history)).1 =
          ((interpret source resolver options).run (after history)).1) := by
  have answers (engine : Engine) (sound : engine.Sound) :
      ((evaluate source resolver options).run engine).1 =
        answer (Template.stripMarkers source) resolver options := by
    refine (evaluate_evaluated sound source fun _ bare tree scope entry _ allowed _ => ?_).value
    rw [uncached] at allowed
    cases allowed
  rw [answers _ (sound_after history), answers _ (Sound.empty 0)]
  refine ⟨rfl, ?_, ?_⟩
  · intro tree v rest parsed violated
    have refused : tree.check options.validation = .error v.error := by
      rw [Expr.check, violated]
    rw [answer, checkedTree, parsed, ok_bind, refused]
    rfl
  · obtain ⟨_, _, interpreted⟩ := interpret_gives source resolver options _ (sound_after history)
    rw [interpreted]
    exact answer_eq_interpretation

/-- A host global that options have let through before is refused by options that do not allow it. -/
theorem evaluate_after_history_at_global :
    (∀ names, (Resolver.ofJson (.object [])).cacheScope names = none) ∧
      ((evaluate "window" (.ofJson (.object [])) {}).run
        (after [.evaluate "window" (.ofJson (.object [])) { allowGlobals := true }, .compile "window"])).1 =
          .error ((Violation.mk ⟨.origin, 6⟩ (.hostGlobal "window")).error.withExpression "window") := by
  have uncached : ∀ names, (Resolver.ofJson (.object [])).cacheScope names = none := fun _ => rfl
  have bare : Template.stripMarkers "window" = "window" := by decide +kernel
  have violated : (Expr.parse "window").toOption.map (·.violations (EvalOptions.validation {})) =
      some [⟨⟨.origin, 6⟩, .hostGlobal "window"⟩] := by decide +kernel
  cases parsed : Expr.parse "window" with
  | error e => simp [parsed, Except.toOption] at violated
  | ok tree =>
    simp only [parsed, Except.toOption, Option.map_some, Option.some.injEq] at violated
    obtain ⟨_, refused, _⟩ := evaluate_after_history
      [.evaluate "window" (.ofJson (.object [])) { allowGlobals := true }, .compile "window"]
      "window" uncached {}
    rw [bare] at refused
    exact ⟨uncached, refused tree _ [] parsed violated⟩

end Engine

end StateScript
