import StateScript.Engine.Basic
import StateScript.Proofs.Lookups
import StateScript.Proofs.Runs
import StateScript.Proofs.Templates

/-!
What an engine remembers. Trees, validations and direct forms that are remembered are the ones that
would be computed, so an answer depends on the engine only through its results.
-/

namespace StateScript.Engine

/-- The direct form of a source without markers. -/
def directForm? (source : String) : Option Direct :=
  match Expr.parse source with
  | .ok tree => if (tree.violations {}).isEmpty then Direct.ofExpr? tree else none
  | .error _ => none

/-- The tree of a source without markers, if the options allow it. -/
def checkedTree (source : String) (options : EvalOptions) : Except Error Expr := do
  let tree ← Expr.parse source
  (tree.check options.validation).mapError (Error.withExpression source)
  return tree

/-- The value of a tree that was read from a source without markers. -/
def valueOf (source : String) (tree : Expr) (resolver : Resolver) (options : EvalOptions) :
    Except Error Json :=
  match directForm? source with
  | some direct => .ok (direct.call resolver)
  | none => (Eval.interpret options resolver tree).mapError (Error.withExpression source)

/-- The value of a source without markers, computed with nothing remembered. -/
def answer (source : String) (resolver : Resolver) (options : EvalOptions) : Except Error Json := do
  let tree ← checkedTree source options
  valueOf source tree resolver options

theorem parse_of_checkedTree {source : String} {options : EvalOptions} {tree : Expr}
    (checked : checkedTree source options = .ok tree) : Expr.parse source = .ok tree := by
  obtain ⟨parsed, same, rest⟩ := bind_eq_ok.mp checked
  obtain ⟨_, _, given⟩ := bind_eq_ok.mp rest
  cases given
  exact same

theorem answer_of_checkedTree {source : String} {options : EvalOptions} {tree : Expr}
    (checked : checkedTree source options = .ok tree) (resolver : Resolver) :
    answer source resolver options = valueOf source tree resolver options := by
  rw [answer, checked, ok_bind]

/-- An answer depends on the limits, on what validation may allow and on the names that are looked up. -/
theorem answer_congr {source : String} {r₁ r₂ : Resolver} {o₁ o₂ : EvalOptions}
    (limits : Eval.SameLimits o₁ o₂) (validation : o₁.validation = o₂.validation)
    (same : ∀ tree, Expr.parse source = .ok tree → Eval.SameOn r₁ r₂ tree.lookups) :
    answer source r₁ o₁ = answer source r₂ o₂ := by
  have checks : checkedTree source o₁ = checkedTree source o₂ := by simp only [checkedTree, validation]
  unfold answer
  rw [checks]
  cases checked : checkedTree source o₂ with
  | error e => rfl
  | ok tree =>
    have parsed := parse_of_checkedTree checked
    rw [ok_bind, ok_bind, valueOf, valueOf]
    cases form : directForm? source with
    | none => simp only [Eval.interpret, Eval.run_congr limits (same tree parsed)]
    | some direct =>
      simp only [directForm?, parsed] at form
      split at form
      · exact congrArg Except.ok (Direct.call_congr form (same tree parsed))
      · cases form

/-- What is remembered is what would be computed. -/
structure Sound (engine : Engine) : Prop where
  trees : ∀ p ∈ engine.parsed, Expr.parse p.source = .ok p.tree
  validated : ∀ p ∈ engine.parsed, ∀ v ∈ p.validated, p.tree.check v = .ok ()
  directs : ∀ c ∈ engine.compiled, c.direct = directForm? c.source

theorem Sound.empty (serial : Nat) : Sound { nextSerial := serial } := by
  constructor <;> simp

theorem Sound.withResults {engine : Engine} (sound : engine.Sound) (results : ResultCache) :
    Sound { engine with results } :=
  ⟨sound.trees, sound.validated, sound.directs⟩

theorem Sound.markValidated {engine : Engine} (sound : engine.Sound) {source : String} {tree : Expr}
    {v : ValidationOptions} (parsed : Expr.parse source = .ok tree) (passes : tree.check v = .ok ()) :
    (engine.markValidated source v).Sound := by
  constructor
  · intro p member
    obtain ⟨q, old, rfl⟩ := List.mem_map.mp member
    split <;> exact sound.trees q old
  · intro p member
    obtain ⟨q, old, rfl⟩ := List.mem_map.mp member
    split
    · rename_i same
      intro u either
      rcases List.mem_cons.mp either with rfl | before
      · have own := sound.trees q old
        rw [same, parsed, Except.ok.injEq] at own
        rw [← own]
        exact passes
      · exact sound.validated q old u before
    · exact sound.validated q old
  · exact sound.directs

section

variable {α β : Type} {middle : Except Error α → Prop} {outcome : Except Error β → Prop}

/-- On a sound engine an operation has an outcome of some kind. It leaves the engine sound and the
results as they are. -/
def Gives (operation : EngineM α) (outcome : Except Error α → Prop) : Prop :=
  ∀ engine : Engine, engine.Sound →
    (operation.run engine).2.Sound ∧ (operation.run engine).2.results = engine.results ∧
      outcome (operation.run engine).1

theorem Gives.pure {b : β} (holds : outcome (.ok b)) : Gives (Pure.pure b) outcome :=
  fun _ sound => ⟨sound, rfl, holds⟩

theorem Gives.ofExcept (result : Except Error β) : Gives (Engine.ofExcept result) fun r => r = result :=
  fun _ sound => ⟨sound, rfl, rfl⟩

theorem Gives.modify {change : Engine → Engine} (keeps : ∀ engine, engine.Sound → (change engine).Sound)
    (same : ∀ engine, (change engine).results = engine.results) :
    Gives (MonadState.modifyGet fun engine => (PUnit.unit, change engine)) fun result => result = .ok ⟨⟩ :=
  fun engine sound => ⟨keeps engine sound, same engine, rfl⟩

theorem Gives.bind {first : EngineM α} {next : α → EngineM β} (before : Gives first middle)
    (failed : ∀ e, middle (.error e) → outcome (.error e))
    (rest : ∀ a, middle (.ok a) → Gives (next a) outcome) : Gives (first >>= next) outcome := by
  intro engine sound
  obtain ⟨still, kept, holds⟩ := before engine sound
  rw [run_bind]
  rcases ran : first.run engine with ⟨_ | a, between⟩
  · rw [ran] at still kept holds
    exact ⟨still, kept, failed _ holds⟩
  · rw [ran] at still kept holds
    obtain ⟨after, same, final⟩ := rest a holds between still
    exact ⟨after, same.trans kept, final⟩

end

theorem Sound.withTree {engine : Engine} (sound : engine.Sound) {source : String} {tree : Expr}
    (parsed : Expr.parse source = .ok tree) :
    Sound { engine with
      parsed := ⟨source, tree, [], engine.nextSerial⟩ :: engine.parsed
      nextSerial := engine.nextSerial + 1 } := by
  constructor
  · intro p member
    rcases List.mem_cons.mp member with rfl | old
    · exact parsed
    · exact sound.trees p old
  · intro p member
    rcases List.mem_cons.mp member with rfl | old
    · simp
    · exact sound.validated p old
  · exact sound.directs

theorem Sound.withDirect {engine : Engine} (sound : engine.Sound) (source : String) :
    Sound { engine with
      compiled := ⟨source, directForm? source, engine.nextSerial⟩ :: engine.compiled
      nextSerial := engine.nextSerial + 1 } := by
  refine ⟨sound.trees, sound.validated, ?_⟩
  intro c member
  rcases List.mem_cons.mp member with rfl | old
  · rfl
  · exact sound.directs c old

/-- Parsing finds the source among those read before, or reads it and remembers its tree. -/
theorem run_parse (source : String) (engine : Engine) : (parse source).run engine =
    match engine.parsed.find? (·.source == source) with
    | some p => (.ok p, engine)
    | none =>
      match Expr.parse source with
      | .error e => (.error e, engine)
      | .ok tree => (.ok ⟨source, tree, [], engine.nextSerial⟩, { engine with
          parsed := ⟨source, tree, [], engine.nextSerial⟩ :: engine.parsed
          nextSerial := engine.nextSerial + 1 }) := by
  unfold parse
  rw [run_bind, run_get]
  cases found : engine.parsed.find? (·.source == source) with
  | some p => simp only [found]; rfl
  | none =>
    simp only [found]
    cases Expr.parse source <;> rfl

theorem source_of_parse {source : String} {engine after : Engine} {p : ParsedExpr}
    (parsed : (parse source).run engine = (.ok p, after)) : p.source = source := by
  rw [run_parse] at parsed
  split at parsed
  · rename_i found
    cases parsed
    simpa using List.find?_some found
  · split at parsed <;> cases parsed
    rfl

/-- Parsing gives the tree of the source, with validations that hold. -/
theorem parse_gives (source : String) :
    Gives (parse source) fun result => result.map ParsedExpr.tree = Expr.parse source ∧
      ∀ p, result = .ok p → ∀ v ∈ p.validated, p.tree.check v = .ok () := by
  intro engine sound
  rw [run_parse]
  cases found : engine.parsed.find? (·.source == source) with
  | some p =>
    have member := List.mem_of_find?_eq_some found
    have same : p.source = source := by simpa using List.find?_some found
    refine ⟨sound, rfl, by rw [← same, sound.trees p member]; rfl, ?_⟩
    intro q given
    cases given
    exact sound.validated p member
  | none =>
    cases parsed : Expr.parse source with
    | error e => exact ⟨sound, rfl, rfl, by simp⟩
    | ok tree =>
      refine ⟨sound.withTree parsed, rfl, rfl, ?_⟩
      intro p given
      cases given
      simp

/-- Preparing gives the tree of the source if the options allow it. -/
theorem prepare_gives (source : String) (options : EvalOptions) :
    Gives (prepare source options) fun result =>
      result.map ParsedExpr.tree = checkedTree (Template.stripMarkers source) options := by
  unfold prepare checkedTree
  refine (parse_gives (Template.stripMarkers source)).bind ?_ ?_
  · rintro e ⟨failed, _⟩
    rw [← failed]
    rfl
  · rintro p ⟨given, holds⟩
    have parsed : Expr.parse (Template.stripMarkers source) = .ok p.tree := given.symm
    rw [parsed, ok_bind]
    cases marked : p.validated.contains options.validation with
    | true =>
      have passes := holds p rfl _ (by simpa using marked)
      rw [passes]
      exact Gives.pure rfl
    | false =>
      refine (Gives.ofExcept _).bind ?_ ?_
      · intro e failed
        rw [← failed]
        rfl
      · intro passed succeeded
        rw [← succeeded, ok_bind]
        have passes : p.tree.check options.validation = .ok () := by
          cases checked : p.tree.check options.validation with
          | error e => simp [checked, Except.mapError] at succeeded
          | ok _ => rfl
        refine (Gives.modify (fun _ sound => sound.markValidated parsed passes) fun _ => rfl).bind ?_ ?_
        · rintro _ ⟨⟩
        · exact fun _ _ => Gives.pure rfl

theorem run_directOf (source : String) (engine : Engine) :
    (directOf source).run engine = match (parse source).run engine with
      | (.ok p, after) => (.ok (if (p.tree.violations {}).isEmpty then Direct.ofExpr? p.tree else none), after)
      | (.error _, after) => (.ok none, after) := rfl

theorem directOf_gives (source : String) :
    Gives (directOf source) fun result => result = .ok (directForm? source) := by
  intro engine sound
  obtain ⟨still, kept, given, _⟩ := parse_gives source engine sound
  rw [run_directOf]
  rcases outcome : (parse source).run engine with ⟨e | p, after⟩
  · rw [outcome] at still kept given
    have failed : Expr.parse source = .error e := given.symm
    exact ⟨still, kept, by simp [directForm?, failed]⟩
  · rw [outcome] at still kept given
    have parsed : Expr.parse source = .ok p.tree := given.symm
    exact ⟨still, kept, by simp [directForm?, parsed]⟩

theorem compile_gives (source : String) :
    Gives (compile source) fun result =>
      result.map CompiledExpr.direct = .ok (directForm? (Template.stripMarkers source)) := by
  unfold compile
  generalize Template.stripMarkers source = bare
  intro engine sound
  rw [run_bind, run_get]
  cases found : engine.compiled.find? bare with
  | some c =>
    have member := List.mem_of_find?_eq_some found
    have same : c.source = bare := by simpa using List.find?_some found
    simp only [found]
    refine ⟨sound, rfl, ?_⟩
    rw [← same, ← sound.directs c member]
    rfl
  | none =>
    simp only [found]
    have rest : Gives (do
        let direct ← directOf bare
        let engine ← get
        let c : CompiledExpr := ⟨bare, direct, engine.nextSerial⟩
        set { engine with compiled := c :: engine.compiled, nextSerial := engine.nextSerial + 1 }
        return c) fun result => result.map CompiledExpr.direct = .ok (directForm? bare) := by
      refine (directOf_gives bare).bind ?_ ?_
      · rintro _ ⟨⟩
      · rintro direct same
        obtain rfl := Except.ok.inj same
        exact fun engine sound => ⟨sound.withDirect bare, rfl, rfl⟩
    exact rest engine sound

/-- A value is computed as if nothing were remembered. -/
theorem compute_gives (p : ParsedExpr) {source : String} (bare : Template.stripMarkers source = source)
    (resolver : Resolver) (options : EvalOptions) :
    Gives (compute p source resolver options) fun result =>
      result = valueOf source p.tree resolver options := by
  unfold compute valueOf
  refine (compile_gives source).bind ?_ ?_
  · intro e failed
    cases failed
  · intro c same
    rw [bare] at same
    rw [← Except.ok.inj same]
    cases c.direct with
    | none => exact Gives.ofExcept _
    | some direct => exact Gives.pure rfl

/-- The results that an evaluation may find are answers. -/
def Agrees (results : ResultCache) (resolver : Resolver) (options : EvalOptions) : Prop :=
  ∀ source tree scope entry, Expr.parse source = .ok tree →
    resolver.cacheScope (dependencyRoots tree.dependencies) = some scope →
      results.find? scope source = some entry → answer source resolver options = .ok entry.value

/-- The entry that an evaluation may store. -/
def IsAnswer (entry : CachedResult) (resolver : Resolver) (options : EvalOptions) : Prop :=
  ∃ tree, Expr.parse entry.source = .ok tree ∧ entry.dependencies = tree.dependencies ∧
    Template.stripMarkers entry.source = entry.source ∧
    resolver.cacheScope (dependencyRoots tree.dependencies) = some entry.scope ∧
      answer entry.source resolver options = .ok entry.value

/-- What is left of an engine by evaluating a source without markers: the answer, and at most one more
result, which is the answer too. -/
structure Evaluated (engine : Engine) (source : String) (resolver : Resolver) (options : EvalOptions)
    (outcome : Except Error Json × Engine) : Prop where
  sound : outcome.2.Sound
  value : outcome.1 = answer source resolver options
  results : outcome.2.results = engine.results ∨
    ∃ entry, IsAnswer entry resolver options ∧ outcome.2.results = engine.results.insert entry

section

variable {engine between : Engine} {source : String} {resolver : Resolver} {options : EvalOptions}

theorem Evaluated.store {p : ParsedExpr} {scope : TreeId} (sound : between.Sound)
    (kept : between.results = engine.results) (bare : Template.stripMarkers source = source)
    (checked : checkedTree source options = .ok p.tree) (allowed : resolver.cacheScope p.roots = some scope) :
    Evaluated engine source resolver options ((do
      let value ← compute p source resolver options
      modify fun engine =>
        { engine with results := engine.results.insert ⟨scope, source, value, p.dependencies⟩ }
      return value : EngineM Json).run between) := by
  obtain ⟨after, same, value⟩ := compute_gives p bare resolver options between sound
  have answered := value.trans (answer_of_checkedTree checked resolver).symm
  rw [run_bind]
  rcases computed : (compute p source resolver options).run between with ⟨e | v, left⟩
  · rw [computed] at after same answered
    show Evaluated engine source resolver options (.error e, left)
    exact ⟨after, answered, Or.inl (same.trans kept)⟩
  · rw [computed] at after same answered
    show Evaluated engine source resolver options (.ok v, { left with
      results := left.results.insert ⟨scope, source, v, p.dependencies⟩ })
    refine ⟨after.withResults _, answered, Or.inr ⟨⟨scope, source, v, p.dependencies⟩, ?_, ?_⟩⟩
    · exact ⟨p.tree, parse_of_checkedTree checked, rfl, bare, allowed, answered.symm⟩
    · exact congrArg (ResultCache.insert _) (same.trans kept)

/-- An evaluation gives the answer, and stores nothing but answers. -/
theorem evaluate_evaluated (sound : engine.Sound) (source : String)
    (agrees : options.cacheResults = true → Agrees engine.results resolver options) :
    Evaluated engine (Template.stripMarkers source) resolver options
      ((evaluate source resolver options).run engine) := by
  unfold evaluate
  have bare := Template.stripMarkers_stripMarkers source
  -- From here on only the stripped source counts; stripping it again changes nothing.
  generalize Template.stripMarkers source = source at bare ⊢
  obtain ⟨still, kept, given⟩ := prepare_gives source options engine sound
  rw [run_bind]
  rw [bare] at given
  rcases prepared : (prepare source options).run engine with ⟨e | p, between⟩
  · rw [prepared] at still kept given
    have failed : checkedTree source options = .error e := given.symm
    show Evaluated engine source resolver options (.error e, between)
    exact ⟨still, by simp only [answer, failed, error_bind], Or.inl kept⟩
  · rw [prepared] at still kept given
    have checked : checkedTree source options = .ok p.tree := given.symm
    cases place : (if options.cacheResults then resolver.cacheScope p.roots else none) with
    | none =>
      simp only [place]
      obtain ⟨after, same, value⟩ := compute_gives p bare resolver options between still
      exact ⟨after, value.trans (answer_of_checkedTree checked resolver).symm, Or.inl (same.trans kept)⟩
    | some scope =>
      obtain ⟨caching, allowed⟩ : options.cacheResults = true ∧ resolver.cacheScope p.roots = some scope := by
        simpa using place
      simp only [place]
      rw [run_bind, run_get]
      cases hit : between.results.find? scope source with
      | some entry =>
        simp only [hit]
        rw [kept] at hit
        -- The entry is found with a scope that the resolver allows, so it agrees.
        have held := agrees caching source p.tree scope entry (parse_of_checkedTree checked) allowed hit
        exact ⟨still, held.symm, Or.inl kept⟩
      | none =>
        simp only [hit]
        exact Evaluated.store still kept bare checked allowed

end

end StateScript.Engine
