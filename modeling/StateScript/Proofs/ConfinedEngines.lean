import StateScript.Proofs.AlikeWorlds
import StateScript.Proofs.EvaluatedTexts

/-!
Engines that evaluate allowed sources only. Such an evaluation neither stores anything for another source nor
depends on what is stored for one.
-/

namespace StateScript

/-- What is remembered of a source: a tree and a direct form. -/
abbrev Remembered := Option ParsedExpr × Option CompiledExpr

namespace Engine

def memory (engine : Engine) (source : String) : Remembered :=
  (engine.parsed.find? (·.source == source), engine.compiled.find? source)

theorem memory_parsed (engine : Engine) (p : ParsedExpr) (serial : Nat) (source : String) :
    { engine with parsed := p :: engine.parsed, nextSerial := serial }.memory source =
      if source = p.source then (some p, (engine.memory source).2) else engine.memory source := by
  unfold memory
  by_cases own : source = p.source
  · simp [own]
  · have other : (p.source == source) = false := by simpa using Ne.symm own
    simp [own, other]

theorem memory_compiled (engine : Engine) (c : CompiledExpr) (serial : Nat) (source : String) :
    { engine with compiled := c :: engine.compiled, nextSerial := serial }.memory source =
      if source = c.source then ((engine.memory source).1, some c) else engine.memory source := by
  unfold memory CompiledCache.find?
  by_cases own : source = c.source
  · simp [own]
  · have other : (c.source == source) = false := by simpa using Ne.symm own
    simp [own, other]

theorem memory_markValidated (engine : Engine) (marked : String) (options : ValidationOptions) (source : String) :
    (engine.markValidated marked options).memory source =
      if source = marked then
        ((engine.memory source).1.map fun p => { p with validated := options :: p.validated },
          (engine.memory source).2)
      else engine.memory source := by
  have found : (engine.markValidated marked options).parsed.find? (·.source == source) =
      (engine.parsed.find? (·.source == source)).map fun p =>
        if p.source = marked then { p with validated := options :: p.validated } else p := by
    have same : ((fun p : ParsedExpr => p.source == source) ∘ fun p =>
        if p.source = marked then { p with validated := options :: p.validated } else p) =
          fun p => p.source == source := by
      funext p
      dsimp only [Function.comp]
      split <;> rfl
    rw [markValidated, List.find?_map, same]
  unfold memory
  rw [found]
  cases known : engine.parsed.find? (·.source == source) with
  | none => split <;> rfl
  | some p =>
    have own : p.source = source := by simpa using List.find?_some known
    simp only [Option.map_some, own]
    split <;> rfl

/-- Two engines that are the same but for what they remember of sources that are not allowed. -/
structure SameBut (allowed : String → Prop) (a b : Engine) : Prop where
  results : a.results = b.results
  serial : a.nextSerial = b.nextSerial
  within : ∀ source, allowed source → a.memory source = b.memory source

/-- Whatever tree an engine remembers of a source that is not allowed. -/
theorem sameBut_plant {allowed : String → Prop} (engine : Engine) {p : ParsedExpr} (forbidden : ¬ allowed p.source) :
    engine.SameBut allowed { engine with parsed := p :: engine.parsed } where
  results := rfl
  serial := rfl
  within source may := by
    have apart : source ≠ p.source := fun same => forbidden (same ▸ may)
    exact ((engine.memory_parsed p engine.nextSerial source).trans (if_neg apart)).symm

/-- Of the sources that are not allowed the two engines remember what is given. -/
structure Confined (allowed : String → Prop) (first second : String → Remembered) (a b : Engine) : Prop
    extends SameBut allowed a b where
  left : ∀ source, ¬ allowed source → a.memory source = first source
  right : ∀ source, ¬ allowed source → b.memory source = second source

section

variable {allowed : String → Prop} {first second : String → Remembered}

section

variable {a b a' b' : Engine} (confined : Confined allowed first second a b)

include confined

/-- Both engines change what they remember of one allowed source. -/
theorem Confined.update {known : String} (may : allowed known) (change : Remembered → Remembered)
    (left : ∀ source, a'.memory source = if source = known then change (a.memory source) else a.memory source)
    (right : ∀ source, b'.memory source = if source = known then change (b.memory source) else b.memory source)
    (results : a'.results = b'.results) (serial : a'.nextSerial = b'.nextSerial) :
    Confined allowed first second a' b' where
  results := results
  serial := serial
  within source own := by rw [left, right, confined.within source own]
  left source other := by
    have apart : source ≠ known := fun same => other (same ▸ may)
    rw [left, if_neg apart, confined.left source other]
  right source other := by
    have apart : source ≠ known := fun same => other (same ▸ may)
    rw [right, if_neg apart, confined.right source other]

theorem Confined.withResults {results results' : ResultCache} (same : results = results') :
    Confined allowed first second { a with results } { b with results := results' } :=
  { confined with results := same }

theorem Confined.remember {source : String} (may : allowed source) (p : ParsedExpr) (own : p.source = source)
    {n n' : Nat} (same : n = n') :
    Confined allowed first second { a with parsed := p :: a.parsed, nextSerial := n }
      { b with parsed := p :: b.parsed, nextSerial := n' } := by
  refine confined.update may (fun before => (some p, before.2)) ?_ ?_ confined.results same
  · exact fun source => own ▸ a.memory_parsed p n source
  · exact fun source => own ▸ b.memory_parsed p n' source

theorem Confined.rememberDirect {source : String} (may : allowed source) (c : CompiledExpr)
    (own : c.source = source) {n n' : Nat} (same : n = n') :
    Confined allowed first second { a with compiled := c :: a.compiled, nextSerial := n }
      { b with compiled := c :: b.compiled, nextSerial := n' } := by
  refine confined.update may (fun before => (before.1, some c)) ?_ ?_ confined.results same
  · exact fun source => own ▸ a.memory_compiled c n source
  · exact fun source => own ▸ b.memory_compiled c n' source

theorem Confined.markValidated {source : String} (may : allowed source) (options : ValidationOptions) :
    Confined allowed first second (a.markValidated source options) (b.markValidated source options) :=
  confined.update may
    (fun before => (before.1.map fun p => { p with validated := options :: p.validated }, before.2))
    (a.memory_markValidated source options) (b.memory_markValidated source options) confined.results confined.serial

end

/-- An operation that evaluates allowed sources only. -/
abbrev Confines (allowed : String → Prop) (first second : String → Remembered) {α : Type} (operation : EngineM α) :
    Prop := Respects (Confined allowed first second) operation

theorem confines_parse {source : String} (may : allowed source) :
    Confines allowed first second (parse source) := by
  intro a b confined
  have same : a.parsed.find? (·.source == source) = b.parsed.find? (·.source == source) :=
    congrArg Prod.fst (confined.within source may)
  rw [run_parse, run_parse, same, confined.serial]
  cases b.parsed.find? (·.source == source) with
  | some p => exact ⟨rfl, confined⟩
  | none =>
    cases Expr.parse source with
    | error e => exact ⟨rfl, confined⟩
    | ok tree => exact ⟨rfl, confined.remember may _ rfl rfl⟩

theorem confines_prepare {source : String} (may : allowed (Template.stripMarkers source)) (options : EvalOptions) :
    Confines allowed first second (prepare source options) := by
  unfold prepare
  refine (confines_parse may).bind fun p => ?_
  cases p.validated.contains options.validation with
  | true => exact Agree.pure _
  | false =>
    refine (Agree.ofExcept _).bind fun _ => ?_
    exact (Agree.modify fun _ _ confined => confined.markValidated may _).bind fun _ => Agree.pure _

theorem confines_directOf {source : String} (may : allowed source) :
    Confines allowed first second (directOf source) := by
  intro a b confined
  obtain ⟨same, left⟩ := confines_parse may confined
  rw [run_directOf, run_directOf]
  rcases ran : (parse source).run a with ⟨e | p, after⟩ <;> rcases ran' : (parse source).run b with ⟨e' | p', after'⟩ <;>
    rw [ran, ran'] at same left <;> cases same
  · exact ⟨rfl, left⟩
  · exact ⟨rfl, left⟩

theorem confines_compile {source : String} (may : allowed (Template.stripMarkers source)) :
    Confines allowed first second (compile source) := by
  unfold compile
  generalize Template.stripMarkers source = bare at may ⊢
  refine Agree.get_bind fun a b confined => ?_
  have same : a.compiled.find? bare = b.compiled.find? bare := congrArg Prod.snd (confined.within bare may)
  simp only [same]
  cases b.compiled.find? bare with
  | some c => exact Agree.pure _
  | none =>
    refine (confines_directOf may).bind fun direct => ?_
    intro a b confined
    show Except.ok (CompiledExpr.mk bare direct a.nextSerial) = Except.ok ⟨bare, direct, b.nextSerial⟩ ∧
      Confined allowed first second
        { a with compiled := ⟨bare, direct, a.nextSerial⟩ :: a.compiled, nextSerial := a.nextSerial + 1 }
        { b with compiled := ⟨bare, direct, b.nextSerial⟩ :: b.compiled, nextSerial := b.nextSerial + 1 }
    rw [confined.serial]
    exact ⟨rfl, confined.rememberDirect may _ rfl rfl⟩

theorem confines_compute (p : ParsedExpr) {source : String} (may : allowed (Template.stripMarkers source))
    (resolver : Resolver) (options : EvalOptions) :
    Confines allowed first second (compute p source resolver options) := by
  unfold compute
  refine (confines_compile may).bind fun c => ?_
  cases c.direct with
  | none => exact Agree.ofExcept _
  | some direct => exact Agree.pure _

variable (resolver : Resolver) (options : EvalOptions)

theorem confines_evaluate {source : String} (may : allowed (Template.stripMarkers source)) :
    Confines allowed first second (evaluate source resolver options) := by
  unfold evaluate
  have bare : allowed (Template.stripMarkers (Template.stripMarkers source)) := by
    rw [Template.stripMarkers_stripMarkers]
    exact may
  refine (confines_prepare bare options).bind fun p => ?_
  have computes : Confines allowed first second (compute p (Template.stripMarkers source) resolver options) :=
    confines_compute p bare resolver options
  dsimp only
  cases (if options.cacheResults then resolver.cacheScope p.roots else none) with
  | none => exact computes
  | some scope =>
    refine Agree.get_bind fun a b confined => ?_
    rw [confined.results]
    cases b.results.find? scope (Template.stripMarkers source) with
    | some entry => exact Agree.pure _
    | none =>
      refine computes.bind fun value => ?_
      refine (Agree.modify fun a b confined => ?_).bind fun _ => Agree.pure _
      exact confined.withResults (by rw [confined.results])

theorem confines_sources : HoldsOfSources allowed resolver options
    fun operation => Confines allowed first second operation where
  evaluate may := confines_evaluate resolver options may
  pure := Agree.pure
  bind := Agree.bind

end

end Engine

end StateScript
