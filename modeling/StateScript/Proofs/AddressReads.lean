import StateScript.Proofs.AddressValues
import StateScript.Proofs.WriteReads

/-!
Addresses read as paths and evaluated as expressions, in the scopes of a world. Both name one place exactly if
no step holds digits that the two readers take for different segments.
-/

namespace StateScript

namespace World

section

variable {w after : World} (sound : w.Sound)

include sound

theorem Sound.congr (shapes : ∀ id, after.shape? id = w.shape? id) (trees : after.trees = w.trees)
    (sessions : after.sessions = w.sessions) : after.Sound := by
  refine ⟨sound.coherent.congr shapes trees, fun found => ?_⟩
  rw [sessions] at found
  exact sound.engines found

theorem Sound.modifySession (id : ScopeId) {change : Session → Session}
    (keeps : ∀ session : Session, session.engine.Sound → (change session).engine.Sound) :
    (w.modifySession id change).Sound := by
  refine ⟨sound.coherent.congr (shape?_congr (modifySession_scopes ..)) (modifySession_trees ..), ?_⟩
  intro other session found
  cases member : w.tree? id with
  | none =>
    simp only [World.modifySession, member] at found
    exact sound.engines found
  | some shared =>
    simp only [World.modifySession, member, Store.find?_modify] at found
    split at found
    · obtain ⟨before, present, rfl⟩ := Option.map_eq_some_iff.mp found
      exact keeps before (sound.engines present)
    · exact sound.engines found

theorem Sound.afterParsing (id : ScopeId) (path : String) : (w.afterParsing id path).Sound := by
  rcases afterParsing_eq id path w with same | ⟨paths, same⟩
  · rw [same]
    exact sound
  · rw [same]
    exact sound.modifySession id fun _ engine => engine

theorem Sound.setPath (id : ScopeId) (path : String) (value : Json) :
    ((setPath id path value).run w).2.Sound := by
  have parsed := sound.afterParsing id path
  rw [run_setPath]
  cases target path with
  | error e => exact parsed
  | ok found =>
    obtain ⟨first, rest⟩ := found
    have left : ((w.afterParsing id path).modifyBindings (w.owner id first)
        fun _ => (assign first rest value (w.bindings (w.owner id first))).1).Sound :=
      parsed.congr (fun _ => shape?_modifyBindings ..) rfl rfl
    dsimp only
    cases (assign first rest value (w.bindings (w.owner id first))).2 with
    | some fault => exact left
    | none =>
      have dropped : (((w.afterParsing id path).modifyBindings (w.owner id first)
          fun _ => (assign first rest value (w.bindings (w.owner id first))).1).invalidate id path).Sound :=
        left.modifySession id fun _ engine => engine.withResults _
      exact dropped.congr (shape?_congr (notify_scopes ..)) (notify_trees ..) (notify_sessions ..)

end

theorem evalOptions_congr {w after : World} (shapes : ∀ id, after.shape? id = w.shape? id)
    (trees : after.trees = w.trees) (id : ScopeId) : after.evalOptions id = w.evalOptions id := by
  have member (w : World) : w.tree? id = (w.shape? id).bind fun shape => w.trees.find? shape.2 := by
    unfold tree? shape?
    cases w.scope? id <;> rfl
  rw [evalOptions, evalOptions, member, member, shapes, trees]

theorem setPath_trees (id : ScopeId) (path : String) (value : Json) (w : World) :
    ((setPath id path value).run w).2.trees = w.trees := by
  have parsed : (w.afterParsing id path).trees = w.trees := by
    rcases afterParsing_eq id path w with same | ⟨paths, same⟩
    · rw [same]
    · rw [same, modifySession_trees]
  rw [run_setPath]
  cases target path with
  | error e => exact parsed
  | ok found =>
    dsimp only
    split
    · exact parsed
    · rw [notify_trees, invalidate_trees]
      exact parsed

/-- After a write that succeeds, the first name of the path is looked up to where the value stands. -/
theorem lookup_setPath {w : World} (coherent : w.Coherent) {id : ScopeId} {up : Option ScopeId} {tree : TreeId}
    (found : w.shape? id = some (up, tree)) {path : String} {value : Json}
    (success : ((setPath id path value).run w).1 = .ok ()) :
    (∀ s, ((setPath id path value).run w).2.shape? s = w.shape? s) ∧
      ∃ segment rest, Path.parse path = .ok (segment :: rest) ∧
        (((setPath id path value).run w).2.lookup id segment.text).bind (Json.get? · rest) = some value := by
  obtain ⟨first, rest, named, assigned, scopes⟩ := setPath_succeeds success
  generalize ((setPath id path value).run w).2 = after at scopes ⊢
  obtain ⟨segment, parsed, rfl, _, _⟩ := target_ok named
  obtain ⟨below, above, split, unbound, _⟩ := coherent.chain_owner found segment.text
  have shapes (s : ScopeId) : after.shape? s = w.shape? s := shape?_of_modified scopes s
  refine ⟨shapes, segment, rest, parsed, ?_⟩
  have others (s : ScopeId) (different : s ≠ w.owner id segment.text) : after.bindings s = w.bindings s := by
    rw [bindings_congr scopes, bindings_modifyBindings_ne different]
  obtain ⟨scope, present⟩ : ∃ scope, w.scope? (w.owner id segment.text) = some scope := by
    have member : w.owner id segment.text ∈ w.chain id := by simp [split]
    obtain ⟨_, there⟩ := coherent.mem_chain found member
    obtain ⟨_, present⟩ := shape?_eq_some_iff.mp there
    exact ⟨_, present⟩
  obtain ⟨slot, own, below_slot⟩ := Option.bind_eq_some_iff.mp (find?_assign_self assigned)
  have now := (bindings_congr scopes (w.owner id segment.text)).trans (bindings_modifyBindings_self present _)
  rw [← now] at own
  rw [coherent.lookup_down split unbound shapes others own id (self_mem_of_split split)]
  exact below_slot

/-- A world like `holding`, with options for its tree. -/
def holdingUnder (options : EvalOptions) (state : Members) : World :=
  ((create { state := .object state, options } 1).run (addSession (.ofCapacities 10 1024) {}).2).2

theorem holdingUnder_faithful (options : EvalOptions) (state : Members) : (holdingUnder options state).Faithful :=
  (Trusted.empty.faithful.addSession 10 1024).create _ 1

end World

/-- Evaluating an address in a scope gives what a write at it has put there, and what is read at it unless that
is null. The results that a session keeps make no difference where they are up to date. -/
structure Address.NamesOnePlace (a : Address) (w : World) (id : ScopeId) : Prop where
  written : ∀ value, ((World.setPath id a.text value).run w).1 = .ok () →
    ((World.evaluateAnew id a.text).run ((World.setPath id a.text value).run w).2).1 = .ok value
  read : ∀ value, ((World.getPath id a.text).run w).1 = .ok value → value ≠ .null →
    ((World.evaluateAnew id a.text).run w).1 = .ok value ∧
      (w.Trusted → ((World.evaluate id a.text).run w).1 = .ok value)

namespace Address

/-- Objects inside each other, with a value at the end of the segments of some steps. -/
def nested : List AddressStep → Json
  | [] => .bool true
  | step :: rest => .object [(step.segment.text, nested rest)]

theorem child?_nested (step : AddressStep) (rest : List AddressStep) :
    (nested (step :: rest)).child? step.segment = some (nested rest) :=
  Json.child?_insert step.segment_ne_wildcard (nested rest) []

theorem get?_nested (steps : List AddressStep) :
    (nested steps).get? (steps.map AddressStep.segment) = some (.bool true) := by
  induction steps with
  | nil => rfl
  | cons step rest ih =>
    rw [List.map_cons, Json.get?, child?_nested]
    exact ih

/-- A step that is not plain leads evaluation off. -/
theorem project_nested {steps : List AddressStep} (odd : ¬ ∀ step ∈ steps, step.Plain) :
    Eval.project (nested steps) (steps.map AddressStep.literal) = .null := by
  induction steps with
  | nil => exact absurd (by simp) odd
  | cons step rest ih =>
    rw [List.map_cons, Eval.project]
    by_cases first : step.Plain
    · have others : ¬ ∀ step ∈ rest, step.Plain := fun all => odd (List.forall_mem_cons.mpr ⟨first, all⟩)
      rw [first.child?, child?_nested, Option.getD_some, ih others]
    · have absent : (nested (step :: rest)).child? step.literal = none := by
        have differs : ¬ step.segment.text = step.literal.text := fun same => first (step.plain_iff.mpr same.symm)
        rw [nested, Json.child?_object step.literal_ne_wildcard, Members.find?, if_neg differs, Members.find?]
      have none' : Eval.intrinsic (nested (step :: rest)) step.literal = .null := by
        cases step.literal <;> rfl
      rw [absent, Option.getD_none, none', Json.project_null]

section

variable (a : Address) {tree : Expr} (parsed : Expr.parse a.text = .ok tree)

theorem parse_text : Path.parse a.text = .ok (.key a.root :: a.steps.map AddressStep.segment) := by
  rw [Path.parse, a.read_text]
  rfl

include parsed

theorem evaluateAnew_eq {w : World} (sound : w.Sound) (id : ScopeId) :
    ((World.evaluateAnew id a.text).run w).1 = Engine.answer a.text (w.resolver id) (w.evalOptions id) := by
  rw [sound.evaluateAnew_eq, a.stripMarkers_text parsed]

/-- Plain steps lead evaluation to what stands at the segments. -/
theorem evaluateAnew_of_plain {w : World} (sound : w.Sound) {id : ScopeId}
    (allowed : tree.violations (w.evalOptions id).validation = []) (plain : ∀ step ∈ a.steps, step.Plain)
    (affordable : Affordable tree (w.evalOptions id)) {value : Json}
    (there : (w.lookup id a.root).bind (Json.get? · (a.steps.map AddressStep.segment)) = some value) :
    ((World.evaluateAnew id a.text).run w).1 = .ok value := by
  obtain ⟨slot, looked, below⟩ := Option.bind_eq_some_iff.mp there
  rw [a.evaluateAnew_eq parsed sound, a.answer_of_plain parsed allowed plain affordable, Eval.readPath]
  simp only [World.resolver, looked, Json.project_of_get? plain below]

theorem namesOnePlace_of_plain {w : World} (sound : w.Sound) {id : ScopeId} (present : (w.shape? id).isSome = true)
    (allowed : tree.violations (w.evalOptions id).validation = []) (plain : ∀ step ∈ a.steps, step.Plain)
    (affordable : Affordable tree (w.evalOptions id)) : a.NamesOnePlace w id := by
  obtain ⟨⟨up, number⟩, found⟩ := Option.isSome_iff_exists.mp present
  constructor
  · intro value success
    obtain ⟨shapes, segment, rest, named, there⟩ := World.lookup_setPath sound.coherent found success
    rw [a.parse_text] at named
    cases named
    have options := World.evalOptions_congr shapes (World.setPath_trees id a.text value w) id
    rw [← options] at allowed affordable
    exact a.evaluateAnew_of_plain parsed (sound.setPath id a.text value) allowed plain affordable there
  · intro value got some'
    have there : (w.lookup id a.root).bind (Json.get? · (a.steps.map AddressStep.segment)) = some value := by
      rw [World.run_getPath, World.read, a.parse_text] at got
      have same := Except.ok.inj got
      cases below : (w.lookup id a.root).bind (Json.get? · (a.steps.map AddressStep.segment)) with
      | some found => exact congrArg some (by simpa [Segment.text, below] using same)
      | none => exact absurd (by simpa [Segment.text, below] using same.symm) some'
    have anew := a.evaluateAnew_of_plain parsed sound allowed plain affordable there
    refine ⟨anew, fun trusted => ?_⟩
    rw [trusted.faithful.evaluate_eq id trusted.free, ← trusted.faithful.evaluateAnew_eq]
    exact anew

theorem answer_of_unaffordable {options : EvalOptions} (unaffordable : ¬ Affordable tree options)
    (resolver : Resolver) (value : Json) : Engine.answer a.text resolver options ≠ .ok value := by
  intro answered
  obtain ⟨other, checked, valued⟩ := bind_eq_ok.mp answered
  obtain rfl := Except.ok.inj (parsed.symm.trans (Engine.parse_of_checkedTree checked))
  obtain ⟨unclean, spent⟩ := not_or.mp unaffordable
  have form : Engine.directForm? a.text = none := by
    simp only [Engine.directForm?, parsed, List.isEmpty_iff, if_neg unclean]
  have spent' : options.maxSteps = 0 ∨ options.timeoutMs = 0 := by omega
  obtain ⟨fault, failed⟩ := Eval.run_spent spent' resolver tree
  rw [Engine.valueOf, form, Eval.interpret, failed] at valued
  cases valued

/-- An address names one place, read and evaluated in any scope under some options, exactly if its steps are
plain and the options can afford to evaluate it. -/
theorem namesOnePlace_iff {options : EvalOptions} (allowed : tree.violations options.validation = []) :
    (∀ (w : World) id, w.Sound → (w.shape? id).isSome = true → w.evalOptions id = options →
      a.NamesOnePlace w id) ↔ (∀ step ∈ a.steps, step.Plain) ∧ Affordable tree options := by
  constructor
  · intro everywhere
    let w := World.holdingUnder options [(a.root, nested a.steps)]
    have sound : w.Sound := (World.holdingUnder_faithful options _).sound
    have looked : w.lookup 1 a.root = some (nested a.steps) := by
      have bound : w.bindings 1 = [(a.root, nested a.steps)] := rfl
      have top : w.shape? 1 = some (none, 1) := rfl
      rw [World.lookup_of_top top, bound, Members.find?, if_pos rfl]
    have got : ((World.getPath 1 a.text).run w).1 = .ok (.bool true) := by
      rw [World.run_getPath, World.read_of_lookup a.parse_text looked, get?_nested]
      rfl
    have answered := ((everywhere w 1 sound rfl rfl).read _ got (by simp)).1
    rw [a.evaluateAnew_eq parsed sound] at answered
    constructor
    · by_contra odd
      have value := a.value_of_answer parsed answered
      rw [Eval.readPath] at value
      simp only [World.resolver, looked, project_nested odd] at value
      cases value
    · by_contra unaffordable
      exact a.answer_of_unaffordable parsed unaffordable _ _ answered
  · rintro ⟨plain, affordable⟩ w id sound present rfl
    exact a.namesOnePlace_of_plain parsed sound present allowed plain affordable

end

/-- The address `a.b[0]`. -/
def ofIndex : Address where
  root := "a"
  spelled := ⟨'a', [], rfl, rfl, by simp⟩
  free := by decide
  steps := [.name "b" ⟨'b', [], rfl, rfl, by simp⟩, .index ['0'] ⟨by simp, by simp⟩]

theorem namesOnePlace_iff_at_ofIndex : ∃ tree, Expr.parse ofIndex.text = .ok tree ∧
    tree.violations (EvalOptions.validation {}) = [] ∧
      ofIndex.NamesOnePlace (World.holding [("a", .object [("b", .array [.nat 1])])]) 1 := by
  have clean : (Expr.parse ofIndex.text).toOption.map (·.violations (EvalOptions.validation {})) = some [] := by
    decide +kernel
  cases parsed : Expr.parse ofIndex.text with
  | error e => simp [parsed, Except.toOption] at clean
  | ok tree =>
    simp only [parsed, Except.toOption, Option.map_some, Option.some.injEq] at clean
    have plain : ∀ step ∈ ofIndex.steps, step.Plain := by
      simp only [ofIndex, List.forall_mem_cons]
      exact ⟨trivial, ⟨by decide, Or.inr ⟨0, 0, by decide, by decide⟩⟩, by simp⟩
    have sound := (World.holdingUnder_faithful {} [("a", .object [("b", .array [.nat 1])])]).sound
    exact ⟨tree, rfl, clean, (namesOnePlace_iff ofIndex parsed clean).mpr ⟨plain, Or.inl clean⟩ _ 1 sound rfl rfl⟩

end Address

namespace World

/-- An object below `a` with a key of one digit. -/
def oneDigit : World := holding [("a", .object [("7", .bool true)])]

/-- Behind a point, digits with zeros ahead are a position for the path and a name for the expression. -/
theorem leading_zeros_name_two_places :
    ((getPath 1 "a.007").run oneDigit).1.toOption.map Json.compact = some "true" ∧
      ((evaluateAnew 1 "a.007").run oneDigit).1.toOption.map Json.compact = some "null" ∧
      ((setPath 1 "a.007" (.bool false)).run oneDigit).1.isOk = true ∧
      ((evaluateAnew 1 "a.007").run ((setPath 1 "a.007" (.bool false)).run oneDigit).2).1.toOption.map
        Json.compact = some "null" := by
  decide +kernel

end World

end StateScript
