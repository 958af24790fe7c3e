import StateScript.Proofs.AddressTrees
import StateScript.Proofs.Markers
import StateScript.Proofs.PathReads
import StateScript.Proofs.ValidatedFaults

/-!
What an address evaluates to. Evaluation follows the same steps as a path, but takes digits for different
segments: it keeps the zeros ahead in a member of digits, and rounds an index to a double.
-/

namespace StateScript

namespace Binary64

theorem nearestWhole_of_le {n : Nat} (small : n ≤ 2 ^ 53) : nearestWhole n = n := by
  rw [nearestWhole_eq_iff]
  rcases Nat.lt_or_eq_of_le small with fits | carries
  · exact ⟨n, 0, fits, by simp⟩
  · exact ⟨1, 53, by decide, by omega⟩

end Binary64

open Binary64 (nearest nearestWhole dyadic? dyadic?_nearest)

namespace AddressStep

/-- The segment that evaluation reads for a literal index: the nearest double within 64 bits. A number that is
out of the range of doubles evaluates to null, which stands for its text as a key. -/
def rounded (n : Nat) : Segment :=
  if (dyadic? (nearest false n 1)).isSome then .index (min (nearestWhole n) Word.max64) else .key "null"

/-- The segment that evaluation reads for a step. -/
def literal : AddressStep → Segment
  | name text _ => .key text
  | digits cs _ => .key (String.ofList cs)
  | index cs _ => rounded (Decimal.naturalOf cs)
  | key _ cs _ _ => .key (String.ofList cs)

/-- A step whose segment and literal cannot be told apart: digits behind a point without needless zeros, if
they are a position at all, and an index that is the last position or one that a double stands for. -/
def Plain : AddressStep → Prop
  | digits cs _ => Word.max64 < Decimal.naturalOf cs ∨ toString (Decimal.naturalOf cs) = String.ofList cs
  | index cs _ => Decimal.naturalOf cs ≤ Word.max64 ∧
      (Decimal.naturalOf cs = Word.max64 ∨ ∃ m e, m < 2 ^ 53 ∧ Decimal.naturalOf cs = m * 2 ^ e)
  | _ => True

theorem rounded_of_le {n : Nat} (within : n ≤ Word.max64) :
    rounded n = .index (min (nearestWhole n) Word.max64) := by
  rcases dyadic?_nearest n with ⟨beyond, _⟩ | ⟨d, some', _⟩
  · exact absurd within (Nat.not_le.mpr beyond)
  · rw [rounded, some']
    rfl

theorem toString_injective {m n : Nat} (same : toString m = toString n) : m = n := Nat.repr_inj.mp same

/-- A step is plain exactly if both readers look for the same name in an object. -/
theorem plain_iff (step : AddressStep) : step.Plain ↔ step.literal.text = step.segment.text := by
  cases step with
  | name text spelled => exact ⟨fun _ => rfl, fun _ => trivial⟩
  | key quote cs quotes plain => exact ⟨fun _ => rfl, fun _ => trivial⟩
  | digits cs spelled =>
    simp only [Plain, literal, segment, spelled.ofDotted]
    by_cases within : Decimal.naturalOf cs ≤ Word.max64
    · simp only [if_pos within, Nat.not_lt.mpr within, false_or]
      exact eq_comm
    · simp only [if_neg within, Nat.lt_of_not_le within, true_or]
  | index cs spelled =>
    simp only [Plain, literal, segment, spelled.ofDotted]
    by_cases within : Decimal.naturalOf cs ≤ Word.max64
    · rw [if_pos within, ← Binary64.min_nearestWhole_eq_iff, rounded_of_le within]
      exact ⟨congrArg toString, toString_injective⟩
    · rw [if_neg within]
      refine ⟨fun both => absurd both.1 within, fun same => absurd same ?_⟩
      unfold rounded
      split
      · intro same
        have value := Decimal.naturalOf_toString (min (nearestWhole (Decimal.naturalOf cs)) Word.max64)
        rw [show toString _ = String.ofList cs from same, String.toList_ofList] at value
        omega
      · intro same
        have digit := spelled.2 'n' (by rw [← String.ofList_injective same]; simp)
        cases digit

theorem literal_ne_wildcard (step : AddressStep) : step.literal ≠ .wildcard := by
  cases step with
  | index cs spelled =>
    rw [literal, rounded]
    split <;> simp
  | _ => simp [literal]

theorem segment_ne_wildcard (step : AddressStep) : step.segment ≠ .wildcard := by
  cases step with
  | digits cs spelled | index cs spelled =>
    rw [segment, spelled.ofDotted]
    split <;> simp
  | _ => simp [segment]

/-- For a plain step, both readers find the same child in any value. -/
theorem Plain.child? {step : AddressStep} (plain : step.Plain) (value : Json) :
    value.child? step.literal = value.child? step.segment := by
  cases step with
  | name text spelled => rfl
  | key quote cs quotes unquoted => rfl
  | digits cs spelled =>
    rw [literal, segment, spelled.ofDotted]
    split
    · rename_i within
      have same : toString (Decimal.naturalOf cs) = String.ofList cs := plain.resolve_left (Nat.not_lt.mpr within)
      cases value <;> simp [Json.child?, same, spelled.position?, within]
    · rfl
  | index cs spelled =>
    have within : Decimal.naturalOf cs ≤ Word.max64 := plain.1
    have same := Binary64.min_nearestWhole_eq_iff.mpr plain
    rw [literal, segment, spelled.ofDotted, if_pos within, rounded_of_le within, same]

end AddressStep

namespace Json

theorem project_append (value : Json) (front back : Path) :
    Eval.project value (front ++ back) = Eval.project (Eval.project value front) back := by
  induction front generalizing value with
  | nil => rfl
  | cons segment rest ih => exact ih _

theorem project_null (path : Path) : Eval.project .null path = .null := by
  induction path with
  | nil => rfl
  | cons segment rest ih => exact ih

/-- Along plain steps, what is found at the segments is what evaluation projects. -/
theorem project_of_get? {steps : List AddressStep} (plain : ∀ step ∈ steps, step.Plain) {value found : Json}
    (read : value.get? (steps.map AddressStep.segment) = some found) :
    Eval.project value (steps.map AddressStep.literal) = found := by
  induction steps generalizing value with
  | nil => exact Option.some.inj read
  | cons step rest ih =>
    obtain ⟨first, others⟩ := List.forall_mem_cons.mp plain
    obtain ⟨child, below, further⟩ := Option.bind_eq_some_iff.mp read
    simp only [List.map_cons, Eval.project, first.child?, below, Option.getD_some]
    exact ih others further

end Json

namespace Eval

variable {options : EvalOptions} {resolver : Resolver}

theorem readPath_append (root : String) (front back : Path) :
    readPath resolver root (front ++ back) = project (readPath resolver root front) back := by
  unfold readPath
  cases resolver.lookup root with
  | none => exact (Json.project_null back).symm
  | some value => exact Json.project_append value front back

theorem value_of_readStatic {root : String} {path : Path} {value : Json}
    (read : readStatic options resolver root path = .ok value) : value = readPath resolver root path := by
  obtain ⟨_, _, rest⟩ := bind_eq_ok.mp read
  obtain ⟨_, _, last⟩ := bind_eq_ok.mp rest
  cases last
  rfl

/-- Where there is no step or no time, nothing is evaluated. -/
theorem run_spent (spent : options.maxSteps = 0 ∨ options.timeoutMs = 0) (resolver : Resolver) (e : Expr) :
    ∃ fault, (run options resolver e).1 = .error fault := by
  have starts : ∃ next : EvalM Json, evaluate options resolver e = (do tick options; next) :=
    ⟨_, Evaluator.evaluate.eq_def (stepwise options resolver) e⟩
  obtain ⟨next, same⟩ := starts
  have ran : run options resolver e = (do tick options; next : EvalM Json).run 0 := by
    rw [← same]
    rfl
  rw [ran, run_bind, run_tick]
  split_ifs with steps time
  · exact ⟨_, rfl⟩
  · exact ⟨_, rfl⟩
  · omega

theorem run_lift {α : Type} (result : Except EvalFault α) (n : Nat) : (lift result : EvalM α).run n = (result, n) :=
  rfl

/-- The value of an index that is no static path is read from the values of both of its sides. -/
theorem value_of_index {object key : Expr} {optional : Bool} {span : Span}
    (static : (Expr.index object key optional span).staticPath? = none) {n m : Nat} {value : Json}
    (ran : (evaluate options resolver (.index object key optional span)).run n = (.ok value, m)) :
    ∃ target between name behind segment, (evaluate options resolver object).run (n + 1) = (.ok target, between) ∧
      (evaluate options resolver key).run between = (.ok name, behind) ∧ propertyKey name = .ok segment ∧
        value = project target [segment] := by
  rw [evaluate_index _ _ static] at ran
  obtain ⟨_, _, ticked, rest⟩ := run_bind_eq_ok.mp ran
  rw [run_tick, Prod.mk.injEq] at ticked
  rw [← ticked.2] at rest
  obtain ⟨target, between, before, rest⟩ := run_bind_eq_ok.mp rest
  obtain ⟨name, behind, keyed, rest⟩ := run_bind_eq_ok.mp rest
  obtain ⟨segment, _, found, last⟩ := run_bind_eq_ok.mp rest
  cases last
  rw [run_lift, Prod.mk.injEq] at found
  exact ⟨target, between, name, behind, segment, before, keyed, found.1, rfl⟩

theorem propertyKey_string {name : String} {segment : Segment} (keyed : propertyKey (.string name) = .ok segment) :
    segment = .key name := by
  obtain ⟨_, _, last⟩ := bind_eq_ok.mp keyed
  cases last
  rfl

/-- A safe integer that is not below zero is a position, also after it went through a double. -/
theorem propertyKey_int {n : Nat} (safe : n ≤ Json.safeInteger) :
    propertyKey (.int n) = .ok (.index (min n Word.max64)) := by
  have unsigned : ¬ (n : Int) < 0 := by omega
  have back : Binary64.ofInt (n : Int) = nearest false n 1 := by simp [Binary64.ofInt, unsigned]
  rcases dyadic?_nearest n with ⟨beyond, _⟩ | ⟨d, some', _, whole, part, above⟩
  · exact absurd (Nat.lt_of_lt_of_le beyond safe) (by decide)
  · simp only [propertyKey, Json.int, Number.toFloat, back, some', whole, above, and_self, if_true, part,
      Binary64.nearestWhole_of_le safe]

/-- As a key, the double nearest to a natural number stands for the same segment as in a literal index. -/
theorem propertyKey_nearest {n : Nat} {segment : Segment}
    (keyed : propertyKey (Json.ofFloat (nearest false n 1)) = .ok segment) : segment = AddressStep.rounded n := by
  unfold AddressStep.rounded
  rcases dyadic?_nearest n with ⟨_, none'⟩ | ⟨d, some', positive, whole, part, above⟩
  · have null : Json.ofFloat (nearest false n 1) = .null := by
      simp [Json.ofFloat, Json.safeInteger?, Binary64.isFinite, none']
    rw [null] at keyed
    cases keyed
    rw [none']
    rfl
  · rw [some', Option.isSome_some, if_pos rfl]
    by_cases safe : nearestWhole n ≤ Json.safeInteger
    · have int : Json.ofFloat (nearest false n 1) = .int (nearestWhole n) := by
        simp [Json.ofFloat, Json.safeInteger?, some', whole, Dyadic.truncate, positive, part, safe]
      rw [int, propertyKey_int safe] at keyed
      cases keyed
      rfl
    · have float : Json.ofFloat (nearest false n 1) = .number (.float (nearest false n 1)) := by
        simp [Json.ofFloat, Json.safeInteger?, some', part, safe, Binary64.isFinite]
      rw [float] at keyed
      simp only [propertyKey, Number.toFloat, some', whole, above, and_self, if_true, part] at keyed
      cases keyed
      rfl

theorem literalSegment?_nearest {n : Nat} {place : Span} {segment : Segment}
    (literal : Expr.literalSegment? (.number (nearest false n 1) place) = some segment) :
    segment = AddressStep.rounded n := by
  simp only [Expr.literalSegment?] at literal
  rcases dyadic?_nearest n with ⟨_, none'⟩ | ⟨d, some', _, _, part, _⟩
  · rw [none'] at literal
    cases literal
  · simp only [some'] at literal
    split at literal <;> cases literal
    rw [AddressStep.rounded, some', part]
    rfl

/-- A literal index within 64 bits has a segment. -/
theorem literalSegment?_of_le {n : Nat} (within : n ≤ Word.max64) (place : Span) :
    Expr.literalSegment? (.number (nearest false n 1) place) = some (AddressStep.rounded n) := by
  rcases dyadic?_nearest n with ⟨beyond, _⟩ | ⟨d, some', _, whole, part, above⟩
  · exact absurd within (Nat.not_le.mpr beyond)
  · rw [AddressStep.rounded_of_le within]
    simp only [Expr.literalSegment?, some', whole, above, and_self, if_true, part]

end Eval

namespace Chain

open Eval (readPath)

variable {root : String} {steps : List AddressStep} {e : Expr}

/-- The static path of a chain, if it has one, goes along its literals. -/
theorem eq_of_staticPath? (chain : Chain root steps e) {name : String} {path : Path}
    (static : e.staticPath? = some (name, path)) : name = root ∧ path = steps.map AddressStep.literal := by
  induction chain generalizing path with
  | root span =>
    cases static
    exact ⟨rfl, rfl⟩
  | @step steps step object e chain extends' ih =>
    have last {front : Path} {segment : Segment} (below : object.staticPath? = some (name, front))
        (literal : segment = step.literal) (same : front ++ [segment] = path) :
        name = root ∧ path = (steps ++ [step]).map AddressStep.literal := by
      obtain ⟨rfl, rfl⟩ := ih below
      exact ⟨rfl, by rw [← same, literal, List.map_append, List.map_singleton]⟩
    cases step with
    | name text spelled | digits cs spelled =>
      obtain ⟨span, rfl⟩ := extends'
      obtain ⟨⟨base, front⟩, below, same⟩ := Option.map_eq_some_iff.mp static
      cases same
      exact last below rfl rfl
    | key quote cs quotes plain =>
      obtain ⟨place, span, rfl⟩ := extends'
      obtain ⟨⟨base, front⟩, below, same⟩ := Option.bind_eq_some_iff.mp static
      cases same
      exact last below rfl rfl
    | index cs spelled =>
      obtain ⟨place, span, rfl⟩ := extends'
      simp only [Expr.staticPath?, Option.bind_eq_bind, Option.bind_eq_some_iff] at static
      obtain ⟨segment, literal, ⟨base, front⟩, below, same⟩ := static
      cases same
      exact last below (Eval.literalSegment?_nearest literal) rfl

/-- A chain of plain steps has a static path. -/
theorem staticPath?_of_plain (chain : Chain root steps e) (plain : ∀ step ∈ steps, step.Plain) :
    e.staticPath? = some (root, steps.map AddressStep.literal) := by
  have some' : ∃ found, e.staticPath? = some found := by
    induction chain with
    | root span => exact ⟨_, rfl⟩
    | @step steps step object e chain extends' ih =>
      obtain ⟨front, last⟩ := List.forall_mem_append.mp plain
      obtain ⟨found, below⟩ := ih front
      cases step with
      | name text spelled | digits cs spelled =>
        obtain ⟨span, rfl⟩ := extends'
        exact ⟨_, by rw [Expr.staticPath?, below, Option.map_some]⟩
      | key quote cs quotes unquoted =>
        obtain ⟨place, span, rfl⟩ := extends'
        exact ⟨_, by rw [Expr.staticPath?, below]; rfl⟩
      | index cs spelled =>
        obtain ⟨place, span, rfl⟩ := extends'
        have within : Decimal.naturalOf cs ≤ Word.max64 := (last _ (List.mem_singleton_self _)).1
        exact ⟨_, by rw [Expr.staticPath?, Eval.literalSegment?_of_le within, below]; rfl⟩
  obtain ⟨⟨name, path⟩, static⟩ := some'
  obtain ⟨rfl, rfl⟩ := chain.eq_of_staticPath? static
  exact static

section

variable {options : EvalOptions} {resolver : Resolver}

/-- Whatever evaluating a chain gives, it is what stands at its literals. -/
theorem evaluate_reads (chain : Chain root steps e) {n m : Nat} {value : Json}
    (ran : (Eval.evaluate options resolver e).run n = (.ok value, m)) :
    value = readPath resolver root (steps.map AddressStep.literal) := by
  induction chain generalizing n m value with
  | root span =>
    rw [Eval.evaluate_static rfl] at ran
    obtain ⟨_, _, _, read⟩ := run_bind_eq_ok.mp ran
    rw [Eval.run_lift, Prod.mk.injEq] at read
    exact Eval.value_of_readStatic read.1
  | @step steps step object e chain extends' ih =>
    cases static : e.staticPath? with
    | some found =>
      obtain ⟨name, path⟩ := found
      obtain ⟨rfl, rfl⟩ := (chain.step extends').eq_of_staticPath? static
      rw [Eval.evaluate_static static] at ran
      obtain ⟨_, _, _, read⟩ := run_bind_eq_ok.mp ran
      rw [Eval.run_lift, Prod.mk.injEq] at read
      exact Eval.value_of_readStatic read.1
    | none =>
      have extended {target : Json} (before : target = readPath resolver root (steps.map AddressStep.literal)) :
          Eval.project target [step.literal] =
            readPath resolver root ((steps ++ [step]).map AddressStep.literal) := by
        rw [before, List.map_append, Eval.readPath_append]
        rfl
      cases step with
      | name text spelled | digits cs spelled =>
        obtain ⟨span, rfl⟩ := extends'
        rw [Eval.evaluate_member _ _ static] at ran
        obtain ⟨_, _, _, rest⟩ := run_bind_eq_ok.mp ran
        obtain ⟨target, _, before, rest⟩ := run_bind_eq_ok.mp rest
        obtain ⟨_, _, _, last⟩ := run_bind_eq_ok.mp rest
        cases last
        exact extended (ih before)
      | key quote cs quotes plain =>
        obtain ⟨place, span, rfl⟩ := extends'
        obtain ⟨target, _, name, _, segment, before, evaluated, keyed, rfl⟩ := Eval.value_of_index static ran
        obtain ⟨_, _, _, key⟩ := run_bind_eq_ok.mp evaluated
        cases key
        rw [Eval.propertyKey_string keyed]
        exact extended (ih before)
      | index cs spelled =>
        obtain ⟨place, span, rfl⟩ := extends'
        obtain ⟨target, _, name, _, segment, before, evaluated, keyed, rfl⟩ := Eval.value_of_index static ran
        obtain ⟨_, _, _, key⟩ := run_bind_eq_ok.mp evaluated
        cases key
        rw [Eval.propertyKey_nearest keyed]
        exact extended (ih before)

end

end Chain

namespace Address

variable (a : Address) {tree : Expr} (parsed : Expr.parse a.text = .ok tree)

/-- The options let the tree through whatever they say, or leave time and steps to interpret it. -/
def Affordable (tree : Expr) (options : EvalOptions) : Prop :=
  tree.violations {} = [] ∨ 0 < options.maxSteps ∧ options.timeoutMs ≠ 0

section

include parsed

theorem stripMarkers_text : Template.stripMarkers a.text = a.text := by
  rw [Expr.stripMarkers_of_parse parsed, a.trim_text, String.ofList_toList]

/-- Whatever an address is answered with, it is what stands at its literals. -/
theorem value_of_answer {resolver : Resolver} {options : EvalOptions} {value : Json}
    (answered : Engine.answer a.text resolver options = .ok value) :
    value = Eval.readPath resolver a.root (a.steps.map AddressStep.literal) := by
  have chain := a.parse_chain parsed
  obtain ⟨other, checked, valued⟩ := bind_eq_ok.mp answered
  obtain rfl := Except.ok.inj (parsed.symm.trans (Engine.parse_of_checkedTree checked))
  unfold Engine.valueOf at valued
  cases form : Engine.directForm? a.text with
  | some direct =>
    rw [form] at valued
    cases valued
    have simple : Direct.ofExpr? tree = some direct := by
      rw [Engine.directForm?, parsed] at form
      simp only at form
      split at form
      · exact form
      · cases form
    have ran : (Eval.evaluate {} resolver tree).run 0 = (.ok (direct.call resolver), 1) := by
      rw [Direct.evaluate_eq simple]
      rfl
    exact chain.evaluate_reads ran
  | none =>
    rw [form] at valued
    rw [Eval.interpret] at valued
    rcases ran : Eval.run options resolver tree with ⟨fault | v, n⟩
    · rw [ran] at valued
      cases valued
    · rw [ran] at valued
      cases valued
      exact chain.evaluate_reads ran

variable {options : EvalOptions} (allowed : tree.violations options.validation = [])

include allowed

/-- A plain address that can be afforded is answered. -/
theorem answer_of_plain (plain : ∀ step ∈ a.steps, step.Plain) (affordable : Affordable tree options)
    (resolver : Resolver) : Engine.answer a.text resolver options =
      .ok (Eval.readPath resolver a.root (a.steps.map AddressStep.literal)) := by
  have static := (a.parse_chain parsed).staticPath?_of_plain plain
  have checked : Engine.checkedTree a.text options = .ok tree := by
    simp only [Engine.checkedTree, parsed, ok_bind, Expr.check, allowed]
    rfl
  have answers : ∃ value, Engine.answer a.text resolver options = .ok value := by
    rw [Engine.answer_of_checkedTree checked, Engine.valueOf]
    cases form : Engine.directForm? a.text with
    | some direct => exact ⟨_, rfl⟩
    | none =>
      rcases affordable with clean | ⟨steps, time⟩
      · -- The compiler takes every static path that the rules let through.
        have permitted : tree.Allowed (EvalOptions.validation {}) := Expr.allowed_of_violations clean
        have passes := Eval.static_checks permitted static
        simp only [Engine.directForm?, parsed, clean, List.isEmpty_nil, if_true,
          Direct.ofExpr?_of_static static passes] at form
        cases form
      · have passes := Eval.static_checks (Expr.allowed_of_violations allowed) static
        have ran : (Eval.evaluate options resolver tree).run 0 =
            (.ok (Eval.readPath resolver a.root (a.steps.map AddressStep.literal)), 1) := by
          rw [Eval.evaluate_static static, run_bind, Eval.run_tick, if_neg (by omega), if_neg time]
          simp only [Eval.run_lift, Eval.readStatic_eq_ok resolver passes]
        have value : (Eval.run options resolver tree).1 = .ok _ := congrArg Prod.fst ran
        simp only [Eval.interpret, value]
        exact ⟨_, rfl⟩
  obtain ⟨value, answered⟩ := answers
  rw [answered, a.value_of_answer parsed answered]

end

end Address

end StateScript
