import StateScript.Proofs.PlainEvaluation

/-!
Evaluation beside plain evaluation. Both end alike where the steps suffice, which a step for every node does,
and more steps change nothing.
-/

namespace StateScript

namespace Eval

section

variable {α β : Type}

/-- A result that no limit on steps brought about. -/
def Unstopped (result : Except EvalFault α) : Prop := ∀ limit, result ≠ .error (.steps limit)

theorem Unstopped.ok (a : α) : Unstopped (.ok a) := fun _ => nofun

theorem Unstopped.bind {first : Except EvalFault α} {next : α → Except EvalFault β} (starts : Unstopped first)
    (continues : ∀ a, Unstopped (next a)) : Unstopped (first >>= next) := by
  cases first with
  | error fault =>
    intro limit stopped
    cases stopped
    exact starts limit rfl
  | ok a => exact continues a

theorem unstopped_call (result : Except CallFault α) : Unstopped (result.mapError EvalFault.call) := by
  cases result <;> exact fun _ => nofun

theorem unstopped_checkProperty (name : String) : Unstopped (checkProperty name) := by
  unfold checkProperty
  split <;> exact fun _ => nofun

theorem unstopped_checkRoot (options : EvalOptions) (name : String) : Unstopped (checkRoot options name) := by
  refine (unstopped_checkProperty name).bind fun _ => ?_
  split <;> exact fun _ => nofun

theorem unstopped_propertyKey (key : Json) : Unstopped (propertyKey key) := by
  intro limit stopped
  cases (propertyKey_eq_error stopped).2

theorem unstopped_readStatic (options : EvalOptions) (resolver : Resolver) (root : String) (path : Path) :
    Unstopped (readStatic options resolver root path) := by
  have checked : Unstopped (checkPath path) := by
    induction path with
    | nil => exact Unstopped.ok ()
    | cons segment rest ih =>
      cases segment with
      | key name => exact (unstopped_checkProperty name).bind fun _ => ih
      | index | wildcard => exact ih
  exact (unstopped_checkRoot options root).bind fun _ => checked.bind fun _ => Unstopped.ok _

/-- An operation under a number of allowed steps ends with an outcome after at most so many steps, if that many
are allowed from where it starts; otherwise it stops at the first step that is not allowed. -/
def Takes (outcome : Except EvalFault α) (most : Nat) (operation : Nat → EvalM α) : Prop :=
  Unstopped outcome ∧ ∃ cost ≤ most, ∀ allowed n, n ≤ allowed → (operation allowed).run n =
    if n + cost ≤ allowed then (outcome, n + cost) else (.error (.steps allowed), allowed + 1)

theorem Takes.mono {outcome : Except EvalFault α} {few most : Nat} {operation : Nat → EvalM α}
    (takes : Takes outcome few operation) (within : few ≤ most) : Takes outcome most operation := by
  obtain ⟨unstopped, cost, bound, runs⟩ := takes
  exact ⟨unstopped, cost, bound.trans within, runs⟩

theorem Takes.lift {result : Except EvalFault α} (unstopped : Unstopped result) :
    Takes result 0 fun _ => Eval.lift result :=
  ⟨unstopped, 0, le_rfl, fun allowed n start => by rw [Nat.add_zero, if_pos start]; rfl⟩

theorem Takes.pure (a : α) : Takes (.ok a) 0 fun _ => (Pure.pure a : EvalM α) := Takes.lift (Unstopped.ok a)

theorem Takes.bind {first : Except EvalFault α} {next : α → Except EvalFault β} {few more : Nat}
    {operation : Nat → EvalM α} {rest : Nat → α → EvalM β} (starts : Takes first few operation)
    (continues : ∀ a, Takes (next a) more fun allowed => rest allowed a) :
    Takes (first >>= next) (few + more) fun allowed => operation allowed >>= rest allowed := by
  obtain ⟨unstopped, cost, within, runs⟩ := starts
  refine ⟨unstopped.bind fun a => (continues a).1, ?_⟩
  cases first with
  | error fault =>
    refine ⟨cost, by omega, fun allowed n start => ?_⟩
    rw [run_bind, runs allowed n start]
    split_ifs <;> rfl
  | ok a =>
    obtain ⟨_, further, bound, ends⟩ := continues a
    refine ⟨cost + further, by omega, fun allowed n start => ?_⟩
    rw [run_bind, runs allowed n start]
    by_cases reached : n + cost ≤ allowed
    · simp only [if_pos reached, ends allowed (n + cost) reached, Nat.add_assoc]
      rfl
    · simp only [if_neg reached, if_neg (show ¬ n + (cost + further) ≤ allowed by omega)]

theorem Takes.ite (condition : Prop) [Decidable condition] {first second : Except EvalFault α} {most : Nat}
    {operation other : Nat → EvalM α} (holds : Takes first most operation) (fails : Takes second most other) :
    Takes (if condition then first else second) most fun allowed =>
      if condition then operation allowed else other allowed := by
  split
  · exact holds
  · exact fails

variable {options : EvalOptions} {resolver : Resolver}

variable (options resolver) in
theorem Takes.called (node : Expr) (result : Except CallFault Json) :
    Takes ((plain options resolver).called node result) 0 fun allowed =>
      (stepwise { options with maxSteps := allowed } resolver).called node result :=
  Takes.lift (unstopped_call result)

/-- The first step of a node, while time lasts. -/
theorem Takes.tick (timely : options.timeoutMs ≠ 0) {outcome : Except EvalFault α} {most : Nat}
    {operation : Nat → EvalM α} (takes : Takes outcome most operation) :
    Takes outcome (most + 1) fun allowed =>
      (do Eval.tick { options with maxSteps := allowed }; operation allowed) := by
  have once : Takes (.ok ()) 1 fun allowed => Eval.tick { options with maxSteps := allowed } := by
    refine ⟨Unstopped.ok (), 1, le_rfl, fun allowed n start => ?_⟩
    rw [run_tick]
    by_cases reached : n + 1 ≤ allowed
    · simp only [if_pos reached, if_neg (Nat.not_lt.mpr reached), if_neg timely]
    · obtain rfl : allowed = n := by omega
      simp only [if_neg reached, if_pos (Nat.lt_of_not_le reached)]
  rw [Nat.add_comm]
  exact once.bind fun _ => takes

variable (resolver) in
theorem Takes.visit (timely : options.timeoutMs ≠ 0) (node : Expr) {outcome : Except EvalFault α} {most : Nat}
    {operation : Nat → EvalM α} (takes : Takes outcome most operation) :
    Takes (do (plain options resolver).visit node; outcome) (most + 1) fun allowed =>
      (do (stepwise { options with maxSteps := allowed } resolver).visit node; operation allowed) :=
  takes.tick timely

end

mutual

/-- Every node costs a step at most, so evaluation ends as plain evaluation does within as many steps as the
tree has nodes, if they are allowed. -/
theorem evaluate_takes {options : EvalOptions} (timely : options.timeoutMs ≠ 0) (resolver : Resolver) (e : Expr) :
    Takes (evaluatePlain options resolver e) e.nodes.length fun allowed =>
      evaluate { options with maxSteps := allowed } resolver e := by
  match e with
  | .bool .. | .number .. | .string .. | .null _ =>
    simp only [evaluatePlain, evaluate, Evaluator.evaluate]
    exact (Takes.pure _).tick timely
  | .list elements s =>
    have each := evaluateList_takes timely resolver elements
    simp only [evaluatePlain, evaluate, Evaluator.evaluate]
    exact (each.bind fun _ => Takes.pure _).tick timely
  | .record properties s =>
    have each := evaluateProperties_takes timely resolver (.record properties s) [] properties
    simp only [evaluatePlain, evaluate, Evaluator.evaluate]
    exact (each.bind fun _ => Takes.pure _).tick timely
  | .name n s =>
    simp only [evaluatePlain, evaluate, Evaluator.evaluate]
    exact (Takes.lift (unstopped_readStatic options resolver n [])).tick timely
  | .member object property o s =>
    have inner := evaluate_takes timely resolver object
    cases static : (Expr.member object property o s).staticPath? with
    | some found =>
      rw [← readStatic_eq_plain _ static]
      simp only [evaluate_static static]
      exact ((Takes.lift (unstopped_readStatic _ _ _ _)).tick timely).mono (by simp [Expr.nodes])
    | none =>
      simp only [evaluate_member _ _ static]
      exact (inner.bind fun _ => (Takes.lift (unstopped_checkProperty property)).bind fun _ =>
        Takes.pure _).tick timely
  | .index object key o s =>
    have inner := evaluate_takes timely resolver object
    have computed := evaluate_takes timely resolver key
    cases static : (Expr.index object key o s).staticPath? with
    | some found =>
      rw [← readStatic_eq_plain _ static]
      simp only [evaluate_static static]
      exact ((Takes.lift (unstopped_readStatic _ _ _ _)).tick timely).mono (by simp [Expr.nodes])
    | none =>
      simp only [evaluate_index _ _ static, Expr.nodes, List.length_cons, List.length_append]
      exact (inner.bind fun _ => computed.bind fun value => (Takes.lift (unstopped_propertyKey value)).bind fun _ =>
        Takes.pure _).tick timely
  | .call callee args s =>
    have passed := evaluateList_takes timely resolver args
    have answers := Takes.called options resolver (.call callee args s)
    have visited : 0 + 1 ≤ (Expr.call callee args s).nodes.length := by simp [Expr.nodes]
    cases callee with
    | name f t =>
      simp only [evaluatePlain, evaluate, Evaluator.evaluate]
      cases GlobalFunction.ofName? f with
      | none => exact ((answers _).visit resolver timely _).mono visited
      | some g => exact ((passed.bind fun _ => Takes.pure _).visit resolver timely _).mono (by simp [Expr.nodes])
    | member object property o t =>
      have inner := evaluate_takes timely resolver object
      have room : (Expr.nodesOfList args).length + 1 ≤
          (Expr.call (.member object property o t) args s).nodes.length := by
        simp only [Expr.nodes, List.length_cons, List.length_append]
        omega
      simp only [evaluatePlain, evaluate, Evaluator.evaluate]
      cases namespaceOf? object with
      | some owner =>
        exact ((passed.bind fun _ => answers _).visit resolver timely _).mono room
      | none =>
        have received := inner.bind fun receiver =>
          Takes.ite ((receiver.isNull && (Expr.member object property o t).chainIsOptional) = true)
            ((Takes.pure Json.null).mono (Nat.zero_le _))
            (passed.bind fun values => answers (Builtin.method receiver property values))
        refine ((Takes.ite (isValueMethod property = true) received
          ((answers _).mono (Nat.zero_le _))).visit resolver timely _).mono ?_
        simp only [Expr.nodes, List.length_cons, List.length_append]
        omega
    | _ =>
      simp only [evaluatePlain, evaluate, Evaluator.evaluate]
      exact ((answers _).visit resolver timely _).mono visited
  | .unary op operand s =>
    have inner := evaluate_takes timely resolver operand
    simp only [evaluatePlain, evaluate, Evaluator.evaluate]
    exact (inner.bind fun _ => Takes.pure _).tick timely
  | .binary op left right s =>
    have first := evaluate_takes timely resolver left
    have second := evaluate_takes timely resolver right
    simp only [evaluatePlain, evaluate, Evaluator.evaluate, Expr.nodes, List.length_cons, List.length_append]
    exact (first.bind fun _ => second.bind fun _ => Takes.pure _).tick timely
  | .logical op left right s =>
    have first := evaluate_takes timely resolver left
    have second := evaluate_takes timely resolver right
    simp only [evaluatePlain, evaluate, Evaluator.evaluate, Expr.nodes, List.length_cons, List.length_append]
    exact (first.bind fun value => Takes.ite _ ((Takes.pure value).mono (Nat.zero_le _)) second).tick timely
  | .ternary condition consequent alternate s =>
    have tested := evaluate_takes timely resolver condition
    have first := evaluate_takes timely resolver consequent
    have second := evaluate_takes timely resolver alternate
    simp only [evaluatePlain, evaluate, Evaluator.evaluate, Expr.nodes, List.length_cons, List.length_append]
    exact ((tested.bind fun _ => Takes.ite _ (first.mono (Nat.le_add_right _ _))
      (second.mono (Nat.le_add_left _ _))).tick timely).mono (by omega)
  termination_by structural e

theorem evaluateList_takes {options : EvalOptions} (timely : options.timeoutMs ≠ 0) (resolver : Resolver)
    (es : List Expr) : Takes ((plain options resolver).evaluateList es) (Expr.nodesOfList es).length fun allowed =>
      (stepwise { options with maxSteps := allowed } resolver).evaluateList es := by
  match es with
  | [] => exact Takes.pure []
  | e :: rest =>
    have first := evaluate_takes timely resolver e
    have others := evaluateList_takes timely resolver rest
    simp only [Evaluator.evaluateList, Expr.nodesOfList, List.length_append]
    exact first.bind fun _ => others.bind fun _ => Takes.pure _
  termination_by structural es

theorem evaluateProperties_takes {options : EvalOptions} (timely : options.timeoutMs ≠ 0) (resolver : Resolver)
    (node : Expr) (members : Members) (ps : List (String × Expr)) :
    Takes ((plain options resolver).evaluateProperties node members ps) (Expr.nodesOfProperties ps).length
      fun allowed => (stepwise { options with maxSteps := allowed } resolver).evaluateProperties node members ps := by
  match ps with
  | [] => exact Takes.pure members
  | (key, e) :: rest =>
    have first := evaluate_takes timely resolver e
    have others value := evaluateProperties_takes timely resolver node (members.insert key value) rest
    simp only [Evaluator.evaluateProperties, Expr.nodesOfProperties, List.length_append]
    exact ((Takes.lift (unstopped_checkProperty key)).bind fun _ => first.bind others).mono (by omega)
  termination_by structural ps

end

section

variable {options : EvalOptions} (timely : options.timeoutMs ≠ 0) (resolver : Resolver) (e : Expr)

include timely

/-- What a whole evaluation comes to under any limit on steps. -/
theorem run_eq_plain : ∃ cost ≤ e.nodes.length, ∀ allowed, run { options with maxSteps := allowed } resolver e =
    if cost ≤ allowed then (evaluatePlain options resolver e, cost) else (.error (.steps allowed), allowed + 1) := by
  obtain ⟨_, cost, bound, runs⟩ := evaluate_takes timely resolver e
  refine ⟨cost, bound, fun allowed => ?_⟩
  have ran := runs allowed 0 (Nat.zero_le _)
  rw [Nat.zero_add] at ran
  exact ran

end

theorem code_of_unstopped {result : Except EvalFault Json} (unstopped : Unstopped result) {fault : EvalFault}
    (failed : result = .error fault) : fault.error.code ≠ .expressionMaxStepsExceeded := by
  cases fault with
  | steps limit => exact absurd failed (unstopped limit)
  | call fault => cases fault <;> simp [EvalFault.error, CallFault.error]
  | _ => simp [EvalFault.error]

/-- Reading a static path at once gives the value or the fault of plain evaluation, and so does a direct form,
which never fails. The interpreter, which takes the first shortcut at every chain, ends as plain evaluation does
where it may take a step for every node. -/
theorem shortcuts_agree_with_plain (options : EvalOptions) (resolver : Resolver) (e : Expr) :
    (∀ root path, e.staticPath? = some (root, path) →
      readStatic options resolver root path = evaluatePlain options resolver e) ∧
    (∀ direct, Direct.ofExpr? e = some direct →
      evaluatePlain options resolver e = .ok (direct.call resolver)) ∧
    (e.nodes.length ≤ options.maxSteps → options.timeoutMs ≠ 0 →
      (run options resolver e).1 = evaluatePlain options resolver e) := by
  refine ⟨fun root path static => readStatic_eq_plain e static, fun direct simple => plain_of_direct simple, ?_⟩
  intro enough timely
  obtain ⟨cost, bound, ends⟩ := run_eq_plain timely resolver e
  have ran := ends options.maxSteps
  rw [if_pos (bound.trans enough)] at ran
  exact congrArg Prod.fst ran

/-- A character of a text and its length, through an index that is a whole number. -/
theorem shortcuts_agree_with_plain_at_character :
    let resolver := Resolver.ofJson (.object [("label", .string "héllo")])
    let span : Span := ⟨.origin, 1⟩
    let character : Expr := .index (.name "label" span) (.number (Binary64.ofNat 1) span) false span
    let e : Expr := .member character "length" false span
    e.staticPath? = some ("label", [.index 1, .key "length"]) ∧
      readStatic {} resolver "label" [.index 1, .key "length"] = evaluatePlain {} resolver e ∧
      Direct.ofExpr? e = some (.path "label" [.index 1, .key "length"]) ∧
      evaluatePlain {} resolver e = .ok ((Direct.path "label" [.index 1, .key "length"]).call resolver) ∧
      e.nodes.length ≤ ({} : EvalOptions).maxSteps ∧ ({} : EvalOptions).timeoutMs ≠ 0 ∧
      (run {} resolver e).1 = evaluatePlain {} resolver e := by
  intro resolver span character e
  have static : e.staticPath? = some ("label", [.index 1, .key "length"]) := by decide +kernel
  have simple : Direct.ofExpr? e = some (.path "label" [.index 1, .key "length"]) :=
    Direct.ofExpr?_of_static static ⟨rfl, rfl⟩
  obtain ⟨read, direct, interpreted⟩ := shortcuts_agree_with_plain {} resolver e
  exact ⟨static, read _ _ static, simple, direct _ simple, by decide, by decide,
    interpreted (by decide) (by decide)⟩

/-- Evaluation takes no more steps than the tree has nodes, so a limit that is not below this number never stops
it. Under a higher limit, whatever was not stopped has the same outcome after as many steps. -/
theorem steps_bounded_and_monotone {options : EvalOptions} (timely : options.timeoutMs ≠ 0) (resolver : Resolver)
    (e : Expr) :
    (run options resolver e).2 ≤ e.nodes.length ∧
    (e.nodes.length ≤ options.maxSteps → ∀ fault, (run options resolver e).1 = .error fault →
      fault.error.code ≠ .expressionMaxStepsExceeded) ∧
    ∀ few many, few ≤ many →
      (∀ fault, (run { options with maxSteps := few } resolver e).1 = .error fault →
        fault.error.code ≠ .expressionMaxStepsExceeded) →
      run { options with maxSteps := many } resolver e = run { options with maxSteps := few } resolver e := by
  obtain ⟨cost, bound, ends⟩ := run_eq_plain timely resolver e
  have unstopped := (evaluate_takes timely resolver e).1
  have ran := ends options.maxSteps
  refine ⟨?_, ?_, ?_⟩
  · rw [ran]
    split_ifs <;> simp <;> omega
  · intro enough fault failed
    rw [ran, if_pos (bound.trans enough)] at failed
    exact code_of_unstopped unstopped failed
  · intro few many grows finished
    have reached : cost ≤ few := by
      by_contra short
      refine finished (.steps few) (by rw [ends few, if_neg short]) ?_
      simp [EvalFault.error]
    rw [ends many, ends few, if_pos reached, if_pos (reached.trans grows)]

/-- Three steps suffice for the branch of a conditional that is taken, of six nodes. -/
theorem steps_bounded_and_monotone_at_branch :
    let resolver := Resolver.ofJson (.object [("a", .bool true), ("b", .null)])
    let span : Span := ⟨.origin, 1⟩
    let sum : Expr := .binary .add (.name "b" span) (.name "b" span) span
    let e : Expr := .ternary (.name "a" span) (.name "b" span) sum span
    ({} : EvalOptions).timeoutMs ≠ 0 ∧ (run {} resolver e).2 ≤ e.nodes.length ∧ e.nodes.length ≤ 10000 ∧
      run { maxSteps := 3 } resolver e = (.ok .null, 3) ∧
      run { maxSteps := 5 } resolver e = run { maxSteps := 3 } resolver e := by
  intro resolver span sum e
  have ran : run { maxSteps := 3 } resolver e = (.ok .null, 3) := rfl
  have timely : ({} : EvalOptions).timeoutMs ≠ 0 := by decide
  obtain ⟨within, _, further⟩ := steps_bounded_and_monotone timely resolver e
  refine ⟨timely, within, by decide, ran, further 3 5 (by decide) fun fault failed => ?_⟩
  have impossible := failed.symm.trans (congrArg Prod.fst ran)
  cases impossible

end Eval

end StateScript
