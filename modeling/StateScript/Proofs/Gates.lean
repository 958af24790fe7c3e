import StateScript.Proofs.Lookups
import StateScript.Proofs.Runs

/-!
The gates that names pass before they are looked up or read. What has a direct form has passed them
all, so it is interpreted in one step, to the value that its direct form has.
-/

namespace StateScript

namespace Eval

theorem checkProperty_eq_ok_iff {name : String} : checkProperty name = .ok () ↔ isDenied name = false := by
  unfold checkProperty
  cases isDenied name <;> simp

theorem checkRoot_eq_ok_iff {options : EvalOptions} {name : String} : checkRoot options name = .ok () ↔
    isDenied name = false ∧ (options.allowGlobals = true ∨ isHostGlobal name = false) := by
  unfold checkRoot checkProperty
  cases isDenied name with
  | true => simp [error_bind]
  | false => cases options.allowGlobals <;> cases isHostGlobal name <;> simp [ok_bind]

theorem checkPath_eq_ok_iff {path : Path} :
    checkPath path = .ok () ↔ path.any Direct.deniedSegment = false := by
  induction path with
  | nil => simp [checkPath]
  | cons segment rest ih =>
    cases segment with
    | key name =>
      unfold checkPath checkProperty
      rw [List.any_cons, Direct.deniedSegment]
      cases isDenied name with
      | true => simp [error_bind]
      | false => simpa [ok_bind] using ih
    | index | wildcard => simpa [checkPath, Direct.deniedSegment] using ih

/-- A step is counted, also when it is one too many or time is up. -/
theorem run_tick (options : EvalOptions) (n : Nat) : (tick options).run n =
    (if options.maxSteps < n + 1 then .error (.steps options.maxSteps)
      else if options.timeoutMs = 0 then .error (.timeout options.timeoutMs) else .ok (), n + 1) := by
  unfold tick
  rw [run_bind, run_modify]
  simp only
  rw [run_bind, run_get]
  by_cases spent : options.maxSteps < n + 1
  · simp only [if_pos spent]
    rfl
  · by_cases late : options.timeoutMs = 0
    · simp only [if_neg spent, if_pos late]
      rfl
    · simp only [if_neg spent, if_neg late]
      rfl

theorem readStatic_eq_ok {options : EvalOptions} {root : String} {path : Path} (resolver : Resolver)
    (passes : checkRoot options root = .ok () ∧ checkPath path = .ok ()) :
    readStatic options resolver root path = .ok (readPath resolver root path) := by
  simp only [readStatic, passes.1, passes.2, ok_bind]
  rfl

/-- A static path costs one step, and is then read behind the gates. -/
theorem evaluate_static {e : Expr} {root : String} {path : Path} (static : e.staticPath? = some (root, path))
    (options : EvalOptions) (resolver : Resolver) : evaluate options resolver e =
      (do tick options; lift (readStatic options resolver root path)) := by
  cases e with
  | name n span =>
    cases static
    rfl
  | member object property optional span => simp only [evaluate, Evaluator.evaluate, stepwise, static]
  | index object key optional span => simp only [evaluate, Evaluator.evaluate, stepwise, static]
  | _ => cases static

section

variable {object : Expr} {optional : Bool} {span : Span} (options : EvalOptions) (resolver : Resolver)

/-- A member that is no static path is read below the value of its object. -/
theorem evaluate_member {property : String}
    (computed : (Expr.member object property optional span).staticPath? = none) :
    evaluate options resolver (.member object property optional span) = (do
      tick options
      let target ← evaluate options resolver object
      lift (checkProperty property)
      return project target [.key property]) := by
  simp only [evaluate, Evaluator.evaluate, stepwise, computed]

/-- An index that is no static path evaluates both of its sides. -/
theorem evaluate_index {key : Expr} (computed : (Expr.index object key optional span).staticPath? = none) :
    evaluate options resolver (.index object key optional span) = (do
      tick options
      let target ← evaluate options resolver object
      let value ← evaluate options resolver key
      let segment ← lift (propertyKey value)
      return project target [segment]) := by
  simp only [evaluate, Evaluator.evaluate, stepwise, computed]

end

end Eval

namespace Direct

variable {e : Expr}

/-- A direct path is the static path of its expression, and no gate denies it. -/
theorem path_of_ofExpr? {root : String} {path : Path} (simple : ofExpr? e = some (.path root path)) :
    e.staticPath? = some (root, path) ∧ isHostGlobal root = false ∧ isDenied root = false ∧
      path.any deniedSegment = false := by
  unfold ofExpr? at simple
  split at simple
  any_goals cases simple
  split at simple
  · rename_i found static
    split at simple
    · cases simple
    · rename_i allowed
      cases simple
      simp only [Bool.or_eq_true, not_or, Bool.not_eq_true] at allowed
      exact ⟨static, allowed.1.1, allowed.1.2, allowed.2⟩
  · cases simple

/-- A static path that no gate denies has a direct form. -/
theorem ofExpr?_of_static {root : String} {path : Path} (static : e.staticPath? = some (root, path))
    (passes : Eval.checkRoot {} root = .ok () ∧ Eval.checkPath path = .ok ()) :
    ofExpr? e = some (.path root path) := by
  obtain ⟨open', globals | local'⟩ := Eval.checkRoot_eq_ok_iff.mp passes.1
  · cases globals
  have clean := Eval.checkPath_eq_ok_iff.mp passes.2
  cases e with
  | name | member | index =>
    simp only [ofExpr?, static, local', open', clean, Bool.or_self, Bool.false_eq_true, if_false]
  | _ => cases static

/-- What has a direct form is interpreted in one step, and then has the direct value. -/
theorem evaluate_eq {direct : Direct} (simple : ofExpr? e = some direct) (options : EvalOptions)
    (resolver : Resolver) :
    Eval.evaluate options resolver e = (do Eval.tick options; return direct.call resolver) := by
  cases direct with
  | constant value =>
    cases e with
    | bool | number | string | null =>
      cases simple
      rfl
    | _ =>
      simp only [ofExpr?] at simple
      split at simple
      · split at simple <;> cases simple
      · cases simple
  | path root path =>
    obtain ⟨static, local', open', clean⟩ := path_of_ofExpr? simple
    have root_ok : Eval.checkRoot options root = .ok () :=
      Eval.checkRoot_eq_ok_iff.mpr ⟨open', Or.inr local'⟩
    have path_ok : Eval.checkPath path = .ok () := Eval.checkPath_eq_ok_iff.mpr clean
    rw [Eval.evaluate_static static, Eval.readStatic_eq_ok resolver ⟨root_ok, path_ok⟩, call]
    rfl

end Direct

end StateScript
