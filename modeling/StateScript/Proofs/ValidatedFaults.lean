import StateScript.Engine.Basic
import StateScript.Proofs.FaultSites

/-!
What validation means for evaluation. A tree that the rules let through can be denied a name only where a
key is computed, and a call that they reject has no value.
-/

namespace StateScript

namespace Expr

/-- An index whose key is anything but a string literal. -/
def IsComputedIndex : Expr → Prop
  | .index _ (.string ..) _ _ => False
  | .index .. => True
  | _ => False

theorem mem_nodes_self (e : Expr) : e ∈ e.nodes := by
  cases e <;> simp [nodes]

/-- Everything that the rules may look at passes every rule, but for the depth of the tree. -/
def Allowed (options : ValidationOptions) (e : Expr) : Prop :=
  ∀ node ∈ e.nodes, ∀ rule, node.rejections options rule = []

theorem allowed_of_violations {options : ValidationOptions} {e : Expr} (clean : e.violations options = []) :
    e.Allowed options := by
  unfold violations at clean
  split at clean
  · rename_i deep
    simp [violationsOf, deep] at clean
  · rw [List.flatMap_eq_nil_iff] at clean
    intro node member rule
    have found := clean rule (by cases rule <;> simp [Rule.all])
    cases rule with
    | nestingDepth => rfl
    | dangerousProperty | hostGlobal | functionWhitelist =>
      simp only [violationsOf, List.flatMap_eq_nil_iff, List.map_eq_nil_iff] at found
      exact found node member

section

variable {options : ValidationOptions} {e : Expr} (allowed : e.Allowed options)

include allowed

theorem Allowed.mono {node : Expr} (inside : node.nodes ⊆ e.nodes) : node.Allowed options :=
  fun deeper member => allowed deeper (inside member)

/-- A node that passes the rules reaches no denied name. -/
theorem Allowed.not_denied {name : String} (reached : name ∈ e.reachedNames) : isDenied name = false := by
  have none := allowed e e.mem_nodes_self .dangerousProperty
  simp only [rejections, List.map_eq_nil_iff, List.filter_eq_nil_iff, Bool.not_eq_true] at none
  exact none name reached

end

end Expr

namespace Eval

section

variable {options : EvalOptions} {e : Expr} {α β : Type}

/-- What the rules allow passes the gates of static paths. -/
theorem static_checks (allowed : e.Allowed options.validation) {root : String} {path : Path}
    (static : e.staticPath? = some (root, path)) :
    checkRoot options root = .ok () ∧ checkPath path = .ok () := by
  induction e using Expr.staticPath?.induct generalizing path with
  | case1 n s =>
    cases static
    have ownRule := allowed _ (Expr.mem_nodes_self _) .hostGlobal
    have local' : options.allowGlobals = true ∨ isHostGlobal root = false := by
      simp only [Expr.rejections, EvalOptions.validation] at ownRule
      cases switched : options.allowGlobals <;> simp_all
    have open' : isDenied root = false := allowed.not_denied (by simp [Expr.reachedNames])
    exact ⟨checkRoot_eq_ok_iff.mpr ⟨open', local'⟩, rfl⟩
  | case2 object property o s ih =>
    simp only [Expr.staticPath?, Option.map_eq_some_iff] at static
    obtain ⟨⟨base, front⟩, below, eq⟩ := static
    cases eq
    have inside : object.nodes ⊆ (Expr.member object property o s).nodes := by simp [Expr.nodes]
    obtain ⟨rooted, passed⟩ := ih (allowed.mono inside) below
    have open' : isDenied property = false := allowed.not_denied (by simp [Expr.reachedNames])
    refine ⟨rooted, checkPath_eq_ok_iff.mpr ?_⟩
    simpa [Direct.deniedSegment, open'] using checkPath_eq_ok_iff.mp passed
  | case3 object key o s ih =>
    simp only [Expr.staticPath?, Option.bind_eq_bind, Option.bind_eq_some_iff] at static
    obtain ⟨segment, literal, ⟨base, front⟩, below, eq⟩ := static
    cases eq
    have inside : object.nodes ⊆ (Expr.index object key o s).nodes := by simp [Expr.nodes]
    obtain ⟨rooted, passed⟩ := ih (allowed.mono inside) below
    have open' : Direct.deniedSegment segment = false := by
      cases key with
      | string text t =>
        cases literal
        exact allowed.not_denied (by simp [Expr.reachedNames])
      | number x t =>
        simp only [Expr.literalSegment?] at literal
        split at literal
        · split at literal <;> cases literal
          rfl
        · cases literal
      | _ => cases literal
    refine ⟨rooted, checkPath_eq_ok_iff.mpr ?_⟩
    simpa [open'] using checkPath_eq_ok_iff.mp passed
  | case4 e noName noMember noIndex =>
    cases e with
    | name n s => exact (noName n s rfl).elim
    | member object property o s => exact (noMember object property o s rfl).elim
    | index object key o s => exact (noIndex object key o s rfl).elim
    | _ => cases static

/-- The only fault of a computed key is that it is a denied name. -/
theorem propertyKey_eq_error {value : Json} {fault : EvalFault} (failed : propertyKey value = .error fault) :
    isDenied value.toText = true ∧ fault = .denied value.toText := by
  have gate : ∀ text : String, (do checkProperty text; return Segment.key text) = Except.error fault →
      isDenied text = true ∧ fault = .denied text := by
    intro text refused
    unfold checkProperty at refused
    split_ifs at refused with named
    · cases refused
      exact ⟨named, rfl⟩
    · cases refused
  cases value with
  | number n =>
    simp only [propertyKey] at failed
    split at failed
    · split at failed <;> cases failed
    · cases failed
  | _ => exact gate _ failed

/-- What the rules allow can only be denied where a key is computed, and calls no function that is not
listed. -/
theorem Raises.code_of_allowed {fault : EvalFault} (raised : Raises options e fault)
    (allowed : e.Allowed options.validation) :
    fault.error.code ≠ .expressionFunctionNotWhitelisted ∧
      (fault.error.code = .expressionUnsafeAccess → e.IsComputedIndex) := by
  cases raised with
  | steps | timeout => simp [EvalFault.error]
  | root static failed =>
    rw [(static_checks allowed static).1] at failed
    cases failed
  | path static failed =>
    rw [(static_checks allowed static).2] at failed
    cases failed
  | property failed =>
    rw [checkProperty_eq_ok_iff.mpr (allowed.not_denied (by simp [Expr.reachedNames]))] at failed
    cases failed
  | field member failed =>
    rw [checkProperty_eq_ok_iff.mpr (allowed.not_denied (by simpa [Expr.reachedNames] using member))] at failed
    cases failed
  | @key object key o s value fault literal failed =>
    obtain ⟨named, rfl⟩ := propertyKey_eq_error failed
    refine ⟨by simp [EvalFault.error], fun _ => ?_⟩
    cases key with
    | string text t =>
      have read : value = .string text := literal text t rfl
      have open' : isDenied text = false := allowed.not_denied (by simp [Expr.reachedNames])
      rw [read, Json.toText, open'] at named
      cases named
    | _ => trivial
  | @rejected callee args s target found =>
    have ownRule := allowed _ (Expr.mem_nodes_self _) .functionWhitelist
    simp [Expr.rejections, found] at ownRule
  | @builtin callee args s fault other =>
    cases fault with
    | notWhitelisted target => exact absurd rfl (other target)
    | _ => simp [EvalFault.error, CallFault.error]

/-- An operation that never succeeds. -/
def Fails (operation : EvalM α) : Prop := ∀ n a, (operation.run n).1 ≠ .ok a

theorem Fails.throw (fault : EvalFault) : Fails (throw fault : EvalM α) := fun _ _ => nofun

theorem Fails.after (first : EvalM α) {next : α → EvalM β} (fails : ∀ a, Fails (next a)) :
    Fails (first >>= next) := by
  intro n b
  rw [run_bind]
  split
  · exact fails _ _ b
  · nofun

theorem fails_namespaced {owner property : String} (unlisted : isNamespaceFunction owner property = false)
    (values : List Json) : Fails (lift ((Builtin.namespaced owner property values).mapError .call)) := by
  have missing : (Namespace.ofName? owner).bind (NamespaceFunction.find? · property) = none := by
    simpa [isNamespaceFunction_eq] using unlisted
  intro n value
  rw [Builtin.namespaced, missing]
  nofun

/-- A call that the rule for functions rejects has no value. -/
theorem fails_of_rejected {resolver : Resolver} {callee : Expr} {args : List Expr} {s : Span} {target : String}
    (rejected : callee.rejectedTarget? = some target) : Fails (evaluate options resolver (.call callee args s)) := by
  cases callee with
  | name f t =>
    have unlisted : GlobalFunction.ofName? f = none := by
      simp only [Expr.rejectedTarget?, isGlobalFunction] at rejected
      cases found : GlobalFunction.ofName? f <;> simp_all
    simp only [evaluate, Evaluator.evaluate, unlisted]
    exact Fails.after _ fun _ => Fails.throw _
  | member object property o t =>
    simp only [evaluate, Evaluator.evaluate]
    refine Fails.after _ fun _ => ?_
    cases owned : namespaceOf? object with
    | some owner =>
      obtain ⟨u, rfl, known⟩ := eq_name_of_namespaceOf? owned
      have unlisted : isNamespaceFunction owner property = false := by
        simp only [Expr.rejectedTarget?, known] at rejected
        cases listed : isNamespaceFunction owner property <;> simp_all
      exact Fails.after _ (fails_namespaced unlisted)
    | none =>
      have unlisted : isValueMethod property = false := by
        rw [rejectedTarget?_of_unowned owned] at rejected
        cases listed : isValueMethod property <;> simp_all
      simp only [unlisted]
      exact Fails.throw _
  | _ =>
    simp only [evaluate, Evaluator.evaluate]
    exact Fails.after _ fun _ => Fails.throw _

theorem evaluate_rejected_ne_ok {resolver : Resolver} {rules : ValidationOptions}
    (rejected : e.rejections rules .functionWhitelist ≠ []) (n : Nat) (value : Json) :
    ((evaluate options resolver e).run n).1 ≠ .ok value := by
  cases e with
  | call callee args s =>
    cases found : callee.rejectedTarget? with
    | none => exact absurd (by simp [Expr.rejections, found]) rejected
    | some target => exact fails_of_rejected found n value
  | _ => exact absurd rfl rejected

end

/-- Forgetting the nodes gives the plain result. A tree that the rules let through never calls what is not
listed, and is denied a name only where a computed index stands. A call that the rules report has no value. -/
theorem faults_of_validated (options : EvalOptions) (resolver : Resolver) (e : Expr) :
    interpret options resolver e = (interpretLocated options resolver e).mapError (·.fault.error) ∧
      (e.violations options.validation = [] → ∀ place, interpretLocated options resolver e = .error place →
        place.fault.error.code ≠ .expressionFunctionNotWhitelisted ∧
          (place.fault.error.code = .expressionUnsafeAccess →
            place.site ∈ e.nodes ∧ place.site.IsComputedIndex)) ∧
      ∀ node ∈ e.nodes, node.rejections options.validation .functionWhitelist ≠ [] →
        ∀ n value, ((evaluate options resolver node).run n).1 ≠ .ok value := by
  refine ⟨interpret_eq_forget options resolver e, fun clean place failed => ?_,
    fun node _ rejected => evaluate_rejected_ne_ok rejected⟩
  obtain ⟨inside, raised⟩ := (evaluateLocated_locates options resolver e 0).2 place failed
  have allowed := (Expr.allowed_of_violations clean).mono inside
  obtain ⟨listed, computed⟩ := raised.code_of_allowed allowed
  exact ⟨listed, fun denied => ⟨inside place.site.mem_nodes_self, computed denied⟩⟩

/-- `a["const" + "ructor"]`, whose key the rules cannot see. -/
def joinedKey : Expr :=
  let whole : Span := ⟨.origin, 22⟩
  .index (.name "a" whole) (.binary .add (.string "const" whole) (.string "ructor" whole) whole) false whole

/-- `Math.eval(a)`, which the rules report. -/
def unlistedCall : Expr :=
  let whole : Span := ⟨.origin, 12⟩
  .call (.member (.name "Math" whole) "eval" false whole) [.name "a" whole] whole

/-- The rules let the joined key through, and the gate then denies it at the index. -/
theorem faults_of_validated_at_joinedKey :
    (∃ fault, interpretLocated {} (.ofJson .null) joinedKey = .error ⟨fault, joinedKey⟩ ∧
      fault.error.code = .expressionUnsafeAccess ∧ joinedKey.IsComputedIndex) ∧
    ∀ n value, ((evaluate {} (.ofJson .null) unlistedCall).run n).1 ≠ .ok value := by
  have clean : joinedKey.violations (EvalOptions.validation {}) = [] := by decide +kernel
  have failed : interpretLocated {} (.ofJson .null) joinedKey = .error ⟨.denied "constructor", joinedKey⟩ := by
    rfl
  obtain ⟨_, denies, _⟩ := faults_of_validated {} (.ofJson .null) joinedKey
  obtain ⟨_, computed⟩ := denies clean _ failed
  obtain ⟨_, _, reported⟩ := faults_of_validated {} (.ofJson .null) unlistedCall
  refine ⟨⟨_, failed, rfl, (computed rfl).2⟩, ?_⟩
  exact reported unlistedCall unlistedCall.mem_nodes_self (by decide +kernel)

end Eval

end StateScript
