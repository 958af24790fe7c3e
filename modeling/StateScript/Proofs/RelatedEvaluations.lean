import Mathlib
import StateScript.Eval.Run
import StateScript.Validation

/-!
Evaluations that go together. If two evaluators take each node in related ways, then whatever they make of a
tree is related, because they walk it in the same order. What is only true of some nodes is asked for those that
the evaluation comes to.
-/

namespace StateScript

open Eval (namespaceOf?)

namespace Eval

theorem eq_name_of_namespaceOf? {object : Expr} {owner : String} (named : namespaceOf? object = some owner) :
    ∃ u, object = .name owner u ∧ isNamespace owner = true := by
  cases object with
  | name n u =>
    simp only [namespaceOf?, Option.ite_none_right_eq_some, Option.some.injEq] at named
    obtain ⟨known, rfl⟩ := named
    exact ⟨u, rfl, known⟩
  | _ => cases named

theorem isNamespaceFunction_eq (owner name : String) : isNamespaceFunction owner name =
    ((Namespace.ofName? owner).bind (NamespaceFunction.find? · name)).isSome := by
  unfold isNamespaceFunction
  cases Namespace.ofName? owner <;> rfl

/-- Whatever a method is called on but a namespace, only its own name counts. -/
theorem rejectedTarget?_of_unowned {object : Expr} {property : String} {o : Bool} {t : Span}
    (unowned : namespaceOf? object = none) : (Expr.member object property o t).rejectedTarget? =
      if isValueMethod property then none else some s!".{property}" := by
  cases object with
  | name n u =>
    have foreign : isNamespace n = false := by simpa [namespaceOf?] using unowned
    simp [Expr.rejectedTarget?, foreign]
  | _ => simp [Expr.rejectedTarget?]

/-! Builtins that are called refuse nothing by themselves. -/

theorem callNamespace_eq_error {f : NamespaceFunction} {values : List Json} {fault : CallFault}
    (failed : Builtin.callNamespace f values = .error fault) (target : String) :
    fault ≠ .notWhitelisted target := by
  cases f with
  | parse =>
    simp only [Builtin.callNamespace] at failed
    cases read : Json.read (Builtin.arg values 0).toText with
    | error reason =>
      rw [read] at failed
      cases failed
      simp
    | ok value =>
      rw [read] at failed
      cases failed
  | keys | values =>
    simp only [Builtin.callNamespace] at failed
    split at failed <;> cases failed
  | _ => cases failed

theorem callMethod?_eq_error {receiver : Json} {m : ValueMethod} {values : List Json} {fault : CallFault}
    (failed : Builtin.callMethod? receiver m values = some (.error fault)) (target : String) :
    fault ≠ .notWhitelisted target := by
  cases receiver with
  | string text =>
    simp only [Builtin.callMethod?, Option.map_eq_some_iff] at failed
    obtain ⟨_, _, impossible⟩ := failed
    cases impossible
  | array items =>
    simp only [Builtin.callMethod?, Option.map_eq_some_iff] at failed
    obtain ⟨_, _, impossible⟩ := failed
    cases impossible
  | number x =>
    cases m with
    | toString =>
      simp only [Builtin.callMethod?, Builtin.callNumber?, Option.some.injEq] at failed
      split_ifs at failed
      cases failed
      simp
    | _ => cases failed
  | null => cases failed
  | bool | object =>
    simp only [Builtin.callMethod?] at failed
    split_ifs at failed
    cases failed

theorem method_eq_error {receiver : Json} {name : String} {values : List Json} {fault : CallFault}
    (failed : Builtin.method receiver name values = .error fault) (target : String) :
    fault ≠ .notWhitelisted target := by
  unfold Builtin.method at failed
  split at failed
  · cases failed
    simp
  · cases called : (ValueMethod.ofName? name).bind (Builtin.callMethod? receiver · values) with
    | none =>
      rw [called] at failed
      cases failed
      simp
    | some outcome =>
      rw [called] at failed
      cases failed
      obtain ⟨m, _, answered⟩ := Option.bind_eq_some_iff.mp called
      exact callMethod?_eq_error answered target

/-- What a call may come to: a refusal only if the rule for functions rejects the callee. -/
def Answers (callee : Expr) (result : Except CallFault Json) : Prop :=
  ∀ target, result = .error (.notWhitelisted target) → callee.rejectedTarget? = some target

namespace Answers

variable {object : Expr} {property : String} {o : Bool} {t : Span}

theorem refused {callee : Expr} {target : String} (rejected : callee.rejectedTarget? = some target) :
    Answers callee (.error (.notWhitelisted target)) := by
  rintro _ ⟨⟩
  exact rejected

theorem namespaced {owner : String} (named : namespaceOf? object = some owner) (values : List Json) :
    Answers (.member object property o t) (Builtin.namespaced owner property values) := by
  obtain ⟨u, rfl, known⟩ := eq_name_of_namespaceOf? named
  intro target failed
  unfold Builtin.namespaced at failed
  cases found : (Namespace.ofName? owner).bind (NamespaceFunction.find? · property) with
  | none =>
    rw [found] at failed
    cases failed
    have unlisted : isNamespaceFunction owner property = false := by simp [isNamespaceFunction_eq, found]
    simp [Expr.rejectedTarget?, known, unlisted]
  | some f =>
    rw [found] at failed
    exact absurd rfl (callNamespace_eq_error failed target)

theorem method (callee : Expr) (receiver : Json) (name : String) (values : List Json) :
    Answers callee (Builtin.method receiver name values) :=
  fun target failed => absurd rfl (method_eq_error failed target)

end Answers

end Eval

/-- What the evaluation of an expression may evaluate for it. A callee is not evaluated, only what a method is
called on, unless that names a namespace. -/
def Expr.operands : Expr → List Expr
  | .call (.member object _ _ _) args _ => if (namespaceOf? object).isNone then object :: args else args
  | .call _ args _ => args
  | e => e.children

theorem Expr.args_subset_operands (callee : Expr) (args : List Expr) (s : Span) :
    args ⊆ (Expr.call callee args s).operands := by
  cases callee with
  | member object property o t =>
    simp only [operands]
    split
    · exact List.subset_cons_self object args
    · exact List.Subset.refl args
  | _ => exact List.Subset.refl args

namespace Eval

/-- Two evaluators take the nodes inside a tree in related ways, and a relation that holds of their parts holds
of what is put together from them. -/
structure Evaluator.Related {μ ν : Type → Type} [Monad μ] [Monad ν] (first : Evaluator μ) (second : Evaluator ν)
    (inside : Expr → Prop) (rel : {α : Type} → μ α → ν α → Prop) : Prop where
  operand : ∀ {e operand}, inside e → operand ∈ e.operands → inside operand
  pure : ∀ {α : Type} (a : α), rel (pure a) (pure a)
  bind : ∀ {α β : Type} {x : μ α} {x' : ν α} {next : α → μ β} {next' : α → ν β}, rel x x' →
    (∀ a, rel (next a) (next' a)) → rel (x >>= next) (x' >>= next')
  visit : ∀ {e}, inside e → rel (first.visit e) (second.visit e)
  static : first.static? = Expr.staticPath? ∧ second.static? = Expr.staticPath?
  readStatic : ∀ {e root path}, inside e → e.staticPath? = some (root, path) →
    rel (first.readStatic e root path) (second.readStatic e root path)
  member : ∀ {object property o s}, inside (.member object property o s) → ∀ target,
    rel (first.member (.member object property o s) target property)
      (second.member (.member object property o s) target property)
  index : ∀ {object key o s}, inside (.index object key o s) → ∀ target value,
    (∀ text t, key = .string text t → value = .string text) →
      rel (first.index (.index object key o s) target value) (second.index (.index object key o s) target value)
  field : ∀ {properties s name}, inside (.record properties s) → name ∈ properties.map Prod.fst →
    rel (first.field (.record properties s) name) (second.field (.record properties s) name)
  called : ∀ {callee args s}, inside (.call callee args s) → ∀ result, Answers callee result →
    rel (first.called (.call callee args s) result) (second.called (.call callee args s) result)

namespace Evaluator

variable {μ ν : Type → Type} [Monad μ] [Monad ν]

/-- A text in place of a key is the value that it is written as. -/
theorem evaluate_string_bind [LawfulMonad μ] {β : Type} (evaluator : Evaluator μ) (text : String) (s : Span)
    (next : Json → μ β) : evaluator.evaluate (.string text s) >>= next =
      evaluator.visit (.string text s) >>= fun _ => next (.string text) := by
  simp only [evaluate, bind_assoc, pure_bind]

namespace Related

variable {first : Evaluator μ} {second : Evaluator ν} {inside : Expr → Prop} {rel : {α : Type} → μ α → ν α → Prop}

theorem ite (_ : first.Related second inside rel) (condition : Prop) [Decidable condition] {α : Type} {x y : μ α}
    {x' y' : ν α} (holds : rel x x') (fails : rel y y') :
    rel (if condition then x else y) (if condition then x' else y') := by
  split
  · exact holds
  · exact fails

mutual

/-- What two evaluations come to is related if their evaluators are. -/
theorem evaluate [LawfulMonad μ] [LawfulMonad ν] (related : first.Related second inside rel) (e : Expr)
    (within : inside e) : rel (first.evaluate e) (second.evaluate e) := by
  obtain ⟨static, static'⟩ := related.static
  have part {operand : Expr} (member : operand ∈ e.operands) : inside operand := related.operand within member
  have visiting := related.visit within
  match e with
  | .bool .. | .number .. | .string .. | .null _ =>
    simp only [Evaluator.evaluate]
    exact related.bind visiting fun _ => related.pure _
  | .list elements s =>
    have each := related.evaluateList elements fun e member => part member
    simp only [Evaluator.evaluate]
    exact related.bind visiting fun _ => related.bind each fun _ => related.pure _
  | .record properties s =>
    have each := related.evaluateProperties within [] properties (List.Subset.refl _) fun p member =>
      part (List.mem_map.mpr ⟨p, member, rfl⟩)
    simp only [Evaluator.evaluate]
    exact related.bind visiting fun _ => related.bind each fun _ => related.pure _
  | .name n s =>
    simp only [Evaluator.evaluate]
    exact related.bind visiting fun _ => related.readStatic within rfl
  | .member object property o s =>
    have inner := related.evaluate object (part (List.mem_singleton.mpr rfl))
    simp only [Evaluator.evaluate, static, static']
    refine related.bind visiting fun _ => ?_
    cases found : (Expr.member object property o s).staticPath? with
    | some place => exact related.readStatic within found
    | none => exact related.bind inner fun target => related.member within target
  | .index object key o s =>
    have inner := related.evaluate object (part List.mem_cons_self)
    have keyed : inside key := part (List.mem_cons_of_mem _ List.mem_cons_self)
    have computed := related.evaluate key keyed
    simp only [Evaluator.evaluate, static, static']
    refine related.bind visiting fun _ => ?_
    cases found : (Expr.index object key o s).staticPath? with
    | some place => exact related.readStatic within found
    | none =>
      refine related.bind inner fun target => ?_
      cases key with
      | string text t =>
        rw [evaluate_string_bind, evaluate_string_bind]
        refine related.bind (related.visit keyed) fun _ => related.index within target _ ?_
        rintro _ _ ⟨⟩
        rfl
      | _ => exact related.bind computed fun value => related.index within target value nofun
  | .call callee args s =>
    have passed := related.evaluateList args fun e member => part (Expr.args_subset_operands callee args s member)
    have answers := related.called within
    cases callee with
    | name f t =>
      simp only [Evaluator.evaluate]
      refine related.bind visiting fun _ => ?_
      cases found : GlobalFunction.ofName? f with
      | none => exact answers _ (.refused (by simp [Expr.rejectedTarget?, isGlobalFunction, found]))
      | some g => exact related.bind passed fun _ => related.pure _
    | member object property o t =>
      simp only [Evaluator.evaluate]
      refine related.bind visiting fun _ => ?_
      cases owned : namespaceOf? object with
      | some owner => exact related.bind passed fun values => answers _ (.namespaced owned values)
      | none =>
        have inner := related.evaluate object (part (by simp [Expr.operands, owned]))
        cases listed : isValueMethod property with
        | true =>
          refine related.bind inner fun receiver => related.ite _ (related.pure _) ?_
          exact related.bind passed fun values => answers _ (.method _ receiver property values)
        | false => exact answers _ (.refused (by simp [rejectedTarget?_of_unowned owned, listed]))
    | _ =>
      simp only [Evaluator.evaluate]
      exact related.bind visiting fun _ => answers _ (.refused rfl)
  | .unary op operand s =>
    have inner := related.evaluate operand (part (List.mem_singleton.mpr rfl))
    simp only [Evaluator.evaluate]
    exact related.bind visiting fun _ => related.bind inner fun _ => related.pure _
  | .binary op left right s =>
    have before := related.evaluate left (part List.mem_cons_self)
    have behind := related.evaluate right (part (List.mem_cons_of_mem _ List.mem_cons_self))
    simp only [Evaluator.evaluate]
    exact related.bind visiting fun _ => related.bind before fun _ => related.bind behind fun _ => related.pure _
  | .logical op left right s =>
    have before := related.evaluate left (part List.mem_cons_self)
    have behind := related.evaluate right (part (List.mem_cons_of_mem _ List.mem_cons_self))
    simp only [Evaluator.evaluate]
    exact related.bind visiting fun _ => related.bind before fun value => related.ite _ (related.pure value) behind
  | .ternary condition consequent alternate s =>
    have tested := related.evaluate condition (part List.mem_cons_self)
    have yes := related.evaluate consequent (part (List.mem_cons_of_mem _ List.mem_cons_self))
    have no := related.evaluate alternate (part (List.mem_cons_of_mem _ (List.mem_cons_of_mem _ List.mem_cons_self)))
    simp only [Evaluator.evaluate]
    exact related.bind visiting fun _ => related.bind tested fun _ => related.ite _ yes no
  termination_by structural e

theorem evaluateList [LawfulMonad μ] [LawfulMonad ν] (related : first.Related second inside rel) (es : List Expr)
    (within : ∀ e ∈ es, inside e) :
    rel (first.evaluateList es) (second.evaluateList es) := by
  match es with
  | [] => exact related.pure _
  | e :: rest =>
    obtain ⟨here, there⟩ := List.forall_mem_cons.mp within
    have before := related.evaluate e here
    have others := related.evaluateList rest there
    simp only [Evaluator.evaluateList]
    exact related.bind before fun _ => related.bind others fun _ => related.pure _
  termination_by structural es

theorem evaluateProperties [LawfulMonad μ] [LawfulMonad ν] (related : first.Related second inside rel)
    {properties : List (String × Expr)} {s : Span} (owner : inside (.record properties s)) (members : Members)
    (ps : List (String × Expr)) (part : ps ⊆ properties) (within : ∀ p ∈ ps, inside p.2) :
    rel (first.evaluateProperties (.record properties s) members ps)
      (second.evaluateProperties (.record properties s) members ps) := by
  match ps with
  | [] => exact related.pure _
  | (key, e) :: rest =>
    obtain ⟨here, there⟩ := List.forall_mem_cons.mp within
    have named : key ∈ properties.map Prod.fst := List.mem_map.mpr ⟨(key, e), part List.mem_cons_self, rfl⟩
    have before := related.evaluate e here
    have others members := related.evaluateProperties owner members rest
      (fun p member => part (List.mem_cons_of_mem _ member)) there
    simp only [Evaluator.evaluateProperties]
    exact related.bind (related.field owner named) fun _ => related.bind before fun _ => others _
  termination_by structural ps

end

end Related

end Evaluator

end Eval

end StateScript
