import StateScript.Proofs.Errors
import StateScript.Proofs.Gates

/-!
Where evaluations fail. Every fault of an evaluation is put down to the node that raises it, and each node
raises few faults by itself. Forgetting the nodes gives the plain evaluation.
-/

namespace StateScript

/-- What is evaluated for an expression lies inside it. -/
theorem Expr.nodes_of_operand {e operand : Expr} (part : operand ∈ e.operands) : operand.nodes ⊆ e.nodes := by
  have below {e child : Expr} (member : child ∈ e.children) : child.nodes ⊆ e.nodes := fun node inside => by
    rw [nodes_eq]
    exact List.mem_cons_of_mem _ (List.mem_flatMap.mpr ⟨child, member, inside⟩)
  cases e with
  | call callee args s =>
    have passed {arg : Expr} (member : arg ∈ args) : arg.nodes ⊆ (call callee args s).nodes :=
      below (List.mem_cons_of_mem callee member)
    have called : callee.nodes ⊆ (call callee args s).nodes := below List.mem_cons_self
    cases callee with
    | member object property o t =>
      simp only [operands] at part
      split at part
      · rcases List.mem_cons.mp part with rfl | member
        · have received : operand.nodes ⊆ (member operand property o t).nodes := below List.mem_cons_self
          exact List.Subset.trans received called
        · exact passed member
      · exact passed part
    | _ => exact passed part
  | _ => exact below part

namespace Eval

/-- A fault and the node that raises it. -/
structure Located where
  fault : EvalFault
  site : Expr

/-- Evaluation whose faults are located. -/
abbrev LocatedM := ExceptT Located (StateM Nat)

section

variable {α β : Type}

/-- The part of an evaluation that belongs to a node itself. -/
def atNode (site : Expr) (operation : EvalM α) : LocatedM α :=
  ExceptT.mk fun n => ((operation.run n).1.mapError (⟨·, site⟩), (operation.run n).2)

section

variable (options : EvalOptions) (resolver : Resolver)

/-- Evaluation as it is, with whatever a node does put down to it. -/
def located : Evaluator LocatedM where
  visit node := atNode node ((stepwise options resolver).visit node)
  static? := (stepwise options resolver).static?
  readStatic node root path := atNode node ((stepwise options resolver).readStatic node root path)
  member node target property := atNode node ((stepwise options resolver).member node target property)
  index node target key := atNode node ((stepwise options resolver).index node target key)
  field node name := atNode node ((stepwise options resolver).field node name)
  called node result := atNode node ((stepwise options resolver).called node result)

/-- The value of an expression, or its fault with the node that raises it. -/
def evaluateLocated (e : Expr) : LocatedM Json := (located options resolver).evaluate e

end

/-- The faults that a node can raise by itself. -/
inductive Raises (options : EvalOptions) : Expr → EvalFault → Prop
  | steps {e : Expr} {limit : Nat} : Raises options e (.steps limit)
  | timeout {e : Expr} {ms : Nat} : Raises options e (.timeout ms)
  | root {e : Expr} {root : String} {path : Path} {fault : EvalFault} :
      e.staticPath? = some (root, path) → checkRoot options root = .error fault → Raises options e fault
  | path {e : Expr} {root : String} {path : Path} {fault : EvalFault} :
      e.staticPath? = some (root, path) → checkPath path = .error fault → Raises options e fault
  | property {object : Expr} {property : String} {o : Bool} {s : Span} {fault : EvalFault} :
      checkProperty property = .error fault → Raises options (.member object property o s) fault
  | key {object key : Expr} {o : Bool} {s : Span} {value : Json} {fault : EvalFault} :
      (∀ text t, key = .string text t → value = .string text) → propertyKey value = .error fault →
      Raises options (.index object key o s) fault
  | field {properties : List (String × Expr)} {s : Span} {name : String} {fault : EvalFault} :
      name ∈ properties.map Prod.fst → checkProperty name = .error fault →
      Raises options (.record properties s) fault
  | rejected {callee : Expr} {args : List Expr} {s : Span} {target : String} :
      callee.rejectedTarget? = some target →
      Raises options (.call callee args s) (.call (.notWhitelisted target))
  | builtin {callee : Expr} {args : List Expr} {s : Span} {fault : CallFault} :
      (∀ target, fault ≠ .notWhitelisted target) → Raises options (.call callee args s) (.call fault)

/-- A located operation has the outcome and the steps of a plain one, and puts each fault down to a node
inside some others that raises it. -/
def Locates (options : EvalOptions) (nodes : List Expr) (located : LocatedM α) (plain : EvalM α) : Prop :=
  ∀ n, plain.run n = ((located.run n).1.mapError Located.fault, (located.run n).2) ∧
    ∀ place, (located.run n).1 = .error place →
      place.site.nodes ⊆ nodes ∧ Raises options place.site place.fault

variable {options : EvalOptions} {nodes : List Expr}

theorem Locates.pure (a : α) : Locates options nodes (Pure.pure a) (Pure.pure a) := fun n =>
  ⟨rfl, fun place failed => by cases failed⟩

theorem Locates.bind {first : LocatedM α} {first' : EvalM α} {next : α → LocatedM β} {next' : α → EvalM β}
    (starts : Locates options nodes first first')
    (continues : ∀ a, Locates options nodes (next a) (next' a)) :
    Locates options nodes (first >>= next) (first' >>= next') := by
  intro n
  obtain ⟨same, raises⟩ := starts n
  rw [run_bind, run_bind]
  rcases ran : first.run n with ⟨place | a, m⟩
  · have plain : first'.run n = (.error place.fault, m) := by rw [same, ran]; rfl
    rw [plain]
    refine ⟨rfl, fun other failed => ?_⟩
    cases failed
    exact raises place (by rw [ran])
  · have plain : first'.run n = (.ok a, m) := by rw [same, ran]; rfl
    rw [plain]
    exact continues a m

/-- What a node does itself is put down to it. -/
theorem Locates.atNode {site : Expr} {operation : EvalM α} (inside : site.nodes ⊆ nodes)
    (raises : ∀ n fault, (operation.run n).1 = .error fault → Raises options site fault) :
    Locates options nodes (atNode site operation) operation := by
  intro n
  have ran : (Eval.atNode site operation).run n =
      ((operation.run n).1.mapError (⟨·, site⟩), (operation.run n).2) := rfl
  rw [ran]
  rcases outcome : operation.run n with ⟨fault | a, m⟩
  · refine ⟨rfl, fun place failed => ?_⟩
    cases failed
    exact ⟨inside, raises n fault (by rw [outcome])⟩
  · exact ⟨rfl, fun place failed => by cases failed⟩

theorem Locates.tick (options : EvalOptions) {site : Expr} (inside : site.nodes ⊆ nodes) :
    Locates options nodes (Eval.atNode site (tick options)) (tick options) := by
  refine Locates.atNode inside fun n fault failed => ?_
  rw [run_tick] at failed
  simp only at failed
  split_ifs at failed with spent late
  · cases failed
    exact .steps
  · cases failed
    exact .timeout

theorem readStatic_eq_error {resolver : Resolver} {root : String} {path : Path} {fault : EvalFault}
    (failed : readStatic options resolver root path = .error fault) :
    checkRoot options root = .error fault ∨ checkPath path = .error fault := by
  unfold readStatic at failed
  cases gate : checkRoot options root with
  | error other =>
    rw [gate, error_bind] at failed
    cases failed
    exact Or.inl rfl
  | ok =>
    rw [gate, ok_bind] at failed
    cases behind : checkPath path with
    | error other =>
      rw [behind, error_bind] at failed
      cases failed
      exact Or.inr rfl
    | ok =>
      rw [behind, ok_bind] at failed
      cases failed

/-- What is only looked at after an operation that may fail has the faults of the operation. -/
theorem eq_error_of_lift_bind {result : Except EvalFault α} {f : α → β} {n : Nat} {fault : EvalFault}
    (failed : ((do return f (← lift result)).run n).1 = .error fault) : result = .error fault := by
  cases result with
  | error other =>
    cases failed
    rfl
  | ok a => cases failed

theorem Raises.called {callee : Expr} {args : List Expr} {s : Span} {result : Except CallFault Json}
    {fault : EvalFault} (answers : Answers callee result) (failed : result.mapError .call = .error fault) :
    Raises options (.call callee args s) fault := by
  cases result with
  | ok value => cases failed
  | error other =>
    cases failed
    cases other with
    | notWhitelisted target => exact .rejected (answers target rfl)
    | _ => exact .builtin nofun

end

/-- Evaluators that put down the same operations to the nodes of a tree and to none are related inside it. -/
theorem located_related (options : EvalOptions) (resolver : Resolver) (nodes : List Expr) :
    (located options resolver).Related (stepwise options resolver) (fun e => e.nodes ⊆ nodes)
      (Locates options nodes) where
  operand inside part := List.Subset.trans (Expr.nodes_of_operand part) inside
  pure := Locates.pure
  bind := Locates.bind
  visit := Locates.tick options
  static := ⟨rfl, rfl⟩
  readStatic inside static := Locates.atNode inside fun _ fault failed => by
    rcases readStatic_eq_error failed with gate | behind
    · exact .root static gate
    · exact .path static behind
  member inside _ := Locates.atNode inside fun _ _ failed => .property (eq_error_of_lift_bind failed)
  index inside _ _ literal := Locates.atNode inside fun _ _ failed => .key literal (eq_error_of_lift_bind failed)
  field inside named := Locates.atNode inside fun _ _ failed => .field named failed
  called inside _ answers := Locates.atNode inside fun _ _ failed => .called answers failed

theorem evaluateLocated_locates (options : EvalOptions) (resolver : Resolver) (e : Expr) :
    Locates options e.nodes (evaluateLocated options resolver e) (evaluate options resolver e) :=
  (located_related options resolver e.nodes).evaluate e (List.Subset.refl _)

/-- The value of an expression under a fresh budget, or its fault with the node that raises it. -/
def interpretLocated (options : EvalOptions) (resolver : Resolver) (e : Expr) : Except Located Json :=
  ((evaluateLocated options resolver e).run 0).1

theorem interpret_eq_forget (options : EvalOptions) (resolver : Resolver) (e : Expr) :
    interpret options resolver e = (interpretLocated options resolver e).mapError (·.fault.error) := by
  have plain := (evaluateLocated_locates options resolver e 0).1
  have same : interpret options resolver e =
      ((interpretLocated options resolver e).mapError Located.fault).mapError EvalFault.error :=
    congrArg (fun ran => ran.1.mapError EvalFault.error) plain
  rw [same]
  cases interpretLocated options resolver e <;> rfl

end Eval

end StateScript
