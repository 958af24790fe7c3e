import StateScript.Eval.Compiled
import StateScript.Expr.Dependencies
import StateScript.Proofs.RelatedEvaluations
import StateScript.Proofs.WellNamed

/-!
What evaluation looks up. An expression has the same value wherever the names that it looks up have
the same values, and the paths that it depends on lead to these names, except to those that stand
for builtins.
-/

namespace StateScript

namespace Expr

mutual

/-- The names that evaluation may look up. -/
def lookups : Expr → List String
  | .name n _ => [n]
  | .member object _ _ _ => lookups object
  | .index object key _ _ => lookups object ++ lookups key
  | .call callee args _ =>
    (match callee with
      | .member object _ _ _ => if object.isNamespaceName then [] else lookups object
      | _ => []) ++ lookupsOfList args
  | .list elements _ => lookupsOfList elements
  | .record properties _ => lookupsOfProperties properties
  | .unary _ operand _ => lookups operand
  | .binary _ left right _ => lookups left ++ lookups right
  | .logical _ left right _ => lookups left ++ lookups right
  | .ternary c a b _ => lookups c ++ lookups a ++ lookups b
  | .bool .. => []
  | .number .. => []
  | .string .. => []
  | .null _ => []
  termination_by structural e => e

def lookupsOfList : List Expr → List String
  | [] => []
  | e :: rest => lookups e ++ lookupsOfList rest
  termination_by structural es => es

def lookupsOfProperties : List (String × Expr) → List String
  | [] => []
  | (_, e) :: rest => lookups e ++ lookupsOfProperties rest
  termination_by structural ps => ps

end

mutual

theorem lookups_isName (e : Expr) (named : OnlyNames e.nodes) : ∀ n ∈ e.lookups, Lexeme.IsName n := by
  match e with
  | .bool .. | .number .. | .string .. | .null _ => simp [lookups]
  | .name m s => simpa [lookups, nodes] using named
  | .member object p o s =>
    exact lookups_isName object (by simpa [nodes] using named)
  | .index object key o s =>
    have both : OnlyNames object.nodes ∧ OnlyNames key.nodes := by simpa [nodes] using named
    exact List.forall_mem_append.mpr ⟨lookups_isName object both.1, lookups_isName key both.2⟩
  | .call callee args s =>
    have both : OnlyNames callee.nodes ∧ OnlyNames (nodesOfList args) := by simpa [nodes] using named
    have passed := lookupsOfList_isName args both.2
    cases callee with
    | member object p o t =>
      have receiver := lookups_isName object (by simpa [nodes] using both.1)
      rw [lookups]
      refine List.forall_mem_append.mpr ⟨?_, passed⟩
      cases object.isNamespaceName with
      | true => simp
      | false => simpa using receiver
    | _ => simpa [lookups] using passed
  | .list elements s =>
    exact lookupsOfList_isName elements (by simpa [nodes] using named)
  | .record properties s =>
    exact lookupsOfProperties_isName properties (by simpa [nodes] using named)
  | .unary op operand s =>
    exact lookups_isName operand (by simpa [nodes] using named)
  | .binary op left right s | .logical op left right s =>
    have both : OnlyNames left.nodes ∧ OnlyNames right.nodes := by simpa [nodes] using named
    exact List.forall_mem_append.mpr ⟨lookups_isName left both.1, lookups_isName right both.2⟩
  | .ternary c a b s =>
    have each : (OnlyNames c.nodes ∧ OnlyNames a.nodes) ∧ OnlyNames b.nodes := by
      simpa [nodes, and_assoc] using named
    exact List.forall_mem_append.mpr ⟨List.forall_mem_append.mpr
      ⟨lookups_isName c each.1.1, lookups_isName a each.1.2⟩, lookups_isName b each.2⟩
  termination_by structural e

theorem lookupsOfList_isName (es : List Expr) (named : OnlyNames (nodesOfList es)) :
    ∀ n ∈ lookupsOfList es, Lexeme.IsName n := by
  match es with
  | [] => simp [lookupsOfList]
  | e :: rest =>
    have both : OnlyNames e.nodes ∧ OnlyNames (nodesOfList rest) := by simpa [nodesOfList] using named
    exact List.forall_mem_append.mpr ⟨lookups_isName e both.1, lookupsOfList_isName rest both.2⟩
  termination_by structural es

theorem lookupsOfProperties_isName (ps : List (String × Expr)) (named : OnlyNames (nodesOfProperties ps)) :
    ∀ n ∈ lookupsOfProperties ps, Lexeme.IsName n := by
  match ps with
  | [] => simp [lookupsOfProperties]
  | (key, e) :: rest =>
    have both : OnlyNames e.nodes ∧ OnlyNames (nodesOfProperties rest) := by
      simpa [nodesOfProperties] using named
    exact List.forall_mem_append.mpr ⟨lookups_isName e both.1, lookupsOfProperties_isName rest both.2⟩
  termination_by structural ps

end

theorem lookups_of_literalSegment? {key : Expr} {segment : Segment}
    (literal : key.literalSegment? = some segment) : key.lookups = [] := by
  cases key with
  | string | number => rfl
  | _ => cases literal

/-- A static path looks up its root and nothing else. -/
theorem lookups_of_staticPath? (e : Expr) {root : String} {path : Path}
    (static : e.staticPath? = some (root, path)) : e.lookups = [root] := by
  match e with
  | .name n s =>
    cases static
    rfl
  | .member object p o s =>
    obtain ⟨found, inner, same⟩ := Option.map_eq_some_iff.mp static
    cases same
    exact lookups_of_staticPath? object inner
  | .index object key o s =>
    obtain ⟨segment, literal, rest⟩ := Option.bind_eq_some_iff.mp static
    obtain ⟨found, inner, same⟩ := Option.bind_eq_some_iff.mp rest
    cases same
    simp [lookups, lookups_of_literalSegment? literal, lookups_of_staticPath? object inner]
  termination_by structural e

theorem namespaceOf?_eq_none_iff {e : Expr} : Eval.namespaceOf? e = none ↔ e.isNamespaceName = false := by
  cases e with
  | name owner s => simp [Eval.namespaceOf?, isNamespaceName]
  | _ => simp [Eval.namespaceOf?, isNamespaceName]

theorem lookups_of_mem {e : Expr} {es : List Expr} (member : e ∈ es) : e.lookups ⊆ lookupsOfList es := by
  induction es with
  | nil => cases member
  | cons first rest ih =>
    rcases List.mem_cons.mp member with rfl | later
    · exact List.subset_append_left _ _
    · exact List.subset_append_of_subset_right _ (ih later)

theorem lookups_of_mem_properties {p : String × Expr} {ps : List (String × Expr)} (member : p ∈ ps) :
    p.2.lookups ⊆ lookupsOfProperties ps := by
  induction ps with
  | nil => cases member
  | cons first rest ih =>
    rcases List.mem_cons.mp member with rfl | later
    · exact List.subset_append_left _ _
    · exact List.subset_append_of_subset_right _ (ih later)

/-- What is evaluated for an expression looks up no other names. -/
theorem lookups_of_operand {e operand : Expr} (part : operand ∈ e.operands) : operand.lookups ⊆ e.lookups := by
  cases e with
  | bool | number | string | null | name => cases part
  | list elements s => exact lookups_of_mem part
  | record properties s =>
    obtain ⟨p, member, rfl⟩ := List.mem_map.mp part
    exact lookups_of_mem_properties member
  | member object p o s | unary op object s =>
    obtain rfl := List.mem_singleton.mp part
    exact List.Subset.refl _
  | index first second o s | binary op first second s | logical op first second s =>
    rcases List.mem_pair.mp part with rfl | rfl
    · exact List.subset_append_left _ _
    · exact List.subset_append_right _ _
  | ternary c a b s =>
    simp only [operands, children, List.mem_cons, List.not_mem_nil, or_false] at part
    rcases part with rfl | rfl | rfl <;> intro n <;> simp +contextual [lookups]
  | call callee args s =>
    cases callee with
    | member object p o t =>
      simp only [operands] at part
      split at part
      · rename_i foreign
        have unnamed := namespaceOf?_eq_none_iff.mp (Option.isNone_iff_eq_none.mp foreign)
        rw [lookups, unnamed]
        rcases List.mem_cons.mp part with rfl | passed
        · exact List.subset_append_left _ _
        · exact List.subset_append_of_subset_right _ (lookups_of_mem passed)
      · exact List.subset_append_of_subset_right _ (lookups_of_mem part)
    | _ => exact List.subset_append_of_subset_right _ (lookups_of_mem part)

end Expr

namespace Eval

open StateScript.Expr (lookups lookupsOfList lookupsOfProperties)

variable {o₁ o₂ : EvalOptions} {r₁ r₂ : Resolver}

/-- Two resolvers give the same values to some names. -/
def SameOn (r₁ r₂ : Resolver) (names : List String) : Prop := ∀ n ∈ names, r₁.lookup n = r₂.lookup n

@[simp] theorem sameOn_singleton {n : String} : SameOn r₁ r₂ [n] ↔ r₁.lookup n = r₂.lookup n := by
  simp [SameOn]

/-- Two resolvers give the same values to those of some names that pass the gate. -/
def SameBehindGate (options : EvalOptions) (r₁ r₂ : Resolver) (names : List String) : Prop :=
  ∀ n ∈ names, checkRoot options n = .ok () → r₁.lookup n = r₂.lookup n

theorem SameOn.behindGate {names : List String} (same : SameOn r₁ r₂ names) (options : EvalOptions) :
    SameBehindGate options r₁ r₂ names := fun n member _ => same n member

theorem readPath_congr {root : String} (path : Path) (same : r₁.lookup root = r₂.lookup root) :
    readPath r₁ root path = readPath r₂ root path := by
  simp only [readPath, same]

/-- Two options limit an evaluation in the same way. -/
structure SameLimits (o₁ o₂ : EvalOptions) : Prop where
  globals : o₁.allowGlobals = o₂.allowGlobals
  steps : o₁.maxSteps = o₂.maxSteps
  time : o₁.timeoutMs = o₂.timeoutMs

theorem SameLimits.refl (options : EvalOptions) : SameLimits options options := ⟨rfl, rfl, rfl⟩

theorem SameLimits.tick (limits : SameLimits o₁ o₂) : tick o₁ = tick o₂ := by
  simp only [Eval.tick, limits.steps, limits.time]

theorem SameLimits.checkRoot (limits : SameLimits o₁ o₂) (name : String) :
    checkRoot o₁ name = checkRoot o₂ name := by
  simp only [Eval.checkRoot, limits.globals]

theorem readStatic_congr {e : Expr} {root : String} {path : Path} (limits : SameLimits o₁ o₂)
    (static : e.staticPath? = some (root, path)) (same : SameBehindGate o₂ r₁ r₂ e.lookups) :
    readStatic o₁ r₁ root path = readStatic o₂ r₂ root path := by
  rw [Expr.lookups_of_staticPath? e static] at same
  simp only [readStatic, limits.checkRoot]
  cases gate : checkRoot o₂ root with
  | error fault => rfl
  | ok => simp only [readPath_congr path (same root (List.mem_singleton_self root) gate)]

/-- Evaluators that read under the same limits are related inside what looks up the same values. -/
theorem SameLimits.related (limits : SameLimits o₁ o₂) : (stepwise o₁ r₁).Related (stepwise o₂ r₂)
    (fun e => SameBehindGate o₂ r₁ r₂ e.lookups) fun first second => first = second where
  operand same part := fun n member => same n (Expr.lookups_of_operand part member)
  pure _ := rfl
  bind := by
    rintro _ _ x _ next next' rfl continues
    exact bind_congr continues
  visit _ := limits.tick
  static := ⟨rfl, rfl⟩
  readStatic same static := congrArg lift (readStatic_congr limits static same)
  member _ _ := rfl
  index _ _ _ _ := rfl
  field _ _ := rfl
  called _ _ _ := rfl

/-- Evaluation depends on the limits and on the names that it looks up and the gate lets through. -/
theorem evaluate_congr (limits : SameLimits o₁ o₂) (e : Expr) (same : SameBehindGate o₂ r₁ r₂ e.lookups) :
    evaluate o₁ r₁ e = evaluate o₂ r₂ e := limits.related.evaluate e same

theorem run_congr {e : Expr} (limits : SameLimits o₁ o₂) (same : SameOn r₁ r₂ e.lookups) :
    run o₁ r₁ e = run o₂ r₂ e := by
  simp only [run, evaluate_congr limits e (same.behindGate o₂)]

end Eval

namespace Direct

/-- The direct form looks up no other names than the expression. -/
theorem call_congr {e : Expr} {direct : Direct} {r₁ r₂ : Resolver} (simple : ofExpr? e = some direct)
    (same : Eval.SameOn r₁ r₂ e.lookups) : direct.call r₁ = direct.call r₂ := by
  unfold ofExpr? at simple
  split at simple
  · cases simple; rfl
  · cases simple; rfl
  · cases simple; rfl
  · cases simple; rfl
  · split at simple
    · rename_i root segments static
      split at simple
      · cases simple
      · cases simple
        rw [Expr.lookups_of_staticPath? e static, Eval.sameOn_singleton] at same
        exact Eval.readPath_congr segments same
    · cases simple

end Direct

end StateScript
