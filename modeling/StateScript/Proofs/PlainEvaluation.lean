import StateScript.Proofs.AddressValues

/-!
Plain evaluation: node by node, every link of a chain by itself, with no account of steps. The two shortcuts
for static paths agree with it.
-/

namespace StateScript

namespace Eval

section

variable (options : EvalOptions) (resolver : Resolver)

/-- Evaluation node by node. A member or an index projects the value of its object by one segment, behind the
check of that segment. -/
def plain : Evaluator (Except EvalFault) where
  visit _ := return ()
  static? _ := none
  readStatic _ root path := readStatic options resolver root path
  member _ target property := do
    checkProperty property
    return project target [.key property]
  index _ target key := do
    let segment ← propertyKey key
    return project target [segment]
  field _ name := checkProperty name
  called _ result := result.mapError .call

/-- The value of an expression, worked out node by node. -/
def evaluatePlain (e : Expr) : Except EvalFault Json := (plain options resolver).evaluate e

end

section

variable {options : EvalOptions} {resolver : Resolver}

theorem checkPath_append (front back : Path) : checkPath (front ++ back) = (do checkPath front; checkPath back) := by
  induction front with
  | nil => rfl
  | cons segment rest ih =>
    cases segment with
    | key name =>
      simp only [List.cons_append, checkPath, ih]
      cases checkProperty name <;> rfl
    | index | wildcard => exact ih

/-- A static path is read as far as its last segment, and then by that one. -/
theorem readStatic_append (root : String) (front : Path) (last : Segment) :
    readStatic options resolver root (front ++ [last]) = (do
      let target ← readStatic options resolver root front
      checkPath [last]
      return project target [last]) := by
  simp only [readStatic, checkPath_append, readPath_append]
  cases checkRoot options root with
  | error fault => rfl
  | ok =>
    cases checkPath front with
    | error fault => rfl
    | ok => rfl

/-- A number that is a position is stored and read back as that position. -/
theorem propertyKey_ofFloat {x : Float} {d : Dyadic} (finite : Binary64.dyadic? x = some d) (whole : d.isWhole = true)
    (above : 0 ≤ x) : propertyKey (Json.ofFloat x) = .ok (.index (min d.wholePart Word.max64)) := by
  by_cases safe : d.wholePart ≤ Json.safeInteger
  · have unsigned : d.truncate = d.wholePart := by
      cases negative : d.negative with
      | false => simp [Dyadic.truncate, negative]
      | true =>
        have zero : d.wholePart = 0 := by
          have nothing := Binary64.mantissa_of_negative above finite negative
          unfold Dyadic.wholePart Dyadic.ratio
          split <;> simp [nothing]
        simp [Dyadic.truncate, zero]
    have stored : Json.ofFloat x = .int d.wholePart := by
      simp [Json.ofFloat, Json.safeInteger?, finite, whole, safe, unsigned]
    rw [stored, propertyKey_int safe]
  · have stored : Json.ofFloat x = .number (.float x) := by
      simp [Json.ofFloat, Json.safeInteger?, finite, safe, Binary64.isFinite]
    rw [stored]
    simp only [propertyKey, Number.toFloat, finite, whole, above, and_self, if_true]

variable (options resolver) in
/-- A literal index evaluates to a key that stands for the segment it is taken for, behind the same check. -/
theorem propertyKey_of_literal {key : Expr} {segment : Segment} (literal : key.literalSegment? = some segment) :
    ∃ value, evaluatePlain options resolver key = .ok value ∧
      propertyKey value = (do checkPath [segment]; return segment) := by
  cases key with
  | string name span =>
    cases literal
    refine ⟨.string name, rfl, ?_⟩
    simp only [propertyKey, checkPath, Json.toText]
    cases checkProperty name <;> rfl
  | number x span =>
    simp only [Expr.literalSegment?] at literal
    cases finite : Binary64.dyadic? x with
    | none => simp [finite] at literal
    | some d =>
      simp only [finite, Option.ite_none_right_eq_some, Option.some.injEq] at literal
      obtain ⟨⟨whole, above⟩, rfl⟩ := literal
      exact ⟨.ofFloat x, rfl, propertyKey_ofFloat finite whole above⟩
  | _ => cases literal

/-- Reading a static path at once gives what its links give one after the other, and fails as they do. -/
theorem readStatic_eq_plain (e : Expr) {root : String} {path : Path} (static : e.staticPath? = some (root, path)) :
    readStatic options resolver root path = evaluatePlain options resolver e := by
  match e with
  | .name n s =>
    cases static
    rfl
  | .member object property o s =>
    obtain ⟨⟨base, front⟩, inner, same⟩ := Option.map_eq_some_iff.mp static
    cases same
    rw [readStatic_append, readStatic_eq_plain object inner]
    refine bind_congr fun target => ?_
    simp only [plain, checkPath]
    cases checkProperty property <;> rfl
  | .index object key o s =>
    obtain ⟨segment, literal, rest⟩ := Option.bind_eq_some_iff.mp static
    obtain ⟨⟨base, front⟩, inner, same⟩ := Option.bind_eq_some_iff.mp rest
    cases same
    obtain ⟨value, evaluated, keyed⟩ := propertyKey_of_literal options resolver literal
    have indexed : evaluatePlain options resolver (.index object key o s) = (do
        let target ← evaluatePlain options resolver object
        let value ← evaluatePlain options resolver key
        (plain options resolver).index (.index object key o s) target value) := rfl
    rw [readStatic_append, readStatic_eq_plain object inner, indexed]
    refine bind_congr fun target => ?_
    rw [evaluated, ok_bind]
    simp only [plain, keyed]
    cases checkPath [segment] <;> rfl
  termination_by structural e

theorem plain_of_direct {e : Expr} {direct : Direct} (simple : Direct.ofExpr? e = some direct) :
    evaluatePlain options resolver e = .ok (direct.call resolver) := by
  cases direct with
  | constant value =>
    cases e with
    | bool | number | string | null =>
      cases simple
      rfl
    | _ =>
      simp only [Direct.ofExpr?] at simple
      split at simple
      · split at simple <;> cases simple
      · cases simple
  | path root path =>
    obtain ⟨static, local', open', clean⟩ := Direct.path_of_ofExpr? simple
    have root_ok : checkRoot options root = .ok () := checkRoot_eq_ok_iff.mpr ⟨open', Or.inr local'⟩
    rw [← readStatic_eq_plain e static, readStatic_eq_ok resolver ⟨root_ok, checkPath_eq_ok_iff.mpr clean⟩]
    rfl

end

end Eval

end StateScript
