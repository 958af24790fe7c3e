import StateScript.Proofs.Gates

/-!
Denied names are out of reach of expressions. What they are bound to makes no difference to an
evaluation, and no reading below a value goes through a denied key. To say so, every reading of an
evaluation is logged.
-/

namespace StateScript

theorem isDenied_of_not_mem {name : String} (letter : 'o' ∉ name.toList) : isDenied name = false := by
  by_contra denied
  have listed : name ∈ deniedNames := by simpa [isDenied] using denied
  simp only [deniedNames, List.mem_cons, List.not_mem_nil, or_false] at listed
  rcases listed with rfl | rfl | rfl <;> exact letter (by decide)

namespace Decimal

theorem not_mem_numeral (n : Nat) : 'o' ∉ numeral n := fun member => by
  have digit := Nat.isDigit_of_mem_toDigits (by decide) (by decide) member
  exact absurd digit (by decide)

theorem not_mem_positional (d : Decimal) : 'o' ∉ d.positional := by
  have digits := not_mem_numeral d.digits
  have fill (n : Nat) : 'o' ∉ zeros n := fun member => by
    have zero := List.eq_of_mem_replicate member
    exact absurd zero (by decide)
  unfold positional
  simp only
  split_ifs with wide inner
  · simp [digits, fill]
  · have front (k : Nat) : 'o' ∉ (numeral d.digits).take k := fun member => digits (List.mem_of_mem_take member)
    have back (k : Nat) : 'o' ∉ (numeral d.digits).drop k := fun member => digits (List.mem_of_mem_drop member)
    simp [front, back]
  · simp [digits, fill]

end Decimal

/-- No number is written with a letter that all denied names have. -/
theorem Json.not_mem_formatNumber (x : Float) : 'o' ∉ (formatNumber x).toList := by
  unfold formatNumber
  split
  · split_ifs <;> decide
  · split
    · rename_i i _
      cases i with
      | ofNat n => simpa [Int.toString_eq_repr, Int.repr, Decimal.numeral] using Decimal.not_mem_numeral n
      | negSucc n =>
        simpa [Int.toString_eq_repr, Int.repr, Decimal.numeral] using Decimal.not_mem_numeral (n + 1)
    · have digits := Decimal.not_mem_positional
      split_ifs <;> simp [digits]

namespace Eval

theorem propertyKey_eq_ok {key : Json} {segment : Segment} (found : propertyKey key = .ok segment) :
    Direct.deniedSegment segment = false := by
  unfold propertyKey at found
  split at found
  · have written (x : Float) := isDenied_of_not_mem (Json.not_mem_formatNumber x)
    simp only at found
    split at found
    · split_ifs at found <;> cases found
      · rfl
      · exact written _
    · cases found
      exact written _
  · obtain ⟨_, clean, same⟩ := bind_eq_ok.mp found
    cases same
    exact checkProperty_eq_ok_iff.mp clean

/-- The reading of a path below a value. -/
structure Reading where
  value : Json
  path : Path

def Reading.isClean (reading : Reading) : Bool := !reading.path.any Direct.deniedSegment

/-- The steps that an evaluation has taken and what it has read, the latest reading last. -/
structure Log where
  steps : Nat
  readings : List Reading

/-- Evaluation that also logs its readings. -/
abbrev LoggedM := ExceptT EvalFault (StateM Log)

section

variable {α β : Type}

/-- An operation that reads nothing below a value. -/
def unlogged (operation : EvalM α) : LoggedM α := ExceptT.mk fun log =>
  ((operation.run log.steps).1, { log with steps := (operation.run log.steps).2 })

/-- Reads below a value and puts that on the log. -/
def projectLogged (value : Json) (path : Path) : LoggedM Json := do
  modify fun log => { log with readings := log.readings ++ [⟨value, path⟩] }
  return project value path

def readPathLogged (resolver : Resolver) (root : String) (path : Path) : LoggedM Json :=
  match resolver.lookup root with
  | some value => projectLogged value path
  | none => return .null

def readStaticLogged (options : EvalOptions) (resolver : Resolver) (root : String) (path : Path) :
    LoggedM Json := do
  unlogged (lift (checkRoot options root))
  unlogged (lift (checkPath path))
  readPathLogged resolver root path

section

variable (options : EvalOptions) (resolver : Resolver)

/-- Evaluation as it is, with every reading logged. -/
def logged : Evaluator LoggedM where
  visit _ := unlogged (tick options)
  static? := Expr.staticPath?
  readStatic _ root path := readStaticLogged options resolver root path
  member _ target property := do
    unlogged (lift (checkProperty property))
    projectLogged target [.key property]
  index _ target key := do
    let segment ← unlogged (lift (propertyKey key))
    projectLogged target [segment]
  field _ name := unlogged (lift (checkProperty name))
  called _ result := unlogged (lift (result.mapError .call))

/-- The value of an expression, with every reading on the way logged. -/
def evaluateLogged (e : Expr) : LoggedM Json := (logged options resolver).evaluate e

end

/-- A logged operation has the result and the steps of a plain one, and the readings that it adds to
the log go through no denied key. -/
def Mirrors (logged : LoggedM α) (plain : EvalM α) : Prop :=
  ∀ log, ∃ added : List Reading, (∀ reading ∈ added, reading.isClean) ∧
    logged.run log = ((plain.run log.steps).1, ⟨(plain.run log.steps).2, log.readings ++ added⟩)

theorem Mirrors.unlogged (operation : EvalM α) : Mirrors (unlogged operation) operation := fun log =>
  ⟨[], by simp, by rw [List.append_nil]; rfl⟩

theorem Mirrors.pure (a : α) : Mirrors (Pure.pure a) (Pure.pure a) := Mirrors.unlogged (Pure.pure a)

theorem Mirrors.throw (fault : EvalFault) : Mirrors (throw fault : LoggedM α) (throw fault) :=
  Mirrors.unlogged (MonadExcept.throw fault)

theorem Mirrors.bind {first : LoggedM α} {first' : EvalM α} {next : α → LoggedM β} {next' : α → EvalM β}
    (starts : Mirrors first first') (continues : ∀ a, Mirrors (next a) (next' a)) :
    Mirrors (first >>= next) (first' >>= next') := by
  intro log
  obtain ⟨added, clean, ran⟩ := starts log
  rw [run_bind, run_bind, ran]
  rcases first'.run log.steps with ⟨fault | a, steps⟩
  · exact ⟨added, clean, rfl⟩
  · obtain ⟨more, alsoClean, ranOn⟩ := continues a ⟨steps, log.readings ++ added⟩
    refine ⟨added ++ more, List.forall_mem_append.mpr ⟨clean, alsoClean⟩, ?_⟩
    rw [← List.append_assoc]
    exact ranOn

/-- What follows a check may rely on its outcome. -/
theorem Mirrors.check {result : Except EvalFault α} {next : α → LoggedM β} {next' : α → EvalM β}
    (continues : ∀ a, result = .ok a → Mirrors (next a) (next' a)) :
    Mirrors (Eval.unlogged (lift result) >>= next) (lift result >>= next') := by
  cases result with
  | error fault => exact Mirrors.throw fault
  | ok a => exact continues a rfl

theorem Mirrors.project (value : Json) {path : Path} (clean : path.any Direct.deniedSegment = false) :
    Mirrors (projectLogged value path) (Pure.pure (Eval.project value path)) := fun log =>
  ⟨[⟨value, path⟩], by rw [List.forall_mem_singleton, Reading.isClean, clean]; rfl, rfl⟩

theorem Mirrors.readPath (resolver : Resolver) (root : String) {path : Path}
    (clean : path.any Direct.deniedSegment = false) :
    Mirrors (readPathLogged resolver root path) (Pure.pure (Eval.readPath resolver root path)) := by
  unfold readPathLogged Eval.readPath
  cases resolver.lookup root with
  | none => exact Mirrors.pure _
  | some value => exact Mirrors.project value clean

theorem Mirrors.readStatic (options : EvalOptions) (resolver : Resolver) (root : String) (path : Path) :
    Mirrors (readStaticLogged options resolver root path) (lift (Eval.readStatic options resolver root path)) := by
  have plain : lift (Eval.readStatic options resolver root path) = (do
      lift (checkRoot options root)
      lift (checkPath path)
      return Eval.readPath resolver root path) := by
    unfold Eval.readStatic
    cases checkRoot options root with
    | error fault => rfl
    | ok => cases checkPath path <;> rfl
  rw [plain]
  exact Mirrors.check fun _ _ => Mirrors.check fun _ clean =>
    Mirrors.readPath resolver root (checkPath_eq_ok_iff.mp clean)

end

theorem logged_related (options : EvalOptions) (resolver : Resolver) :
    (logged options resolver).Related (stepwise options resolver) (fun _ => True) Mirrors where
  operand _ _ := trivial
  pure := Mirrors.pure
  bind := Mirrors.bind
  visit _ := Mirrors.unlogged (tick options)
  static := ⟨rfl, rfl⟩
  readStatic _ _ := Mirrors.readStatic options resolver _ _
  member _ target := Mirrors.check fun _ allowed =>
    Mirrors.project target (by simpa [Direct.deniedSegment] using checkProperty_eq_ok_iff.mp allowed)
  index _ target _ _ := Mirrors.check fun _ found =>
    Mirrors.project target (by simpa using propertyKey_eq_ok found)
  field _ _ := Mirrors.unlogged _
  called _ _ _ := Mirrors.unlogged _

/-- A logged evaluation has the outcome of the plain one, and reads through no denied key. -/
theorem run_logged (options : EvalOptions) (resolver : Resolver) (e : Expr) :
    ∃ readings : List Reading, (∀ reading ∈ readings, reading.isClean) ∧
      (evaluateLogged options resolver e).run ⟨0, []⟩ =
        ((run options resolver e).1, ⟨(run options resolver e).2, readings⟩) :=
  (logged_related options resolver).evaluate e trivial ⟨0, []⟩

/-- The names that an expression must not look up under some options. -/
def isHidden (options : EvalOptions) (name : String) : Bool :=
  isDenied name || !options.allowGlobals && isHostGlobal name

/-- Two resolvers differ at most in hidden names. -/
def SameExcept (hidden : String → Bool) (r₁ r₂ : Resolver) : Prop :=
  ∀ n, hidden n = false → r₁.lookup n = r₂.lookup n

theorem checkRoot_eq_ok_iff_isHidden {options : EvalOptions} {name : String} :
    checkRoot options name = .ok () ↔ isHidden options name = false := by
  rw [checkRoot_eq_ok_iff, isHidden]
  cases isDenied name <;> cases options.allowGlobals <;> simp

theorem SameExcept.run {options : EvalOptions} {r₁ r₂ : Resolver} (same : SameExcept (isHidden options) r₁ r₂)
    (e : Expr) : run options r₁ e = run options r₂ e := by
  have behind : SameBehindGate options r₁ r₂ e.lookups := fun n _ gate =>
    same n (checkRoot_eq_ok_iff_isHidden.mp gate)
  simp only [Eval.run, evaluate_congr (.refl options) e behind]

theorem SameExcept.call {e : Expr} {direct : Direct} {r₁ r₂ : Resolver}
    (same : SameExcept (fun n => isDenied n || isHostGlobal n) r₁ r₂)
    (simple : Direct.ofExpr? e = some direct) : direct.call r₁ = direct.call r₂ := by
  cases direct with
  | constant value => rfl
  | path root path =>
    obtain ⟨_, local', allowed, _⟩ := Direct.path_of_ofExpr? simple
    exact readPath_congr path (same root (by simp [allowed, local']))

/-- Whatever hidden names are bound to, an expression has the same outcome after as many steps, and its
direct form the same value, which host globals do not change under any options. Neither the evaluation
nor the direct form reads through a denied key. -/
theorem hidden_names_unobservable (options : EvalOptions) (e : Expr) :
    (∀ r₁ r₂, SameExcept (isHidden options) r₁ r₂ → run options r₁ e = run options r₂ e) ∧
      (∀ direct, Direct.ofExpr? e = some direct →
        ∀ r₁ r₂, SameExcept (fun n => isDenied n || isHostGlobal n) r₁ r₂ → direct.call r₁ = direct.call r₂) ∧
      (∀ resolver, ∃ readings : List Reading, (∀ reading ∈ readings, reading.isClean) ∧
        (evaluateLogged options resolver e).run ⟨0, []⟩ =
          ((run options resolver e).1, ⟨(run options resolver e).2, readings⟩)) ∧
      (∀ root path, Direct.ofExpr? e = some (.path root path) → path.any Direct.deniedSegment = false) := by
  refine ⟨?_, ?_, ?_, ?_⟩
  · intro r₁ r₂ same
    exact same.run e
  · intro direct simple r₁ r₂ same
    exact same.call simple
  · intro resolver
    exact run_logged options resolver e
  · intro root path simple
    obtain ⟨_, _, _, clean⟩ := Direct.path_of_ofExpr? simple
    exact clean

/-- A host global that only one of two resolvers binds is refused under both alike, and an ordinary name
beside it is read alike. -/
theorem hidden_names_unobservable_at_global :
    let bound : Resolver := { lookup := fun _ => some (.bool true) }
    let unbound : Resolver := { lookup := fun n => if isHidden {} n then none else some (.bool true) }
    let span : Span := ⟨.origin, 1⟩
    SameExcept (isHidden {}) bound unbound ∧
      run {} bound (.binary .add (.name "a" span) (.name "window" span) span) =
        run {} unbound (.binary .add (.name "a" span) (.name "window" span) span) ∧
      Direct.ofExpr? (.name "a" span) = some (.path "a" []) ∧
      (Direct.path "a" []).call bound = (Direct.path "a" []).call unbound := by
  intro bound unbound span
  have same : SameExcept (isHidden {}) bound unbound := fun n visible => by simp [bound, unbound, visible]
  have simple : Direct.ofExpr? (.name "a" span) = some (.path "a" []) := rfl
  obtain ⟨interpreted, _⟩ :=
    hidden_names_unobservable {} (.binary .add (.name "a" span) (.name "window" span) span)
  obtain ⟨_, direct, _⟩ := hidden_names_unobservable {} (.name "a" span)
  refine ⟨same, interpreted bound unbound same, simple, direct _ simple bound unbound ?_⟩
  intro n visible
  exact same n (by simpa [isHidden] using visible)

end Eval

end StateScript
