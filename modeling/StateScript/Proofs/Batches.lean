import StateScript.Proofs.LaterTimers
import StateScript.Proofs.StepBudgets

/-!
Batches. Unless its time or its steps are used up, a batch does what its actions do when each of them is
executed alone, one after the other and whether or not the ones before it have failed; and it reports which of
them have failed, and how.
-/

namespace StateScript

namespace ActionFields

theorem raw_of_step {f : ActionFields} {raw : Json} {step : Step} (read : f.step raw = .ok step) :
    step.raw = raw := by
  have through {α : Type} {first : Except ActionFault α} {next : α → Except ActionFault Step}
      (all : ∀ a, next a = .ok step → step.raw = raw) (read : (first >>= next) = .ok step) : step.raw = raw := by
    obtain ⟨a, _, made⟩ := bind_eq_ok.mp read
    exact all a made
  unfold ActionFields.step at read
  split at read
  all_goals
    revert read
    repeat refine through fun _ => ?_
    rintro ⟨⟩
    rfl

end ActionFields

namespace Step

/-- A raw action of the kind of a batch is one of the actions that it lists. -/
theorem ofJson_batch {ms : Members} {raws : List Json} (kind : Members.find? "type" ms = some (.string "batch"))
    (listed : Members.find? "actions" ms = some (.array raws)) :
    ofJson (.object ms) = .batch (.object ms) (ofItems raws) := by
  have lists : (listsOf ms).lookup "actions" = some (ofItems raws) := by
    clear kind
    induction ms with
    | nil => cases listed
    | cons member rest ih =>
      obtain ⟨key, v⟩ := member
      rw [Members.find?] at listed
      by_cases here : key = "actions"
      · rw [if_pos here, Option.some.injEq] at listed
        subst here listed
        simp [listsOf]
      · rw [if_neg here] at listed
        have different : ("actions" == key) = false := beq_false_of_ne (Ne.symm here)
        cases v <;> simp [listsOf, List.lookup_cons, different, ih listed]
  have read : ofMembers ms (listsOf ms) = .ok (.batch (.object ms) (ofItems raws)) := by
    have list : ActionFields.list ⟨"batch", ms, listsOf ms⟩ "actions" = .ok (ofItems raws) := by
      simp [ActionFields.list, ActionFields.optionalList, ActionFields.optional?, listed, lists]
      rfl
    simp only [ofMembers, kind, ActionFields.step, list]
    rfl
  simp only [ofJson, read]

/-- A step keeps the action that it is read from. -/
theorem raw_ofJson (raw : Json) : (ofJson raw).raw = raw := by
  cases raw with
  | object ms =>
    simp only [ofJson]
    split
    · next step read =>
      unfold ofMembers at read
      split at read
      · exact ActionFields.raw_of_step read
      · cases read
      · cases read
    · rfl
  | _ => rfl

theorem raw_mem_of_mem_ofItems {actions : List Json} {step : Step} (member : step ∈ ofItems actions) :
    step.raw ∈ actions := by
  induction actions with
  | nil => cases member
  | cons raw rest ih =>
    rcases List.mem_cons.mp member with rfl | later
    · rw [raw_ofJson]
      exact List.mem_cons_self
    · exact List.mem_cons_of_mem _ (ih later)

end Step

namespace Execute

/-- What actions come to that are executed one after the other, each of them alone, and the world that they
leave. The failure of one ends none of the others. -/
def eachAlone (id : ScopeId) (limits : ExecuteLimits) : List Json → World → List (Except Error Unit) × World
  | [], w => ([], w)
  | raw :: rest, w =>
    let (outcome, left) := execute id [raw] limits w
    let (others, after) := eachAlone id limits rest left
    (outcome :: others, after)

theorem length_eachAlone (id : ScopeId) (limits : ExecuteLimits) (raws : List Json) (w : World) :
    (eachAlone id limits raws w).1.length = raws.length := by
  induction raws generalizing w with
  | nil => rfl
  | cons raw rest ih => exact congrArg (· + 1) (ih (execute id [raw] limits w).2)

/-- The failures among the outcomes of actions, in order, each with its position from some start, its action
and its error. -/
structure ListsFailures (start : Nat) (raws : List Json) (outcomes : List (Except Error Unit))
    (failed : List (Nat × Json × Error)) : Prop where
  increasing : failed.Pairwise fun a b => a.1 < b.1
  exactly : ∀ n raw e, (n, raw, e) ∈ failed ↔
    ∃ i, n = start + i ∧ raws[i]? = some raw ∧ outcomes[i]? = some (.error e)

namespace ListsFailures

theorem nil (start : Nat) : ListsFailures start [] [] [] := ⟨.nil, by simp⟩

variable {start : Nat} {raws : List Json} {outcomes : List (Except Error Unit)} {failed : List (Nat × Json × Error)}
  (others : ListsFailures (start + 1) raws outcomes failed) (raw : Json)

include others

theorem later {n : Nat} {sub : Json} {e : Error} (member : (n, sub, e) ∈ failed) : start < n := by
  obtain ⟨i, rfl, _⟩ := (others.exactly n sub e).mp member
  omega

theorem succeeded : ListsFailures start (raw :: raws) (.ok () :: outcomes) failed where
  increasing := others.increasing
  exactly n sub e := by
    rw [others.exactly]
    constructor
    · rintro ⟨i, rfl, here, failing⟩
      exact ⟨i + 1, by omega, here, failing⟩
    · rintro ⟨i, rfl, here, failing⟩
      cases i with
      | zero => cases failing
      | succ i => exact ⟨i, by omega, here, failing⟩

theorem error (e : Error) : ListsFailures start (raw :: raws) (.error e :: outcomes) ((start, raw, e) :: failed) where
  increasing := List.pairwise_cons.mpr ⟨fun entry member => others.later member, others.increasing⟩
  exactly n sub why := by
    rw [List.mem_cons, others.exactly]
    constructor
    · rintro (same | ⟨i, rfl, here, failing⟩)
      · cases same
        exact ⟨0, rfl, rfl, rfl⟩
      · exact ⟨i + 1, by omega, here, failing⟩
    · rintro ⟨i, rfl, here, failing⟩
      cases i with
      | zero =>
        cases here
        cases failing
        exact Or.inl rfl
      | succ i => exact Or.inr ⟨i, by omega, here, failing⟩

end ListsFailures

theorem run_runAll_singleton (reenter : Reenter) (budget : Budget) (id : ScopeId) (step : Step) (m : Machine) :
    ((runner reenter budget).runAll id [step]).run m = ((runner reenter budget).runStep id step).run m := by
  have unfolded : (runner reenter budget).runAll id [step] =
      (runner reenter budget).runStep id step >>= fun _ => pure () := rfl
  rw [unfolded, run_bind]
  rcases ((runner reenter budget).runStep id step).run m with ⟨_ | _, _⟩ <;> rfl

/-- An action that is executed alone is one step of a run with a timer of its own. -/
theorem execute_singleton (id : ScopeId) (raw : Json) (limits : ExecuteLimits) (w : World) :
    execute id [raw] limits w =
      let budget : Budget := ⟨w.clock, limits, some (w.clock + limits.timeoutMs)⟩
      let ran := ((runner (runWithin (maxRunDepth - 1) budget.deadline) budget).runStep id (Step.ofJson raw)).run ⟨w, 0⟩
      (settled limits ran.1, ran.2.world) := by
  have single : Step.ofItems [raw] = [Step.ofJson raw] := rfl
  rw [execute_of_nonempty (by simp), single]
  simp only [run_runAll_singleton]

section

theorem isBudgetError_timeoutError (limits : ExecuteLimits) : isBudgetError (timeoutError limits) = true := by
  simp [isBudgetError, timeoutError]

theorem isBudgetError_maxStepsError (limits : ExecuteLimits) : isBudgetError (maxStepsError limits) = true := by
  simp [isBudgetError, maxStepsError]

variable (budget other : Budget)

/-- A run that has begun later and has fewer steps behind it can count one more step as long as another one. -/
theorem outlasts_tick (same : other.limits = budget.limits) (begun : budget.started ≤ other.started) :
    Outlasts Exhausted (fun steps fewer => fewer ≤ steps) (tick budget) (tick other) := by
  intro w steps fewer less
  rw [run_tick, run_tick, same]
  dsimp only
  by_cases overdue : budget.limits.timeoutMs ≤ w.clock - budget.started
  · exact Or.inl ⟨.error _, isBudgetError_timeoutError budget.limits, congrArg Prod.fst (if_pos overdue)⟩
  rw [if_neg overdue]
  by_cases full : budget.limits.maxSteps ≤ steps
  · exact Or.inl ⟨.error _, isBudgetError_maxStepsError budget.limits, congrArg Prod.fst (if_pos full)⟩
  rw [if_neg full, if_neg (by omega), if_neg (by omega)]
  exact Or.inr ⟨_, _, _, _, rfl, rfl, Nat.succ_le_succ less⟩

theorem outlasts_step (same : other.limits = budget.limits) (begun : budget.started ≤ other.started)
    {soon late : Nat} (ends : budget.deadline = some soon) (ends' : other.deadline = some late) (later : soon ≤ late)
    (depth : Nat) (id : ScopeId) (step : Step) : Outlasts Exhausted (fun steps fewer => fewer ≤ steps)
      ((runner (runWithin depth budget.deadline) budget).runStep id step)
      ((runner (runWithin depth other.deadline) other).runStep id step) := by
  refine (outlasts_runner exhausted_passes (outlasts_tick budget other same begun) fun id raw action => ?_).runStep
    (i := ()) trivial step fun _ _ => trivial
  rw [ends, ends']
  refine (outlasts_perform (outlasts_runWithin depth later _) ends ends' later id raw action).mono ?_
  rintro _ rfl
  trivial

end

/-- The timer of a run that is under way is not later than the one of a run that would begin in a world. -/
structure Underway (budget : Budget) (w : World) : Prop where
  started : budget.started ≤ w.clock
  deadline : ∃ soon, budget.deadline = some soon ∧ soon ≤ w.clock + budget.limits.timeoutMs

section

variable {budget : Budget} {w after : World} (underway : Underway budget w)

include underway

theorem Underway.onward (onward : w.Onward after) : Underway budget after := by
  obtain ⟨started, soon, ends, within⟩ := underway
  exact ⟨Nat.le_trans started onward.clock, soon, ends,
    Nat.le_trans within (Nat.add_le_add_right onward.clock _)⟩

/-- A step of a run under way is spent, or comes to what its action comes to alone. -/
theorem run_step_alone (steps : Nat) (id : ScopeId) (raw : Json) :
    let run := ((runner (runWithin (maxRunDepth - 1) budget.deadline) budget).runStep id (Step.ofJson raw)).run
      ⟨w, steps⟩
    let alone := execute id [raw] budget.limits w
    (∃ why, Exhausted why ∧ run.1 = .error why) ∨
      ∃ steps', run = (alone.1.mapError .error, ⟨alone.2, steps'⟩) := by
  intro run alone
  obtain ⟨started, soon, ends, within⟩ := underway
  let own : Budget := ⟨w.clock, budget.limits, some (w.clock + budget.limits.timeoutMs)⟩
  have outlasts := outlasts_step budget own rfl started ends rfl within (maxRunDepth - 1) id (Step.ofJson raw)
  rcases outlasts w steps 0 (Nat.zero_le steps) with spent | ⟨outcome, left, s, _, ran, ran', _⟩
  · exact Or.inl spent
  have settles : alone = (settled budget.limits outcome, left) := by
    have whole := execute_singleton id raw budget.limits w
    dsimp only at whole
    rw [ran'] at whole
    exact whole
  rcases outcome with (e | _) | ⟨⟩
  · exact Or.inr ⟨s, ran.trans (by rw [settles]; rfl)⟩
  · exact Or.inl ⟨.dropped, trivial, congrArg Prod.fst ran⟩
  · exact Or.inr ⟨s, ran.trans (by rw [settles]; rfl)⟩

end

/-- The actions of a batch under way are spent, or come to what each of them comes to alone. -/
theorem run_each_alone {budget : Budget} (id : ScopeId) (raws : List Json) {w : World}
    (underway : Underway budget w) (steps index : Nat) :
    let run := ((runner (runWithin (maxRunDepth - 1) budget.deadline) budget).runEach id index
      (Step.ofItems raws)).run ⟨w, steps⟩
    let alone := eachAlone id budget.limits raws w
    (∃ why, Exhausted why ∧ run.1 = .error why) ∨
      ∃ failed steps', run = (.ok failed, ⟨alone.2, steps'⟩) ∧ ListsFailures index raws alone.1 failed := by
  induction raws generalizing w steps index with
  | nil => exact Or.inr ⟨[], steps, rfl, .nil index⟩
  | cons raw rest ih =>
    have onward := execute_onward id [raw] budget.limits w
    have items : Step.ofItems (raw :: rest) = Step.ofJson raw :: Step.ofItems rest := rfl
    have alone : eachAlone id budget.limits (raw :: rest) w =
        let first := execute id [raw] budget.limits w
        let others := eachAlone id budget.limits rest first.2
        (first.1 :: others.1, others.2) := rfl
    rw [items, Runner.runEach, collect_eq, alone]
    dsimp only
    rw [run_mapOutcome_bind]
    rcases run_step_alone underway steps id raw with ⟨why, spent, failed⟩ | ⟨s, ran⟩
    · rw [failed]
      cases why with
      | dropped => exact Or.inl ⟨.dropped, spent, rfl⟩
      | error e =>
        have budgetError : isBudgetError e = true := spent
        simp only [caught, if_pos budgetError]
        exact Or.inl ⟨.error e, spent, rfl⟩
    · rw [ran]
      revert onward
      rcases execute id [raw] budget.limits w with ⟨e | ⟨⟩, left⟩
      · intro onward
        simp only [Except.mapError, caught]
        rw [Step.raw_ofJson]
        by_cases budgetError : isBudgetError e = true
        · simp only [if_pos budgetError]
          exact Or.inl ⟨.error e, budgetError, rfl⟩
        · simp only [if_neg budgetError]
          rw [run_bind]
          rcases ih (underway.onward onward) s (index + 1) with ⟨why, spent, failed⟩ | ⟨failed, t, ran, lists⟩
          · refine Or.inl ⟨why, spent, ?_⟩
            revert failed
            rcases ((runner _ _).runEach _ _ _).run _ with ⟨_ | _, _⟩
            · exact fun failed => failed
            · intro failed
              cases failed
          · rw [ran]
            exact Or.inr ⟨_, t, rfl, lists.error raw e⟩
      · intro onward
        simp only [Except.mapError, caught]
        rcases ih (underway.onward onward) s (index + 1) with spent | ⟨failed, t, ran, lists⟩
        · exact Or.inl spent
        · exact Or.inr ⟨failed, t, ran, lists.succeeded raw⟩

theorem length_ofItems (raws : List Json) : (Step.ofItems raws).length = raws.length := by
  induction raws with
  | nil => rfl
  | cons raw rest ih => exact congrArg (· + 1) ih

/-- Executing a batch comes down to its actions, unless its time or its steps are used up. -/
theorem execute_batch_eq {id : ScopeId} {raw : Json} {raws : List Json} {limits : ExecuteLimits} {w : World}
    (asks : Step.ofJson raw = .batch raw (Step.ofItems raws))
    (unspent : ∀ e, (execute id [raw] limits w).1 = .error e → isBudgetError e = false) :
    let alone := eachAlone id limits raws w
    ∃ failed, ListsFailures 0 raws alone.1 failed ∧ execute id [raw] limits w =
      (if failed.isEmpty then .ok () else .error ((Error.ofFailures failed raws.length).withAction raw), alone.2) := by
  intro alone
  have whole := execute_singleton id raw limits w
  let budget : Budget := ⟨w.clock, limits, some (w.clock + limits.timeoutMs)⟩
  have ended {e : Error} (failing : (execute id [raw] limits w).1 = .error e) : ¬ isBudgetError e = true := by
    rw [unspent e failing]
    exact Bool.false_ne_true
  dsimp only at whole
  rw [asks, Runner.runStep, run_step] at whole
  by_cases overdue : limits.timeoutMs ≤ w.clock - w.clock
  · rw [if_pos overdue] at whole
    refine absurd ?_ (ended (congrArg Prod.fst whole))
    rw [isBudgetError_withAction, isBudgetError_timeoutError]
  rw [if_neg overdue] at whole
  by_cases full : limits.maxSteps ≤ 0
  · rw [if_pos full] at whole
    refine absurd ?_ (ended (congrArg Prod.fst whole))
    rw [isBudgetError_withAction, isBudgetError_maxStepsError]
  rw [if_neg full, withAction_eq] at whole
  have underway : Underway budget w := ⟨Nat.le_refl _, _, rfl, Nat.le_refl _⟩
  have named (run : ExecuteM Unit) (m : Machine) : (mapOutcome (attributed raw) run).run m =
      (attributed raw (run.run m).1, (run.run m).2) := rfl
  have ends (failed : List (Nat × Json × Error)) (total : Nat) : (runner (runWithin (maxRunDepth - 1) budget.deadline)
    budget).gather failed total = batchOutcome failed total := rfl
  rw [named, run_bind] at whole
  rcases run_each_alone id raws underway (0 + 1) 0 with ⟨why, spent, failed⟩ | ⟨failed, s, each, lists⟩
  · rcases each : ((runner (runWithin (maxRunDepth - 1) budget.deadline) budget).runEach id 0
      (Step.ofItems raws)).run ⟨w, 0 + 1⟩ with ⟨_ | _, after⟩ <;> rw [each] at failed whole <;> cases failed
    cases why with
    | dropped => exact absurd (isBudgetError_timeoutError limits) (ended (congrArg Prod.fst whole))
    | error e => exact absurd ((isBudgetError_withAction raw e).trans spent) (ended (congrArg Prod.fst whole))
  · refine ⟨failed, lists, ?_⟩
    rw [each] at whole
    dsimp only at whole
    rw [whole, length_ofItems, ends, batchOutcome]
    cases failed <;> rfl

/-- Takes the last item off a list that is not there, sets a value, and loops over a list that fails as the first. -/
def mixedActions : List Json :=
  let pop : Json := .object [("path", .string "missing"), ("type", .string "pop")]
  let set : Json := .object [("path", .string "a"), ("type", .string "set"), ("value", .bool true)]
  let loop : Json := .object [("body", .array [set, pop]), ("in", .array [.null, .null]), ("type", .string "loop"),
    ("var", .string "item")]
  [pop, set, loop]

def mixedBatch : Json := .object [("actions", .array mixedActions), ("type", .string "batch")]

/-- The positions of the failures that an outcome lists. -/
def failedPositions : Except Error Unit → List Nat
  | .error (.batch _ failed _) => failed.map Prod.fst
  | _ => []

end Execute

end StateScript
