import StateScript.Proofs.OnwardRuns
import StateScript.Proofs.StackedRuns

/-!
Stacked runs that do the same as plain ones. They pass through the same worlds and end in the same way; what is left
open is how the errors of the one and the failures of the other go together, and the values that they come to.
-/

namespace StateScript.Execute

section

variable {α β γ δ : Type}

/-- The outcomes of a plain run and of a stacked one match: both succeed with values that fit, or both fail with
an error and a failure that agree, or both are dropped. -/
inductive Matches (agree : Error → Failure → Prop) (fit : α → β → Prop) :
    Except Interrupt α → Except Stop β → Prop
  | ok {a : α} {b : β} (fits : fit a b) : Matches agree fit (.ok a) (.ok b)
  | failed {e : Error} {failure : Failure} (agrees : agree e failure) :
      Matches agree fit (.error (.error e)) (.error (.failed failure))
  | dropped : Matches agree fit (.error .dropped) (.error .dropped)

/-- In the worlds that come later than some world, a stacked run below the actions under way does the same as a
plain one. -/
def Mirrors (before : World) (underWay : List Json) (agree : Error → Failure → Prop) (fit : α → β → Prop)
    (plain : ExecuteM α) (stacked : StackM β) : Prop :=
  ∀ m, before.Onward m.world → ∃ outcome outcome' after, plain.run m = (outcome, after) ∧
    (stacked.run underWay).run m = (outcome', after) ∧ before.Onward after.world ∧ Matches agree fit outcome outcome'

variable {before : World} {underWay : List Json} {agree agree' : Error → Failure → Prop} {fit : α → β → Prop}
  {fit' : γ → δ → Prop}

namespace Mirrors

theorem pure {a : α} {b : β} (fits : fit a b) : Mirrors before underWay agree fit (pure a) (pure b) :=
  fun m onward => ⟨_, _, m, rfl, rfl, onward, .ok fits⟩

theorem fail {e : Error} {failure : Failure} (agrees : agree e failure) :
    Mirrors before underWay agree fit (Execute.fail e) (Stacked.fail failure) :=
  fun m onward => ⟨_, _, m, rfl, rfl, onward, .failed agrees⟩

/-- A failure that keeps which actions are under way. -/
theorem fail_below {e : Error} {failure : List Json → Failure} (agrees : agree e (failure underWay)) :
    Mirrors before underWay agree fit (Execute.fail e) (do Stacked.fail (failure (← read))) :=
  fun m onward => ⟨_, _, m, rfl, rfl, onward, .failed agrees⟩

theorem reading {f : World → α} {next : α → ExecuteM γ} {next' : α → StackM δ}
    (continues : ∀ w, before.Onward w → Mirrors before underWay agree fit' (next (f w)) (next' (f w))) :
    Mirrors before underWay agree fit' ((do return f (← get).world) >>= next)
      ((Stacked.during do return f (← get).world) >>= next') :=
  fun m onward => continues m.world onward m onward

theorem mono {plain : ExecuteM α} {stacked : StackM β} (mirrors : Mirrors before underWay agree fit plain stacked)
    (weaker : ∀ e failure, agree e failure → agree' e failure) : Mirrors before underWay agree' fit plain stacked := by
  intro m onward
  obtain ⟨outcome, outcome', after, ran, ran', later, same⟩ := mirrors m onward
  refine ⟨outcome, outcome', after, ran, ran', later, ?_⟩
  cases same with
  | ok fits => exact .ok fits
  | failed agrees => exact .failed (weaker _ _ agrees)
  | dropped => exact .dropped

theorem bind {first : ExecuteM α} {first' : StackM β} {next : α → ExecuteM γ} {next' : β → StackM δ}
    (starts : Mirrors before underWay agree fit first first')
    (continues : ∀ a b, fit a b → Mirrors before underWay agree fit' (next a) (next' b)) :
    Mirrors before underWay agree fit' (first >>= next) (first' >>= next') := by
  intro m onward
  obtain ⟨outcome, outcome', between, ran, ran', later, same⟩ := starts m onward
  rw [ReaderT.run_bind, run_bind, run_bind, ran, ran']
  cases same with
  | ok fits => exact continues _ _ fits between later
  | failed agrees => exact ⟨_, _, between, rfl, rfl, later, .failed agrees⟩
  | dropped => exact ⟨_, _, between, rfl, rfl, later, .dropped⟩

theorem map {plain : ExecuteM α} {stacked : StackM β} {fit' : α → δ → Prop}
    (mirrors : Mirrors before underWay agree fit plain stacked) {f : β → δ} (fits : ∀ a b, fit a b → fit' a (f b)) :
    Mirrors before underWay agree fit' plain (do return f (← stacked)) := by
  rw [← bind_pure plain]
  exact mirrors.bind fun a b fitting => .pure (fits a b fitting)

theorem ite (condition : Prop) [Decidable condition] {yes no : ExecuteM α} {yes' no' : StackM β}
    (holds : Mirrors before underWay agree fit yes yes') (otherwise : Mirrors before underWay agree fit no no') :
    Mirrors before underWay agree fit (if condition then yes else no) (if condition then yes' else no') := by
  split
  · exact holds
  · exact otherwise

theorem attempt_bind {plain : ExecuteM α} {stacked : StackM β} {next : Except Error α → ExecuteM γ}
    {next' : Except Failure β → StackM δ} (inside : Mirrors before underWay agree fit plain stacked)
    (succeeds : ∀ a b, fit a b → Mirrors before underWay agree' fit' (next (.ok a)) (next' (.ok b)))
    (fails : ∀ e failure, agree e failure →
      Mirrors before underWay agree' fit' (next (.error e)) (next' (.error failure))) :
    Mirrors before underWay agree' fit' (attempt plain >>= next) (Stacked.attempt stacked >>= next') := by
  intro m onward
  obtain ⟨outcome, outcome', between, ran, ran', later, same⟩ := inside m onward
  rw [ReaderT.run_bind, run_bind, run_bind]
  unfold attempt Stacked.attempt
  simp only [ReaderT.run_mk, ExceptT.run_mk, ran, ran']
  cases same with
  | ok fits => exact succeeds _ _ fits between later
  | failed agrees => exact fails _ _ agrees between later
  | dropped => exact ⟨_, _, between, rfl, rfl, later, .dropped⟩

end Mirrors

end

section

variable {before : World} {underWay : List Json} {agree : Error → Failure → Prop}

section

variable (reenter : Reenter) (stacked : Stacked.Reenter) (budget : Budget) (id : ScopeId) (var indexVar : String)

theorem mirrors_iterate (item index : Json) {body : ScopeId → ExecuteM Unit} {body' : ScopeId → StackM Unit}
    (inside : ∀ scope, Mirrors before underWay agree Eq (body scope) (body' scope)) :
    Mirrors before underWay agree Eq ((runner reenter budget).iterate id var indexVar item index body)
      ((Stacked.runner stacked budget).iterate id var indexVar item index body') := by
  have makes : Mirrors before underWay agree Eq (makeLoop id var indexVar item index)
      (Stacked.during (makeLoop id var indexVar item index)) :=
    fun m onward => ⟨_, _, _, rfl, rfl, onward.addLoop id var indexVar item index, .ok rfl⟩
  have releases (scope : ScopeId) : Mirrors before underWay agree Eq (modifyWorld (World.release scope []))
      (Stacked.during (modifyWorld (World.release scope []))) :=
    fun m onward => ⟨_, _, _, rfl, rfl, onward.release scope [], .ok rfl⟩
  refine makes.bind ?_
  rintro scope _ rfl
  refine (inside scope).attempt_bind ?_ fun e failure agrees => ?_
  · exact fun _ _ _ => (releases scope).bind fun _ _ _ => .pure rfl
  · exact (releases scope).bind fun _ _ _ => .fail agrees

theorem mirrors_each {body : ScopeId → ExecuteM Unit} {body' : ScopeId → StackM Unit}
    (inside : ∀ scope, Mirrors before underWay agree Eq (body scope) (body' scope)) (entries : List (Json × Json)) :
    Mirrors before underWay agree Eq ((runner reenter budget).each id var indexVar body entries)
      ((Stacked.runner stacked budget).each id var indexVar body' entries) := by
  induction entries with
  | nil => exact .pure rfl
  | cons entry rest ih =>
    obtain ⟨item, index⟩ := entry
    exact (mirrors_iterate reenter stacked budget id var indexVar item index inside).bind fun _ _ _ => ih

end

theorem mirrors_timed {limits : ExecuteLimits} {outer : Option Nat} {run : Budget → ExecuteM Unit}
    {run' : Budget → StackM Unit} (late : agree (timeoutError limits) (.late limits))
    (inside : ∀ budget, Mirrors before underWay agree Eq (run budget) (run' budget)) :
    Mirrors before underWay agree Eq (timed limits outer run) (Stacked.timed limits outer run') := by
  intro m onward
  let own := m.world.clock + limits.timeoutMs
  let deadline := outer.elim own (min own)
  obtain ⟨outcome, outcome', after, ran, ran', later, same⟩ :=
    inside ⟨m.world.clock, limits, some deadline⟩ { m with steps := 0 } onward
  unfold timed Stacked.timed
  simp only [ReaderT.run_mk, ExceptT.run_mk]
  rw [ran, ran']
  cases same with
  | ok fits => exact ⟨_, _, _, rfl, rfl, later, .ok fits⟩
  | failed agrees => exact ⟨_, _, _, rfl, rfl, later, .failed agrees⟩
  | dropped =>
    by_cases mine : deadline = own
    · exact ⟨_, _, _, if_pos mine, if_pos mine, later, .failed late⟩
    · exact ⟨_, _, _, if_neg mine, if_neg mine, later, .dropped⟩

end

end StateScript.Execute
