import Mathlib

/-!
Running operations that change a state and may fail. The state that is left counts also after a
failure.
-/

namespace StateScript

section

variable {ε σ α β : Type}

theorem run_get (s : σ) : (get : ExceptT ε (StateM σ) σ).run s = (.ok s, s) := rfl

theorem run_modify (change : σ → σ) (s : σ) :
    (modify change : ExceptT ε (StateM σ) PUnit).run s = (.ok ⟨⟩, change s) := rfl

theorem run_ofExcept (result : Except ε α) (s : σ) :
    (ExceptT.mk (pure result) : ExceptT ε (StateM σ) α).run s = (result, s) := rfl

/-- A second operation runs in the state that the first one leaves, if that succeeds. -/
theorem run_bind (first : ExceptT ε (StateM σ) α) (next : α → ExceptT ε (StateM σ) β) (s : σ) :
    (first >>= next).run s =
      match first.run s with
      | (.ok a, t) => (next a).run t
      | (.error e, t) => (.error e, t) := by
  show (ExceptT.bindCont next (first.run s).1) (first.run s).2 = _
  rcases first.run s with ⟨result, t⟩
  cases result <;> rfl

theorem run_bind_eq_ok {first : ExceptT ε (StateM σ) α} {next : α → ExceptT ε (StateM σ) β} {s t : σ}
    {b : β} :
    (first >>= next).run s = (.ok b, t) ↔
      ∃ a between, first.run s = (.ok a, between) ∧ (next a).run between = (.ok b, t) := by
  rw [run_bind]
  rcases first.run s with ⟨e | a, between⟩
  · constructor
    · intro failed
      cases failed
    · rintro ⟨_, _, failed, _⟩
      cases failed
  · constructor
    · exact fun ran => ⟨a, between, rfl, ran⟩
    · rintro ⟨_, _, same, ran⟩
      cases same
      exact ran

theorem ok_bind (a : α) (next : α → Except ε β) : (Except.ok a >>= next) = next a := rfl

theorem error_bind (e : ε) (next : α → Except ε β) : (Except.error e >>= next) = .error e := rfl

theorem bind_eq_ok {first : Except ε α} {next : α → Except ε β} {b : β} :
    (first >>= next) = .ok b ↔ ∃ a, first = .ok a ∧ next a = .ok b := by
  cases first with
  | error e => simp [error_bind]
  | ok a => simp [ok_bind]

theorem map_eq_ok {first : Except ε α} {f : α → β} {b : β} :
    first.map f = .ok b ↔ ∃ a, first = .ok a ∧ f a = b := by
  cases first <;> simp [Except.map]

/-- Changes the outcome of an operation, not the state that it leaves. -/
def mapOutcome (change : Except ε α → Except ε β) (operation : ExceptT ε (StateM σ) α) :
    ExceptT ε (StateM σ) β := ExceptT.mk fun s => (change (operation.run s).1, (operation.run s).2)

theorem run_mapOutcome_bind {γ : Type} (change : Except ε α → Except ε γ)
    (operation : ExceptT ε (StateM σ) α) (next : γ → ExceptT ε (StateM σ) β) (s : σ) :
    (mapOutcome change operation >>= next).run s =
      match change (operation.run s).1 with
      | .ok c => (next c).run (operation.run s).2
      | .error why => (.error why, (operation.run s).2) := by
  have ran : (mapOutcome change operation).run s = (change (operation.run s).1, (operation.run s).2) := rfl
  rw [run_bind, ran]
  cases change (operation.run s).1 <;> rfl

/-- An operation keeps a property of the state, whether it succeeds or fails. -/
def Keeps (good : σ → Prop) (operation : ExceptT ε (StateM σ) α) : Prop :=
  ∀ s, good s → good (operation.run s).2

variable {good : σ → Prop}

theorem Keeps.pure (a : α) : Keeps good (pure a : ExceptT ε (StateM σ) α) := fun _ holds => holds

theorem Keeps.get : Keeps good (get : ExceptT ε (StateM σ) σ) := fun _ holds => holds

theorem Keeps.throw (e : ε) : Keeps good (throw e : ExceptT ε (StateM σ) α) := fun _ holds => holds

theorem Keeps.bind {first : ExceptT ε (StateM σ) α} {next : α → ExceptT ε (StateM σ) β}
    (keeps : Keeps good first) (rest : ∀ a, Keeps good (next a)) : Keeps good (first >>= next) := by
  intro s holds
  have middle := keeps s holds
  rw [run_bind]
  revert middle
  rcases first.run s with ⟨result, t⟩
  intro middle
  cases result with
  | error e => exact middle
  | ok a => exact rest a t middle

theorem Keeps.then {first : ExceptT ε (StateM σ) α} (keeps : Keeps good first) (b : β) :
    Keeps good (first *> Pure.pure b) := by
  rw [seqRight_eq_bind]
  exact keeps.bind fun _ => Keeps.pure b

end

end StateScript
