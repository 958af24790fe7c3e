import StateScript.Proofs.Runs
import StateScript.Proofs.WrittenSources
import StateScript.World.Edit

/-!
Operations that begin in related states. They agree if they come to the same and leave related states.
-/

namespace StateScript

section

variable {ε σ α β : Type} {related : σ → σ → Prop}

/-- Two operations that begin in related states come to the same and leave related states. -/
def Agree (related : σ → σ → Prop) (first second : ExceptT ε (StateM σ) α) : Prop :=
  ∀ ⦃s s'⦄, related s s' → (first.run s).1 = (second.run s').1 ∧ related (first.run s).2 (second.run s').2

/-- An operation comes to the same in related states and leaves related states. -/
abbrev Respects (related : σ → σ → Prop) (operation : ExceptT ε (StateM σ) α) : Prop :=
  Agree related operation operation

namespace Agree

theorem pure (a : α) : Agree related (Pure.pure a : ExceptT ε (StateM σ) α) (Pure.pure a) :=
  fun _ _ start => ⟨rfl, start⟩

theorem throw (e : ε) : Agree related (throw e : ExceptT ε (StateM σ) α) (MonadExcept.throw e) :=
  fun _ _ start => ⟨rfl, start⟩

theorem ofExcept (result : Except ε α) :
    Agree related (ExceptT.mk (Pure.pure result) : ExceptT ε (StateM σ) α) (ExceptT.mk (Pure.pure result)) :=
  fun _ _ start => ⟨rfl, start⟩

theorem modify {change change' : σ → σ} (each : ∀ s s', related s s' → related (change s) (change' s')) :
    Agree related (modify change : ExceptT ε (StateM σ) PUnit) (modify change') :=
  fun s s' start => ⟨rfl, each s s' start⟩

theorem bind {first second : ExceptT ε (StateM σ) α} {next next' : α → ExceptT ε (StateM σ) β}
    (starts : Agree related first second) (continues : ∀ a, Agree related (next a) (next' a)) :
    Agree related (first >>= next) (second >>= next') := by
  intro s s' start
  obtain ⟨same, left⟩ := starts start
  rw [run_bind, run_bind]
  rcases known : first.run s with ⟨e | a, t⟩ <;> rcases known' : second.run s' with ⟨e' | a', t'⟩ <;>
    rw [known, known'] at same left <;> cases same
  · exact ⟨rfl, left⟩
  · exact continues a left

/-- What is read of the state may differ, as long as the operations that follow agree. -/
theorem get_bind {next next' : σ → ExceptT ε (StateM σ) α}
    (continues : ∀ s s', related s s' → Agree related (next s) (next' s')) :
    Agree related (get >>= next) (get >>= next') := by
  intro s s' start
  rw [run_bind, run_bind, run_get, run_get]
  exact continues s s' start start

theorem map {first second : ExceptT ε (StateM σ) α} (starts : Agree related first second) (f : α → β) :
    Agree related (f <$> first) (f <$> second) := by
  rw [← bind_pure_comp, ← bind_pure_comp]
  exact starts.bind fun a => pure (f a)

theorem «then» {first second : ExceptT ε (StateM σ) α} (starts : Agree related first second) (b : β) :
    Agree related (first *> Pure.pure b) (second *> Pure.pure b) := by
  rw [seqRight_eq_bind, seqRight_eq_bind]
  exact starts.bind fun _ => pure b

theorem ite (condition : Prop) [Decidable condition] {yes yes' no no' : ExceptT ε (StateM σ) α}
    (holds : Agree related yes yes') (fails : Agree related no no') :
    Agree related (if condition then yes else no) (if condition then yes' else no') := by
  split
  · exact holds
  · exact fails

end Agree

end

namespace World

/-- Evaluations of allowed sources in any scope respect a relation of worlds. -/
structure RespectedByEvaluation (related : World → World → Prop) (allowed : String → Prop) : Prop where
  evaluate : ∀ id {source}, allowed (Template.stripMarkers source) → Respects related (evaluate id source)
  interpolate : ∀ id {template}, (∀ source ∈ Template.expressions template.toList, allowed source) →
    Respects related (interpolate id template)
  resolveValue : ∀ id {v : Json}, v.Within allowed → Respects related (resolveValue id v)

namespace RespectedByEvaluation

variable {related : World → World → Prop} {allowed : String → Prop}
  (respected : RespectedByEvaluation related allowed) (id : ScopeId)

include respected

theorem param {v : Json} (within : v.Within allowed) : Respects related (evaluateParam id v) := by
  cases v with
  | string template => exact respected.interpolate id (within template (List.mem_singleton.mpr rfl))
  | _ => exact Agree.pure _

theorem members {ms : Members} (within : (Json.object ms).Within allowed) :
    Respects related (evaluateMembers id ms) := by
  induction ms with
  | nil => exact Agree.pure _
  | cons member rest ih =>
    obtain ⟨key, v⟩ := member
    have first := respected.param id fun text inside => within text (List.mem_append_left _ inside)
    have others := ih fun text inside => within text (List.mem_append_right _ inside)
    exact first.bind fun _ => others.bind fun _ => Agree.pure _

theorem params {params : Option Json} (within : ∀ v ∈ params.toList, v.Within allowed) :
    Respects related (evaluateParams id params) := by
  cases params with
  | none => exact Agree.pure _
  | some v =>
    have written := within v (List.mem_singleton.mpr rfl)
    cases v with
    | object ms => exact (respected.members id written).bind fun _ => Agree.pure _
    | _ => exact respected.param id written

theorem items {v : Json} (within : v.Within allowed) : Respects related (evaluateItems id v) := by
  refine (respected.resolveValue id within).bind fun items => ?_
  cases items with
  | null | array => exact Agree.pure _
  | _ => exact Agree.throw _

theorem inserted {inserted : Insert} (within : inserted.written.Within allowed) :
    Respects related (evaluateInsert id inserted) := by
  cases inserted with
  | value v => exact (respected.resolveValue id within).bind fun _ => Agree.pure _
  | items v => exact respected.items id within

theorem number {v : Json} (within : v.Within allowed) : Respects related (evaluateNumber id v) :=
  (respected.param id within).bind fun _ => Agree.pure _

theorem splice {start : Json} {deleteCount items : Option Json} (first : start.Within allowed)
    (second : ∀ v ∈ deleteCount, v.Within allowed) (third : ∀ v ∈ items, v.Within allowed) :
    Respects related (evaluateSplice id start deleteCount items) := by
  have count : Respects related (deleteCount.mapM (evaluateNumber id)) := by
    cases deleteCount with
    | none => exact Agree.pure _
    | some v => exact (respected.number id (second v rfl)).map _
  refine (respected.number id first).bind fun _ => count.bind fun _ => ?_
  cases items with
  | none => exact Agree.pure _
  | some v => exact (respected.items id (third v rfl)).bind fun _ => Agree.pure _

theorem source {v : Json} (within : v.SourceWithin allowed) : Respects related (evaluateSource id v) := by
  cases v with
  | string source => exact respected.evaluate id within
  | _ => exact Agree.pure _

end RespectedByEvaluation

end World

end StateScript
