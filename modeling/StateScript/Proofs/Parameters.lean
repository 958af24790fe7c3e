import StateScript.Proofs.Scopes
import StateScript.World.Edit

/-!
The parameters of an action. Whatever their form, their values come from evaluations in a scope, one after the
other; so what can be said of evaluations, and of operations after one another, can be said of them. Among this is
what they keep of the world.
-/

namespace StateScript.World

/-- A property of operations on the world that evaluations in any scope have, and that holds of what is put
together from them. -/
structure HoldsOfEvaluation (holds : {α : Type} → WorldM α → Prop) : Prop where
  evaluate : ∀ id source, holds (World.evaluate id source)
  interpolate : ∀ id template, holds (World.interpolate id template)
  resolveValue : ∀ id value, holds (World.resolveValue id value)
  pure : ∀ {α : Type} (a : α), holds (pure a)
  reject : ∀ {α : Type} {e : Error}, e.context.action = none → holds (throw e : WorldM α)
  bind : ∀ {α β : Type} {first : WorldM α} {next : α → WorldM β}, holds first → (∀ a, holds (next a)) →
    holds (first >>= next)

namespace HoldsOfEvaluation

variable {holds : {α : Type} → WorldM α → Prop} (all : HoldsOfEvaluation holds) (id : ScopeId)

include all

theorem param (v : Json) : holds (evaluateParam id v) := by
  cases v with
  | string template => exact all.interpolate id template
  | _ => exact all.pure _

theorem members (ms : Members) : holds (evaluateMembers id ms) := by
  induction ms with
  | nil => exact all.pure _
  | cons member rest ih =>
    obtain ⟨key, v⟩ := member
    exact all.bind (all.param id v) fun _ => all.bind ih fun _ => all.pure _

theorem params (params : Option Json) : holds (evaluateParams id params) := by
  cases params with
  | none => exact all.pure _
  | some v =>
    cases v with
    | object ms => exact all.bind (all.members id ms) fun _ => all.pure _
    | _ =>
      unfold evaluateParams
      exact all.param id _

theorem items (v : Json) : holds (evaluateItems id v) := by
  refine all.bind (all.resolveValue id v) fun items => ?_
  cases items with
  | null | array => exact all.pure _
  | _ => exact all.reject rfl

theorem inserted (inserted : Insert) : holds (evaluateInsert id inserted) := by
  cases inserted with
  | value v => exact all.bind (all.resolveValue id v) fun _ => all.pure _
  | items v => exact all.items id v

theorem splice (start : Json) (deleteCount items : Option Json) :
    holds (evaluateSplice id start deleteCount items) := by
  have number (v : Json) : holds (evaluateNumber id v) := all.bind (all.param id v) fun _ => all.pure _
  have count : holds (deleteCount.mapM (evaluateNumber id)) := by
    cases deleteCount with
    | none => exact all.pure _
    | some v =>
      have given : (some v).mapM (evaluateNumber id) = evaluateNumber id v >>= fun x => Pure.pure (some x) :=
        (bind_pure_comp some _).symm
      rw [given]
      exact all.bind (number v) fun _ => all.pure _
  refine all.bind (number start) fun _ => all.bind count fun _ => ?_
  cases items with
  | none => exact all.bind (all.pure _) fun _ => all.pure _
  | some v => exact all.bind (all.items id v) fun _ => all.pure _

theorem source (v : Json) : holds (evaluateSource id v) := by
  cases v with
  | string source => exact all.evaluate id source
  | _ => exact all.pure _

end HoldsOfEvaluation

/-- Evaluations in any scope keep a property of worlds. -/
structure KeptByEvaluation (good : World → Prop) : Prop where
  evaluate : ∀ id source, Keeps good (World.evaluate id source)
  interpolate : ∀ id template, Keeps good (World.interpolate id template)
  resolveValue : ∀ id value, Keeps good (World.resolveValue id value)

namespace KeptByEvaluation

variable {good : World → Prop}

/-- Evaluations change sessions only, and no pool in them. -/
theorem of_sessions (same : ∀ {w : World} id (change : Session → Session),
      (∀ session, (change session).pool = session.pool) → good w → good (w.modifySession id change)) :
    KeptByEvaluation good := by
  have engine {α : Type} (id : ScopeId) (operation : EngineM α) : Keeps good (withEngine id operation) :=
    fun _ holds => same id _ (fun _ => rfl) holds
  constructor
  · intro id source
    exact Keeps.get.bind fun w => engine id _
  · intro id template
    exact Keeps.get.bind fun w => engine id _
  · intro id value
    exact Keeps.get.bind fun w => engine id _

theorem of_scopes (same : ∀ {w after : World}, after.scopes = w.scopes → good w → good after) :
    KeptByEvaluation good :=
  of_sessions fun id change _ => same (modifySession_scopes _ id change)

theorem of_untouched (same : ∀ {w after : World}, w.Untouched after → good w → good after) :
    KeptByEvaluation good :=
  of_sessions fun id _ keeps => same (untouched_modifySession _ id keeps)

variable (kept : KeptByEvaluation good) (id : ScopeId)

include kept

theorem holds : HoldsOfEvaluation fun operation => Keeps good operation where
  evaluate := kept.evaluate
  interpolate := kept.interpolate
  resolveValue := kept.resolveValue
  pure := Keeps.pure
  reject _ := Keeps.throw _
  bind := Keeps.bind

theorem param (v : Json) : Keeps good (evaluateParam id v) := kept.holds.param id v

theorem params (params : Option Json) : Keeps good (evaluateParams id params) := kept.holds.params id params

theorem inserted (inserted : Insert) : Keeps good (evaluateInsert id inserted) := kept.holds.inserted id inserted

theorem splice (start : Json) (deleteCount items : Option Json) :
    Keeps good (evaluateSplice id start deleteCount items) :=
  kept.holds.splice id start deleteCount items

theorem source (v : Json) : Keeps good (evaluateSource id v) := kept.holds.source id v

end KeptByEvaluation

end StateScript.World
