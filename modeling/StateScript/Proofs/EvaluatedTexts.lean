import StateScript.Proofs.Markers
import StateScript.Proofs.WrittenSources

/-!
What an engine evaluates in texts and in values. It is the sources between their markers, one after the other;
so what can be said of evaluations of such sources, and of operations after one another, can be said of the whole.
-/

namespace StateScript.Engine

/-- A property of operations on an engine that evaluations of allowed sources have, and that holds of what is
put together from them. -/
structure HoldsOfSources (allowed : String → Prop) (resolver : Resolver) (options : EvalOptions)
    (holds : {α : Type} → EngineM α → Prop) : Prop where
  evaluate : ∀ {source}, allowed (Template.stripMarkers source) → holds (evaluate source resolver options)
  pure : ∀ {α : Type} (a : α), holds (pure a)
  bind : ∀ {α β : Type} {first : EngineM α} {next : α → EngineM β}, holds first → (∀ a, holds (next a)) →
    holds (first >>= next)

namespace HoldsOfSources

variable {allowed : String → Prop} {resolver : Resolver} {options : EvalOptions}
  {holds : {α : Type} → EngineM α → Prop} (all : HoldsOfSources allowed resolver options holds)

include all

theorem renderPieces {pieces : List TemplatePiece}
    (may : ∀ source, .expression source ∈ pieces → allowed (Template.stripMarkers (String.ofList source))) :
    holds (renderPieces resolver options pieces) := by
  induction pieces with
  | nil => exact all.pure _
  | cons piece rest ih =>
    have others := ih fun source member => may source (List.mem_cons_of_mem _ member)
    cases piece with
    | text cs => exact all.bind others fun _ => all.pure _
    | expression source =>
      have here := all.evaluate (may source List.mem_cons_self)
      exact all.bind here fun _ => all.bind others fun _ => all.pure _

/-- A template that is one expression is evaluated as that; of any other, the expressions are, one by one. -/
theorem interpolate {template : String} (may : ∀ source ∈ Template.expressions template.toList, allowed source) :
    holds (interpolate template resolver options) := by
  unfold Engine.interpolate
  dsimp only
  cases only : Template.single? template.toList with
  | some source =>
    obtain ⟨trimmed, unclosed⟩ := Template.single?_eq_some only
    have bare : Template.stripMarkers (String.ofList source) = String.ofList source := by
      rw [Template.stripMarkers, String.toList_ofList, Template.single?_of_unclosed unclosed, Option.getD_none, trimmed]
    refine all.evaluate ?_
    rw [bare]
    exact may _ (Template.mem_expressions_of_single? only)
  | none =>
    have rendered : holds (Engine.renderPieces resolver options (Template.pieces template.toList)) := by
      refine all.renderPieces fun source member => ?_
      rw [Template.stripMarkers_of_mem_pieces member]
      exact may _ (List.mem_filterMap.mpr ⟨_, member, rfl⟩)
    dsimp only
    split
    · exact all.bind rendered fun _ => all.pure _
    · exact all.pure _

mutual

theorem resolveValue {v : Json} (may : v.Within allowed) : holds (resolveValue resolver options v) := by
  match v with
  | .string template => exact all.interpolate (may template (List.mem_singleton.mpr rfl))
  | .array items => exact all.bind (resolveItems may) fun _ => all.pure _
  | .object members => exact all.bind (resolveMembers may) fun _ => all.pure _
  | .null | .bool _ | .number _ => exact all.pure _
  termination_by structural v

theorem resolveItems {items : List Json} (may : (Json.array items).Within allowed) :
    holds (resolveItems resolver options items) := by
  match items with
  | [] => exact all.pure _
  | v :: rest =>
    have here := resolveValue fun text inside => may text (List.mem_append_left _ inside)
    have others := resolveItems fun text inside => may text (List.mem_append_right _ inside)
    exact all.bind here fun _ => all.bind others fun _ => all.pure _
  termination_by structural items

theorem resolveMembers {members : List (String × Json)} (may : (Json.object members).Within allowed) :
    holds (resolveMembers resolver options members) := by
  match members with
  | [] => exact all.pure _
  | (_, v) :: rest =>
    have here := resolveValue fun text inside => may text (List.mem_append_left _ inside)
    have others := resolveMembers fun text inside => may text (List.mem_append_right _ inside)
    exact all.bind here fun _ => all.bind others fun _ => all.pure _
  termination_by structural members

end

end HoldsOfSources

end StateScript.Engine
