import Mathlib
import StateScript.Action.Reader
import StateScript.Method
import StateScript.Proofs.Runs
import StateScript.Template

/-!
The sources of expressions that actions hold as they are written: those between the markers of a text
inside an action, and the whole text that decides a branch or gives a loop its items.
-/

namespace StateScript

namespace Json

mutual

/-- The texts inside a value, at any depth. -/
def texts : Json → List String
  | .string text => [text]
  | .array items => textsOfItems items
  | .object members => textsOfMembers members
  | _ => []
  termination_by structural v => v

def textsOfItems : List Json → List String
  | [] => []
  | v :: rest => texts v ++ textsOfItems rest
  termination_by structural vs => vs

def textsOfMembers : List (String × Json) → List String
  | [] => []
  | (_, v) :: rest => texts v ++ textsOfMembers rest
  termination_by structural ms => ms

end

theorem texts_subset_of_find? {key : String} {v : Json} {ms : Members} (found : Members.find? key ms = some v) :
    v.texts ⊆ textsOfMembers ms := by
  induction ms with
  | nil => cases found
  | cons member rest ih =>
    obtain ⟨name, first⟩ := member
    simp only [textsOfMembers]
    simp only [Members.find?] at found
    split at found
    · cases found
      exact List.subset_append_left ..
    · exact List.Subset.trans (ih found) (List.subset_append_right ..)

/-- Every expression of a text inside the value is allowed. -/
def Within (allowed : String → Prop) (v : Json) : Prop :=
  ∀ text ∈ v.texts, ∀ source ∈ Template.expressions text.toList, allowed source

/-- A text is allowed as the source that it is with its markers off. -/
def SourceWithin (allowed : String → Prop) : Json → Prop
  | .string source => allowed (Template.stripMarkers source)
  | _ => True

end Json

/-- What an action puts into an array, as written. -/
def Insert.written : Insert → Json
  | .value v => v
  | .items v => v

/-- The values of an action that are evaluated, as written. -/
def Action.parameters : Action → List Json
  | .set _ value => [value]
  | .push _ inserted => [inserted.written]
  | .unshift _ inserted => [inserted.written]
  | .splice _ start deleteCount items => start :: (deleteCount.toList ++ items.toList)
  | .call _ params _ => params.toList
  | .emit _ data => data.toList
  | .navigate target => [target]
  | .log _ message => [message]
  | .pop _ | .shift _ | .custom _ => []

namespace Step

mutual

/-- A step and the steps inside it, at any depth. -/
def inside : Step → List Step
  | .branch raw cond yes no => .branch raw cond yes no :: (insideAll yes ++ insideAll no)
  | .loop raw var indexVar source body => .loop raw var indexVar source body :: insideAll body
  | .batch raw steps => .batch raw steps :: insideAll steps
  | .malformed raw fault => [.malformed raw fault]
  | .single raw action => [.single raw action]
  termination_by structural step => step

def insideAll : List Step → List Step
  | [] => []
  | step :: rest => inside step ++ insideAll rest
  termination_by structural steps => steps

end

/-- What a step evaluates itself as a value, as written. -/
def parameters : Step → List Json
  | .single _ action => action.parameters
  | _ => []

/-- The lists of steps that a step holds. -/
def lists : Step → List (List Step)
  | .branch _ _ yes no => [yes, no]
  | .loop _ _ _ _ body => [body]
  | .batch _ steps => [steps]
  | .malformed .. | .single .. => []

/-- What the step evaluates comes from members of a raw action, and so do the lists of steps in it. -/
structure MadeOf (f : ActionFields) (step : Step) : Prop where
  parameters : ∀ v ∈ step.parameters, ∃ key, Members.find? key f.members = some v
  lists : ∀ steps ∈ step.lists, steps = [] ∨ ∃ name, f.lists.lookup name = some steps

end Step

namespace ActionFields

variable {f : ActionFields} {name : String}

theorem find?_of_optional? {v : Json} (given : f.optional? name = some v) :
    Members.find? name f.members = some v := by
  unfold optional? at given
  split at given
  · cases given
  · exact given

theorem find?_of_required {v : Json} (given : f.required name = .ok v) :
    Members.find? name f.members = some v := by
  unfold required at given
  split at given
  · cases given
    assumption
  · cases given

theorem find?_of_inserted {given : Insert} (read : f.inserted = .ok given) :
    ∃ key, Members.find? key f.members = some given.written := by
  unfold inserted at read
  split at read
  · next items found =>
    cases read
    exact ⟨_, find?_of_optional? found⟩
  · rw [← bind_pure_comp] at read
    obtain ⟨v, found, read⟩ := bind_eq_ok.mp read
    cases read
    exact ⟨_, find?_of_required found⟩

theorem lookup_of_optionalList {steps : List Step} (read : f.optionalList name = .ok (some steps)) :
    f.lists.lookup name = some steps := by
  unfold optionalList at read
  split at read
  · cases read
  · split at read <;> cases read
    assumption

theorem lookup_of_list {steps : List Step} (read : f.list name = .ok steps) :
    f.lists.lookup name = some steps := by
  unfold list at read
  obtain ⟨found, listed, read⟩ := bind_eq_ok.mp read
  cases found <;> cases read
  exact lookup_of_optionalList listed

theorem lookup_of_optionalList_getD {found : Option (List Step)} (read : f.optionalList name = .ok found) :
    found.getD [] = [] ∨ ∃ name, f.lists.lookup name = some (found.getD []) := by
  cases found with
  | none => exact Or.inl rfl
  | some steps => exact Or.inr ⟨name, lookup_of_optionalList read⟩

/-- A step is made of the members that it is read from. -/
theorem madeOf_of_step {raw : Json} {step : Step} (read : f.step raw = .ok step) : step.MadeOf f := by
  have single {action : Action} (known : ∀ v ∈ action.parameters, ∃ key, Members.find? key f.members = some v) :
      (Step.single raw action).MadeOf f := ⟨known, nofun⟩
  have required {name : String} {v : Json} (given : f.required name = .ok v) :
      ∃ key, Members.find? key f.members = some v := ⟨name, find?_of_required given⟩
  have optional {name : String} {v : Json} (given : f.optional? name = some v) :
      ∃ key, Members.find? key f.members = some v := ⟨name, find?_of_optional? given⟩
  unfold ActionFields.step at read
  split at read
  case h_1 => -- set
    obtain ⟨path, _, read⟩ := bind_eq_ok.mp read
    obtain ⟨v, value, read⟩ := bind_eq_ok.mp read
    cases read
    exact single (List.forall_mem_singleton.mpr (required value))
  case h_2 | h_5 => -- push and unshift
    obtain ⟨path, _, read⟩ := bind_eq_ok.mp read
    obtain ⟨given, inserted, read⟩ := bind_eq_ok.mp read
    cases read
    exact single (List.forall_mem_singleton.mpr (find?_of_inserted inserted))
  case h_3 | h_4 => -- pop and shift
    obtain ⟨path, _, read⟩ := bind_eq_ok.mp read
    cases read
    exact single nofun
  case h_6 => -- splice
    obtain ⟨path, _, read⟩ := bind_eq_ok.mp read
    obtain ⟨start, first, read⟩ := bind_eq_ok.mp read
    cases read
    refine single (List.forall_mem_cons.mpr ⟨required first, List.forall_mem_append.mpr ⟨?_, ?_⟩⟩)
    · exact fun v given => optional (Option.mem_toList.mp given)
    · exact fun v given => optional (Option.mem_toList.mp given)
  case h_7 => -- call
    obtain ⟨method, _, read⟩ := bind_eq_ok.mp read
    obtain ⟨resultTo, _, read⟩ := bind_eq_ok.mp read
    cases read
    exact single fun v given => optional (Option.mem_toList.mp given)
  case h_8 => -- emit
    obtain ⟨event, _, read⟩ := bind_eq_ok.mp read
    cases read
    exact single fun v given => optional (Option.mem_toList.mp given)
  case h_9 => -- navigate
    obtain ⟨target, value, read⟩ := bind_eq_ok.mp read
    cases read
    exact single (List.forall_mem_singleton.mpr (required value))
  case h_10 => -- log
    obtain ⟨level, _, read⟩ := bind_eq_ok.mp read
    obtain ⟨message, value, read⟩ := bind_eq_ok.mp read
    cases read
    exact single (List.forall_mem_singleton.mpr (required value))
  case h_11 => -- if
    obtain ⟨cond, _, read⟩ := bind_eq_ok.mp read
    obtain ⟨yes, first, read⟩ := bind_eq_ok.mp read
    obtain ⟨no, second, read⟩ := bind_eq_ok.mp read
    cases read
    exact ⟨nofun, List.forall_mem_cons.mpr
      ⟨lookup_of_optionalList_getD first, List.forall_mem_singleton.mpr (lookup_of_optionalList_getD second)⟩⟩
  case h_12 => -- loop
    obtain ⟨var, _, read⟩ := bind_eq_ok.mp read
    obtain ⟨indexVar, _, read⟩ := bind_eq_ok.mp read
    obtain ⟨source, _, read⟩ := bind_eq_ok.mp read
    obtain ⟨body, listed, read⟩ := bind_eq_ok.mp read
    cases read
    exact ⟨nofun, List.forall_mem_singleton.mpr (Or.inr ⟨_, lookup_of_list listed⟩)⟩
  case h_13 => -- batch
    obtain ⟨steps, listed, read⟩ := bind_eq_ok.mp read
    cases read
    exact ⟨nofun, List.forall_mem_singleton.mpr (Or.inr ⟨_, lookup_of_list listed⟩)⟩
  case h_14 => -- a kind that is not known
    cases read
    exact single nofun

end ActionFields

namespace Step

theorem inside_eq (step : Step) : step.inside = step :: step.lists.flatMap insideAll := by
  cases step <;> simp [inside, lists]

/-- What steps evaluate as values, at any depth, is made of these texts. -/
def WrittenIn (texts : List String) (steps : List Step) : Prop :=
  ∀ step ∈ insideAll steps, ∀ v ∈ step.parameters, v.texts ⊆ texts

section

variable {texts : List String}

theorem writtenIn_nil : WrittenIn texts [] := nofun

theorem WrittenIn.mono {more : List String} {steps : List Step} (written : WrittenIn texts steps)
    (subset : texts ⊆ more) : WrittenIn more steps :=
  fun step member v given => List.Subset.trans (written step member v given) subset

theorem writtenIn_cons {step : Step} {rest : List Step} :
    WrittenIn texts (step :: rest) ↔ WrittenIn texts [step] ∧ WrittenIn texts rest := by
  simp only [WrittenIn, insideAll, List.append_nil, List.forall_mem_append]

/-- A step that is made of members is written in them if the lists of steps in it are. -/
theorem MadeOf.writtenIn {f : ActionFields} {step : Step} (made : step.MadeOf f)
    (inside : ∀ list ∈ f.lists, WrittenIn (Json.textsOfMembers f.members) list.2) :
    WrittenIn (Json.textsOfMembers f.members) [step] := by
  intro inner member v given
  simp only [insideAll, List.append_nil, inside_eq, List.mem_cons, List.mem_flatMap] at member
  rcases member with rfl | ⟨steps, listed, deeper⟩
  · obtain ⟨key, found⟩ := made.parameters v given
    exact Json.texts_subset_of_find? found
  · rcases made.lists steps listed with rfl | ⟨name, found⟩
    · cases deeper
    · obtain ⟨before, behind, split, _⟩ := List.lookup_eq_some_iff.mp found
      have there : (name, steps) ∈ f.lists := split ▸ List.mem_append_right before List.mem_cons_self
      exact inside _ there inner deeper v given

theorem writtenIn_malformed (raw : Json) (fault : ActionFault) : WrittenIn texts [.malformed raw fault] := by
  simp [WrittenIn, insideAll, inside, parameters]

theorem writtenIn_ofMembers {ms : Members} {lists : List (String × List Step)} {step : Step}
    (inside : ∀ list ∈ lists, WrittenIn (Json.textsOfMembers ms) list.2) (read : ofMembers ms lists = .ok step) :
    WrittenIn (Json.textsOfMembers ms) [step] := by
  unfold ofMembers at read
  split at read
  · exact (ActionFields.madeOf_of_step read).writtenIn inside
  · cases read
  · cases read

end

mutual

theorem writtenIn_ofJson (raw : Json) : WrittenIn raw.texts [ofJson raw] := by
  match raw with
  | .object ms =>
    have inside := writtenIn_listsOf ms
    simp only [ofJson, Json.texts]
    split
    · next step read => exact writtenIn_ofMembers inside read
    · exact writtenIn_malformed _ _
  | .null | .bool _ | .number _ | .string _ | .array _ => exact writtenIn_malformed _ _
  termination_by structural raw

theorem writtenIn_ofItems (raws : List Json) : WrittenIn (Json.textsOfItems raws) (ofItems raws) := by
  match raws with
  | [] => exact writtenIn_nil
  | raw :: rest =>
    have first := writtenIn_ofJson raw
    have others := writtenIn_ofItems rest
    simp only [ofItems, Json.textsOfItems]
    exact writtenIn_cons.mpr ⟨first.mono (List.subset_append_left ..), others.mono (List.subset_append_right ..)⟩
  termination_by structural raws

theorem writtenIn_listsOf (ms : List (String × Json)) :
    ∀ list ∈ listsOf ms, WrittenIn (Json.textsOfMembers ms) list.2 := by
  match ms with
  | [] => simp [listsOf]
  | (name, v) :: rest =>
    have others list member := (writtenIn_listsOf rest list member).mono (List.subset_append_right v.texts _)
    match v with
    | .array items =>
      have here := (writtenIn_ofItems items).mono (List.subset_append_left _ (Json.textsOfMembers rest))
      simp only [listsOf, Json.textsOfMembers]
      exact List.forall_mem_cons.mpr ⟨here, others⟩
    | .object inner =>
      have here := (writtenIn_ofJson (.object inner)).mono (List.subset_append_left _ (Json.textsOfMembers rest))
      simp only [listsOf, Json.textsOfMembers]
      exact List.forall_mem_cons.mpr ⟨here, others⟩
    | .null | .bool _ | .number _ | .string _ => exact others
  termination_by structural ms

end

/-- The text that decides a branch or gives a loop its items. -/
def gate? : Step → Option String
  | .branch _ (.string cond) _ _ => some cond
  | .loop _ _ _ (.string source) _ => some source
  | _ => none

/-- What a step evaluates itself is allowed. -/
def OwnWithin (allowed : String → Prop) : Step → Prop
  | .single _ action => ∀ v ∈ action.parameters, v.Within allowed
  | .branch _ cond _ _ => cond.SourceWithin allowed
  | .loop _ _ _ source _ => source.SourceWithin allowed
  | .malformed .. | .batch .. => True

/-- What steps evaluate, at any depth, is allowed. -/
def Within (allowed : String → Prop) (steps : List Step) : Prop :=
  ∀ step ∈ insideAll steps, step.OwnWithin allowed

end Step

/-- The source stands in the actions as they are written: between the markers of a text somewhere in an action, or
as the whole text that decides a branch or gives a loop its items. -/
def Written (actions : List Json) (source : String) : Prop :=
  (∃ text ∈ Json.textsOfItems actions, source ∈ Template.expressions text.toList) ∨
    ∃ step ∈ Step.insideAll (Step.ofItems actions), step.gate?.map Template.stripMarkers = some source

instance (actions : List Json) : DecidablePred (Written actions) := fun source =>
  inferInstanceAs (Decidable ((∃ text ∈ Json.textsOfItems actions, source ∈ Template.expressions text.toList) ∨
    ∃ step ∈ Step.insideAll (Step.ofItems actions), step.gate?.map Template.stripMarkers = some source))

/-- Steps evaluate nothing that is not written in the actions that they are read from. -/
theorem Step.within_written (actions : List Json) : Step.Within (Written actions) (Step.ofItems actions) := by
  intro step member
  have values {v : Json} (given : v ∈ step.parameters) : v.Within (Written actions) := fun text inside source marked =>
    Or.inl ⟨text, Step.writtenIn_ofItems actions step member v given inside, marked⟩
  have gates {v : Json} (gate : ∀ text, v = .string text → step.gate? = some text) :
      v.SourceWithin (Written actions) := by
    cases v with
    | string text => exact Or.inr ⟨step, member, congrArg (Option.map Template.stripMarkers) (gate text rfl)⟩
    | _ => trivial
  cases step with
  | single raw action => exact fun v given => values given
  | branch raw cond yes no => exact gates fun text same => same ▸ rfl
  | loop raw var indexVar source body => exact gates fun text same => same ▸ rfl
  | malformed | batch => trivial

/-- What a request has evaluated is allowed, in actions too. -/
def Request.Within (allowed : String → Prop) : Request → Prop
  | .evaluate source => allowed (Template.stripMarkers source)
  | .execute actions _ => Step.Within allowed (Step.ofItems actions)
  | _ => True

section

variable {allowed : String → Prop} (all : ∀ source, allowed source)

include all

theorem Step.within_of_all (steps : List Step) : Step.Within allowed steps := by
  have gates (v : Json) : v.SourceWithin allowed := by
    cases v with
    | string source => exact all _
    | _ => trivial
  intro step _
  cases step with
  | single raw action => exact fun _ _ _ _ source _ => all source
  | branch raw cond yes no => exact gates cond
  | loop raw var indexVar source body => exact gates source
  | malformed | batch => trivial

theorem Request.within_of_all (request : Request) : request.Within allowed := by
  cases request with
  | evaluate source => exact all _
  | execute actions limits => exact Step.within_of_all all _
  | _ => trivial

end

end StateScript
