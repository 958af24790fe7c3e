import StateScript.Proofs.Errors
import StateScript.Proofs.FreshResults
import StateScript.Proofs.Gates
import StateScript.Proofs.Machines

/-!
Denied names in the path of a write. Setting a value checks the whole path, so it fails without a
change. Editing an array checks the first name only: below that it goes through denied names.
-/

namespace StateScript

/-- A path without wildcards that goes through a denied name is refused as a whole. -/
theorem Json.forbidden?_of_denied {path : Path} (plain : .wildcard ∉ path)
    (denied : path.any Direct.deniedSegment = true) : ∃ name, forbidden? path = some (.denied name) := by
  induction path with
  | nil => cases denied
  | cons segment rest ih =>
    rw [List.mem_cons, not_or] at plain
    rw [List.any_cons, Bool.or_eq_true] at denied
    cases segment with
    | wildcard => exact absurd rfl plain.1
    | index i =>
      rcases denied with first | later
      · cases first
      · exact ih plain.2 later
    | key name =>
      cases open' : isDenied name with
      | true => exact ⟨name, by simp [forbidden?, open']⟩
      | false =>
        rcases denied with first | later
        · rw [Direct.deniedSegment, open'] at first
          cases first
        · obtain ⟨other, refused⟩ := ih plain.2 later
          exact ⟨other, by simpa [forbidden?, open'] using refused⟩

theorem Direct.denied_rest {first : Segment} {rest : Path} (allowed : isBindable first.text = true)
    (denied : (first :: rest).any deniedSegment = true) : rest.any deniedSegment = true := by
  rw [List.any_cons, Bool.or_eq_true] at denied
  rcases denied with first_denied | later
  · have open' := World.isDenied_of_isBindable allowed
    cases first with
    | key name =>
      rw [deniedSegment] at first_denied
      rw [Segment.text, first_denied] at open'
      cases open'
    | _ => cases first_denied
  · exact later

namespace World

/-- A run of an operation is refused for safety and changes no bindings. -/
def Refuses {α : Type} (operation : WorldM α) (w : World) : Prop :=
  ∃ e after, operation.run w = (.error e, after) ∧ e.code = .expressionUnsafeAccess ∧
    ∀ scope, after.bindings scope = w.bindings scope

theorem assign_of_forbidden {rest : Path} {fault : WriteFault} (refused : Json.forbidden? rest = some fault)
    (first : String) (value : Json) (bindings : Members) :
    assign first rest value bindings = (bindings, some fault) := by
  unfold assign
  cases found : Members.find? first bindings with
  | none => simp [Json.write, refused]
  | some old => simp [Json.write, refused, Members.insert_eq_self found]

section

variable {path : String} {first : Segment} {rest : Path}
  (parsed : Path.parse path = .ok (first :: rest)) (plain : first ≠ .wildcard)

include parsed plain

theorem target_of_parse : target path = (do checkBindable first.text; return (first.text, rest)) := by
  unfold target
  rw [parsed, ok_bind]
  cases first with
  | wildcard => exact absurd rfl plain
  | _ => rfl

theorem target_of_unbindable (refused : isBindable first.text = false) :
    ∃ e, target path = .error e ∧ e.code = .expressionUnsafeAccess := by
  rw [target_of_parse parsed plain, checkBindable, refused]
  exact ⟨_, rfl, by simp⟩

theorem target_of_bindable (allowed : isBindable first.text = true) :
    target path = .ok (first.text, rest) := by
  rw [target_of_parse parsed plain, checkBindable, allowed]
  rfl

theorem setPath_refuses (clean : .wildcard ∉ rest) (denied : (first :: rest).any Direct.deniedSegment = true)
    (id : ScopeId) (value : Json) (w : World) : Refuses (setPath id path value) w := by
  have parsing := afterParsing_scopes id path w
  cases allowed : isBindable first.text with
  | false =>
    obtain ⟨e, failed, code⟩ := target_of_unbindable parsed plain allowed
    exact ⟨e, w.afterParsing id path, by rw [run_setPath, failed], code, bindings_congr parsing⟩
  | true =>
    have named := target_of_bindable parsed plain allowed
    obtain ⟨name, refused⟩ := Json.forbidden?_of_denied clean (Direct.denied_rest allowed denied)
    have assigned := assign_of_forbidden refused first.text value (w.bindings (w.owner id first.text))
    have ran : (setPath id path value).run w = (.error (writeError path rest (.denied name)),
        (w.afterParsing id path).modifyBindings (w.owner id first.text)
          fun _ => w.bindings (w.owner id first.text)) := by
      rw [run_setPath, named]
      simp only [assigned]
    refine ⟨_, _, ran, by simp [writeError, WriteFault.error], ?_⟩
    intro scope
    rw [← bindings_congr parsing (w.owner id first.text), bindings_modifyBindings_same]
    exact bindings_congr parsing scope

/-- An edit of an array fails for safety exactly where its first name does. -/
theorem editArray_refuses_iff (id : ScopeId) (edit : ArrayEdit) (w : World) :
    Refuses (editArray id path edit) w ↔ isBindable first.text = false := by
  constructor
  · rintro ⟨e, after, failed, code, _⟩
    by_contra bindable
    have named := target_of_bindable parsed plain (by simpa using bindable)
    unfold editArray at failed
    rw [run_updatePath, named] at failed
    simp only at failed
    generalize (Members.find? first.text (w.bindings (w.owner id first.text))).bind (Json.get? · rest) = old
      at failed
    unfold editedArray at failed
    split at failed
    · rename_i refused
      split at refused
      · cases refused
      · cases refused
        cases failed
        simp at code
    · cases failed
  · intro refused
    obtain ⟨e, failed, code⟩ := target_of_unbindable parsed plain refused
    refine ⟨e, w.afterParsing id path, ?_, code, bindings_congr (afterParsing_scopes id path w)⟩
    unfold editArray
    rw [run_updatePath, failed]

end

end World

namespace Execute

open World (setPath editArray KeptByEvaluation)

/-- A write at a path, and how what is written is come by. -/
inductive Writing where
  | value (path : String) (prepared : ExecuteM Json)
  | edit (path : String) (prepared : ExecuteM ArrayEdit)

namespace Writing

def path : Writing → String
  | value path _ => path
  | edit path _ => path

def IsEdit : Writing → Prop
  | value .. => False
  | edit .. => True

/-- What happens before the write itself. -/
def prepare : Writing → ExecuteM Unit
  | value _ prepared => do
    let _ ← prepared
    return
  | edit _ prepared => do
    let _ ← prepared
    return

def perform (id : ScopeId) : Writing → ExecuteM Unit
  | value path prepared => do
    let v ← prepared
    onWorld (setPath id path v)
  | edit path prepared => do
    let change ← prepared
    onWorld (editArray id path change)

end Writing

section

variable (reenter : Reenter) (budget : Budget) (id : ScopeId)

/-- The result of a call, which may still be written somewhere. -/
def callResult (name : String) (params : Option Json) : ExecuteM Json := do
  match ← (caller reenter budget).read (·.method? id name) with
  | none => fail (unregistered name)
  | some method =>
    let params ← onWorld (World.evaluateParams id params)
    (caller reenter budget).invoke id name method params

theorem call_eq (name : String) (params : Option Json) (resultTo : Option String) :
    (caller reenter budget).call id name params resultTo = do
      let result ← callResult reenter budget id name params
      match resultTo with
      | some path => onWorld (setPath id path result)
      | none => return := by
  simp only [Caller.call, callResult, caller_once, bind_assoc]
  refine bind_congr fun found => ?_
  cases found with
  | none => rfl
  | some method => cases resultTo <;> simp only [bind_assoc]

/-- The write that an action makes, if it makes one. -/
def writing? : Action → Option Writing
  | .set path value => some (.value path (onWorld (World.evaluateParam id value)))
  | .push path inserted => some (.edit path (onWorld do return .append (← World.evaluateInsert id inserted)))
  | .pop path => some (.edit path (pure .dropLast))
  | .shift path => some (.edit path (pure .dropFirst))
  | .unshift path inserted => some (.edit path (onWorld do return .prepend (← World.evaluateInsert id inserted)))
  | .splice path start deleteCount items =>
    some (.edit path (onWorld (World.evaluateSplice id start deleteCount items)))
  | .call method params (some path) => some (.value path (callResult reenter budget id method params))
  | _ => none

theorem perform_of_writing? {action : Action} {writing : Writing}
    (found : writing? reenter budget id action = some writing) (raw : Json) :
    perform reenter budget id raw action = writing.perform id := by
  cases action with
  | set path value | splice path start deleteCount items =>
    cases found
    simp only [perform, Caller.perform, caller_once, Writing.perform, onWorld_bind]
  | push path inserted | unshift path inserted =>
    cases found
    simp only [perform, Caller.perform, caller_once, Writing.perform, onWorld_bind, bind_assoc, onWorld_pure, pure_bind]
  | pop path | shift path =>
    cases found
    simp only [perform, Caller.perform, caller_once, Writing.perform, pure_bind]
  | call method params resultTo =>
    cases resultTo with
    | none => cases found
    | some path =>
      cases found
      exact call_eq reenter budget id method params (some path)
  | _ => cases found

theorem editsArray_iff_of_writing? {action : Action} {writing : Writing}
    (found : writing? reenter budget id action = some writing) : action.EditsArray ↔ writing.IsEdit := by
  cases action with
  | call method params resultTo =>
    cases resultTo with
    | none => cases found
    | some path =>
      cases found
      exact Iff.rfl
  | set | push | pop | shift | unshift | splice =>
    cases found
    exact Iff.rfl
  | _ => cases found

end

/-- A run fails for safety, and then each scope has the bindings that it has in some world. -/
def RefusesLeaving (run : ExecuteM Unit) (m : Machine) (left : World) : Prop :=
  ∃ e after, run.run m = (.error (.error e), after) ∧ e.code = .expressionUnsafeAccess ∧
    ∀ scope, after.world.bindings scope = left.bindings scope

theorem onWorld_refuses_iff {operation : WorldM Unit} {m : Machine} :
    RefusesLeaving (onWorld operation) m m.world ↔ World.Refuses operation m.world := by
  unfold RefusesLeaving World.Refuses
  rw [run_onWorld]
  rcases operation.run m.world with ⟨e | ⟨⟩, after⟩
  · constructor
    · rintro ⟨e, after, failed, code, same⟩
      cases failed
      exact ⟨_, _, rfl, code, same⟩
    · rintro ⟨e, after, failed, code, same⟩
      cases failed
      exact ⟨_, _, rfl, code, same⟩
  · constructor
    · rintro ⟨_, _, failed, _⟩
      cases failed
    · rintro ⟨_, _, failed, _⟩
      cases failed

section

variable {α : Type} {first : ExecuteM α} {m between : Machine}

theorem refusesLeaving_bind_iff {a : α} (ran : first.run m = (.ok a, between)) (next : α → ExecuteM Unit)
    (left : World) : RefusesLeaving (first >>= next) m left ↔ RefusesLeaving (next a) between left := by
  unfold RefusesLeaving
  rw [run_bind, ran]

theorem ran_of_done (done : (first >>= fun _ => pure () : ExecuteM Unit).run m = (.ok (), between)) :
    ∃ a, first.run m = (.ok a, between) := by
  rw [run_bind] at done
  rcases ran : first.run m with ⟨e | a, middle⟩
  · rw [ran] at done
    cases done
  · rw [ran] at done
    cases done
    exact ⟨a, rfl⟩

end

/-- What is written at a path through denied names is refused, unless it edits an array and the first
name may be written. -/
theorem Writing.refuses_iff {writing : Writing} {first : Segment} {rest : Path}
    (parsed : Path.parse writing.path = .ok (first :: rest)) (plain : first ≠ .wildcard)
    (clean : .wildcard ∉ rest) (denied : (first :: rest).any Direct.deniedSegment = true) (id : ScopeId)
    {m between : Machine} (ready : writing.prepare.run m = (.ok (), between)) :
    RefusesLeaving (writing.perform id) m between.world ↔
      (writing.IsEdit → isBindable first.text = false) := by
  cases writing with
  | value path prepared =>
    obtain ⟨v, ran⟩ := ran_of_done ready
    have refuses : World.Refuses (setPath id path v) between.world :=
      World.setPath_refuses parsed plain clean denied id v between.world
    have whole := (refusesLeaving_bind_iff ran (fun v => onWorld (setPath id path v)) between.world).mpr
      (onWorld_refuses_iff.mpr refuses)
    exact ⟨fun _ edits => edits.elim, fun _ => whole⟩
  | edit path prepared =>
    obtain ⟨change, ran⟩ := ran_of_done ready
    have refuses : World.Refuses (editArray id path change) between.world ↔ isBindable first.text = false :=
      World.editArray_refuses_iff parsed plain id change between.world
    have whole := refusesLeaving_bind_iff ran (fun change => onWorld (editArray id path change)) between.world
    rw [onWorld_refuses_iff, refuses] at whole
    exact whole.trans ⟨fun refused _ => refused, fun refused => refused trivial⟩

section

variable {reenter : Reenter} {budget : Budget} {id : ScopeId} {action : Action} {writing : Writing}
  (found : writing? reenter budget id action = some writing)

include found

/-- Before the write of an action, only evaluations have taken place and what a call does. -/
theorem Writing.keeps_prepare {good : World → Prop} (kept : KeptByEvaluation good)
    (calls : ∀ method params, (∃ path, action = .call method params (some path)) →
      Keeps (fun m => good m.world) (callResult reenter budget id method params)) :
    Keeps (fun m => good m.world) writing.prepare := by
  cases action with
  | set path value =>
    cases found
    exact (kept.param id value).onWorld.bind fun _ => Keeps.pure _
  | push path inserted | unshift path inserted =>
    cases found
    have values := kept.inserted id inserted
    exact (values.bind fun _ => Keeps.pure _).onWorld.bind fun _ => Keeps.pure _
  | pop path | shift path =>
    cases found
    exact (Keeps.pure _).bind fun _ => Keeps.pure _
  | splice path start deleteCount items =>
    cases found
    exact (kept.splice id start deleteCount items).onWorld.bind fun _ => Keeps.pure _
  | call method params resultTo =>
    cases resultTo with
    | none => cases found
    | some path =>
      cases found
      exact (calls method params ⟨path, rfl⟩).bind fun _ => Keeps.pure _
  | _ => cases found

/-- An action that calls no method changes no bindings before its write. -/
theorem Writing.prepare_keeps (local' : ∀ method params resultTo, action ≠ .call method params resultTo)
    (m : Machine) (scope : ScopeId) :
    (writing.prepare.run m).2.world.bindings scope = m.world.bindings scope := by
  have kept : KeptByEvaluation fun w => w.scopes = m.world.scopes :=
    .of_scopes fun same before => same.trans before
  have keeps := Writing.keeps_prepare found kept fun method params ⟨path, calls⟩ =>
    absurd calls (local' method params (some path))
  exact World.bindings_congr (keeps m rfl) scope

/-- An action that writes at a path through a denied name fails for safety and changes no bindings, once
what it writes is known, unless it edits an array and the first name of the path may be written. -/
theorem perform_refuses_iff {segments : Path} (parsed : Path.parse writing.path = .ok segments)
    (clean : .wildcard ∉ segments) (denied : segments.any Direct.deniedSegment = true) (raw : Json)
    {m between : Machine} (ready : writing.prepare.run m = (.ok (), between)) :
    (RefusesLeaving (perform reenter budget id raw action) m between.world ↔
      (action.EditsArray → ∀ first ∈ segments.head?, isBindable first.text = false)) ∧
    ((∀ method params resultTo, action ≠ .call method params resultTo) →
      ∀ scope, between.world.bindings scope = m.world.bindings scope) := by
  constructor
  · cases segments with
    | nil => cases denied
    | cons first rest =>
      rw [List.mem_cons, not_or] at clean
      have refuses := Writing.refuses_iff parsed (Ne.symm clean.1) clean.2 denied id ready
      rw [perform_of_writing? reenter budget id found raw, editsArray_iff_of_writing? reenter budget id found]
      simpa using refuses
  · intro local' scope
    have kept := Writing.prepare_keeps found local' m scope
    rw [ready] at kept
    exact kept

end

/-- A root whose state holds an array under a denied name. -/
def withDenied : Machine := ⟨World.holding [("a", .object [("constructor", .array [])])], 0⟩

/-- An edit of an array gets through a denied name to the array below it. -/
theorem perform_may_edit_denied :
    let edited := (perform (fun _ _ _ => pure ()) ⟨0, {}, none⟩ 1 .null
      (.push "a.constructor" (.value (.bool true)))).run withDenied
    edited.1.isOk = true ∧
      edited.2.world.bindings 1 = [("a", .object [("constructor", .array [.bool true])])] := by
  intro edited
  exact ⟨by decide +kernel, rfl⟩

theorem perform_refuses_at_set :
    let setting : Writing := .value "a.constructor" (pure .null)
    writing? (fun _ _ _ => pure ()) ⟨0, {}, none⟩ 1 (.set "a.constructor" .null) = some setting ∧
      Path.parse "a.constructor" = .ok [.key "a", .key "constructor"] ∧
      setting.prepare.run withDenied = (.ok (), withDenied) ∧
      RefusesLeaving (perform (fun _ _ _ => pure ()) ⟨0, {}, none⟩ 1 .null (.set "a.constructor" .null))
        withDenied withDenied.world := by
  intro setting
  have found : writing? (fun _ _ _ => pure ()) ⟨0, {}, none⟩ 1 (.set "a.constructor" .null) = some setting :=
    rfl
  have parsed : Path.parse "a.constructor" = .ok [.key "a", .key "constructor"] := rfl
  have ready : setting.prepare.run withDenied = (.ok (), withDenied) := rfl
  obtain ⟨refuses, _⟩ := perform_refuses_iff found parsed (by decide) (by decide) .null ready
  exact ⟨found, parsed, ready, refuses.mpr fun edits => edits.elim⟩

end Execute

end StateScript
