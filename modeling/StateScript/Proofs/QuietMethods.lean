import StateScript.Proofs.DeniedWrites

/-!
Methods that leave the context alone that calls them. They may read it, wait and take their time, but write
nothing and have no actions run. So an action that calls one writes the answer and nothing else.
-/

namespace StateScript

/-- The request neither writes nor has actions run. -/
def Request.Quiet : Request → Prop
  | .setPath .. | .bind .. | .execute .. => False
  | _ => True

/-- Every request is quiet, whatever the answers to the ones before. -/
def Interaction.Quiet : Interaction → Prop
  | .done _ | .failed _ => True
  | .ask request next => request.Quiet ∧ ∀ response, (next response).Quiet

/-- Every method of the tree is quiet, whatever its parameters. -/
def Tree.Quiet (shared : Tree) : Prop :=
  ∀ name method, shared.methods.lookup name = some method → ∀ params, (method params).Quiet

namespace World

/-- The changes that the host has been told of, the latest one last. -/
def changes (w : World) : List (String × Json) :=
  w.events.reverse.filterMap fun
    | .changed path value => some (path, value)
    | _ => none

/-- Nothing has happened to the scopes and their trees, and the host has been told of no change. Methods may
have come to hold on to more scopes. -/
structure Beside (w after : World) : Prop where
  scopes : after.scopes = w.scopes
  trees : after.trees = w.trees
  kept : w.kept ⊆ after.kept
  changes : after.changes = w.changes

section

variable {w between after : World}

theorem Beside.refl (w : World) : w.Beside w := ⟨rfl, rfl, List.Subset.refl _, rfl⟩

theorem Beside.trans (first : w.Beside between) (second : between.Beside after) : w.Beside after where
  scopes := second.scopes.trans first.scopes
  trees := second.trees.trans first.trees
  kept := List.Subset.trans first.kept second.kept
  changes := second.changes.trans first.changes

theorem beside_modifySession (w : World) (id : ScopeId) (change : Session → Session) :
    w.Beside (w.modifySession id change) := by
  unfold modifySession
  split <;> exact ⟨rfl, rfl, List.Subset.refl _, rfl⟩

theorem beside_invalidate (w : World) (id : ScopeId) (path : String) : w.Beside (w.invalidate id path) :=
  beside_modifySession w id _

theorem Beside.modifyBindings (beside : w.Beside after) (id : ScopeId) (change : Members → Members) :
    (w.modifyBindings id change).Beside (after.modifyBindings id change) where
  scopes := by simp only [World.modifyBindings, beside.scopes]
  trees := beside.trees
  kept := beside.kept
  changes := beside.changes

theorem beside_afterParsing (w : World) (id : ScopeId) (path : String) : w.Beside (w.afterParsing id path) := by
  rcases afterParsing_eq id path w with same | ⟨paths, same⟩
  · rw [same]
    exact .refl w
  · rw [same]
    exact beside_modifySession w id _

theorem beside_called (w : World) (name : String) (params : Json) : w.Beside (w.record (.called name params)) where
  scopes := rfl
  trees := rfl
  kept := List.Subset.refl _
  changes := by simp [World.changes, record]

theorem beside_navigated (w : World) (target : Json) : w.Beside (w.record (.navigated target)) where
  scopes := rfl
  trees := rfl
  kept := List.Subset.refl _
  changes := by simp [World.changes, record]

theorem beside_emit (w : World) (id : ScopeId) (event : String) (data : Json) : w.Beside (w.emit id event data) := by
  unfold emit
  split
  · split
    · exact ⟨rfl, rfl, List.Subset.refl _, by simp [World.changes, record]⟩
    · exact .refl w
  · exact .refl w

theorem method?_of_shape {id : ScopeId} {up : Option ScopeId} {tree : TreeId} {shared : Tree}
    (found : w.shape? id = some (up, tree)) (there : w.trees.find? tree = some shared) (name : String) :
    w.method? id name = shared.methods.lookup name := by
  have inTree : w.tree? id = some shared := tree?_eq_some_iff.mpr ⟨up, tree, found, there⟩
  simp [World.method?, methods, inTree]

theorem quiet_of_shape {id : ScopeId} {up : Option ScopeId} {tree : TreeId} {shared : Tree}
    (found : w.shape? id = some (up, tree)) (there : w.trees.find? tree = some shared) (quiet : shared.Quiet)
    (name : String) (method : Method) (known : w.method? id name = some method) (params : Json) :
    (method params).Quiet := by
  rw [method?_of_shape found there] at known
  exact quiet name method known params

theorem Beside.method? (beside : w.Beside after) (id : ScopeId) (name : String) :
    after.method? id name = w.method? id name := by
  simp only [World.method?, methods, tree?, scope?, beside.scopes, beside.trees]

theorem Beside.keptByEvaluation (w : World) : KeptByEvaluation w.Beside :=
  .of_sessions fun id change _ beside => beside.trans (beside_modifySession _ id change)

end

end World

namespace Execute

open World (Beside)

section

variable {w : World}

theorem modifyWorld_beside {change : World → World} (same : ∀ v : World, v.Beside (change v)) :
    Keeps (fun m => w.Beside m.world) (modifyWorld change) :=
  fun m beside => beside.trans (same m.world)

theorem navigateBy_beside (navigator : Navigator) (target : Json) :
    Keeps (fun m => w.Beside m.world) (navigateBy navigator target) := by
  have told : Keeps (fun m => w.Beside m.world) (modifyWorld (World.record (.navigated target))) :=
    modifyWorld_beside fun u => u.beside_navigated target
  cases navigator with
  | accepts => exact told
  | refuses reason => exact told.bind fun _ => Keeps.throw _
  | absent => exact Keeps.throw _

variable {reenter : Reenter} {budget : Budget} {id : ScopeId}

theorem answer_beside {request : Request} (quiet : request.Quiet) :
    Keeps (fun m => w.Beside m.world) (answer reenter budget id request) := by
  have session {v : World} (id : ScopeId) (change : Session → Session)
      (_ : ∀ session, (change session).pool = session.pool) (beside : w.Beside v) :
      w.Beside (v.modifySession id change) := beside.trans (World.beside_modifySession v id change)
  have later {v : World} (time : Nat) (beside : w.Beside v) : w.Beside { v with clock := time } :=
    beside.trans ⟨rfl, rfl, List.Subset.refl _, rfl⟩
  cases request with
  | getPath path => exact (World.keeps_getPath session id path).onWorld
  | evaluate source => exact ((Beside.keptByEvaluation w).evaluate id source).onWorld
  | describe => exact Keeps.get.bind fun _ => Keeps.pure _
  | suspend => exact (Keeps.suspend budget).then _
  | hang => exact (Keeps.hang later budget).then _
  | keep =>
    have held (v : World) : v.Beside { v with kept := id :: v.kept } :=
      ⟨rfl, rfl, List.subset_cons_self _ _, rfl⟩
    exact (modifyWorld_beside held).then _
  | block ms =>
    have later (v : World) : v.Beside { v with clock := v.clock + ms } :=
      ⟨rfl, rfl, List.Subset.refl _, rfl⟩
    exact (modifyWorld_beside later).then _
  | setPath | bind | execute => exact quiet.elim

theorem interact_beside {interaction : Interaction} (quiet : interaction.Quiet) :
    Keeps (fun m => w.Beside m.world) ((caller reenter budget).interact id interaction) := by
  induction interaction with
  | done value | failed failure => exact Keeps.pure _
  | ask request next ih =>
    have answering : Keeps (fun m => w.Beside m.world) (attempt (answer reenter budget id request)) := by
      rw [attempt_eq]
      exact answer_beside quiet.1
    exact answering.bind fun response => ih response (quiet.2 response)

theorem invoke_beside {method : Method} {params : Json} (quiet : (method params).Quiet) (name : String) :
    Keeps (fun m => w.Beside m.world) ((caller reenter budget).invoke id name method params) := by
  refine (modifyWorld_beside fun v => v.beside_called name params).bind fun _ => ?_
  refine (interact_beside quiet).bind fun outcome => ?_
  cases outcome with
  | ok value => exact Keeps.pure _
  | error failure => exact Keeps.throw _

/-- An action first comes to know what it writes, and then writes it. -/
theorem Writing.perform_ok {writing : Writing} {m after : Machine}
    (prepares : Keeps (fun n => m.world.Beside n.world) writing.prepare)
    (ran : (writing.perform id).run m = (.ok (), after)) :
    match writing with
    | .value path prepared => ∃ v between, (prepared.run m).1 = .ok v ∧ m.world.Beside between ∧
        ((World.setPath id path v).run between).1 = .ok () ∧ after.world = ((World.setPath id path v).run between).2
    | .edit path prepared => ∃ change between, (prepared.run m).1 = .ok change ∧ m.world.Beside between ∧
        ((World.editArray id path change).run between).1 = .ok () ∧
        after.world = ((World.editArray id path change).run between).2 := by
  have beside {α : Type} {prepared : ExecuteM α} {a : α} {between : Machine}
      (same : writing.prepare = prepared >>= fun _ => pure ())
      (known : prepared.run m = (.ok a, between)) : m.world.Beside between.world := by
    have kept := prepares m (.refl m.world)
    rwa [same, run_bind, known] at kept
  cases writing with
  | value path prepared =>
    obtain ⟨v, between, known, wrote⟩ := run_bind_eq_ok.mp ran
    obtain ⟨success, rfl⟩ := run_onWorld_eq_ok.mp wrote
    exact ⟨v, between.world, by rw [known], beside rfl known, success, rfl⟩
  | edit path prepared =>
    obtain ⟨change, between, known, wrote⟩ := run_bind_eq_ok.mp ran
    obtain ⟨success, rfl⟩ := run_onWorld_eq_ok.mp wrote
    exact ⟨change, between.world, by rw [known], beside rfl known, success, rfl⟩

variable (quiet : ∀ name method, w.method? id name = some method → ∀ params, (method params).Quiet)

include quiet

/-- A method of the scope is called, if there is one. -/
theorem called_beside {α : Type} {name : String} {absent : ExecuteM α} {next : Method → ExecuteM α}
    (missing : Keeps (fun m => w.Beside m.world) absent)
    (present : ∀ method, (∀ params, (method params).Quiet) → Keeps (fun m => w.Beside m.world) (next method)) :
    Keeps (fun m => w.Beside m.world) (do
      match ← (caller reenter budget).read (·.method? id name) with
      | none => absent
      | some method => next method) := by
  refine Keeps.reading fun v beside => ?_
  rw [beside.method?]
  cases found : w.method? id name with
  | none => exact missing
  | some method => exact present method (quiet name method found)

theorem callResult_beside (name : String) (params : Option Json) :
    Keeps (fun m => w.Beside m.world) (callResult reenter budget id name params) :=
  called_beside quiet (Keeps.throw _) fun _ calm =>
    ((Beside.keptByEvaluation w).params id params).onWorld.bind fun v => invoke_beside (calm v) name

/-- What an action does before it writes leaves scopes and trees alone. -/
theorem Writing.prepare_beside {action : Action} {writing : Writing}
    (found : writing? reenter budget id action = some writing) :
    Keeps (fun m => w.Beside m.world) writing.prepare :=
  Writing.keeps_prepare found (Beside.keptByEvaluation w) fun method params _ =>
    callResult_beside quiet method params

theorem navigate_beside (target : Json) :
    Keeps (fun m => w.Beside m.world) ((caller reenter budget).navigate id target) := by
  refine ((Beside.keptByEvaluation w).param id target).onWorld.bind fun v => ?_
  refine Keeps.reading fun u beside => ?_
  cases found : navigateMethods.findSome? fun name => (u.method? id name).map (name, ·) with
  | some named =>
    obtain ⟨name, method⟩ := named
    obtain ⟨other, _, given⟩ := List.exists_of_findSome?_eq_some found
    obtain ⟨method', there, same⟩ := Option.map_eq_some_iff.mp given
    cases same
    rw [beside.method?] at there
    exact (invoke_beside (quiet name method there v) name).bind fun _ => Keeps.pure _
  | none => exact Keeps.reading fun _ _ => navigateBy_beside _ v

/-- An action that makes no write leaves scopes and trees alone. -/
theorem perform_beside {action : Action} (idle : writing? reenter budget id action = none) (raw : Json) :
    Keeps (fun m => w.Beside m.world) (perform reenter budget id raw action) := by
  have param (v : Json) : Keeps (fun m => w.Beside m.world) (onWorld (World.evaluateParam id v)) :=
    ((Beside.keptByEvaluation w).param id v).onWorld
  cases action with
  | set | push | pop | shift | unshift | splice => cases idle
  | call method params resultTo =>
    cases resultTo with
    | some path => cases idle
    | none =>
      rw [perform, Caller.perform, call_eq]
      exact (callResult_beside quiet method params).bind fun _ => Keeps.pure _
  | emit event data =>
    have fired (v : Json) : Keeps (fun m => w.Beside m.world) (modifyWorld (World.emit id event v)) :=
      modifyWorld_beside fun u => u.beside_emit id event v
    cases data with
    | none => exact (Keeps.pure _).bind fired
    | some data => exact (param data).bind fired
  | navigate target => exact navigate_beside quiet target
  | log level message => exact (param message).bind fun _ => Keeps.pure _
  | custom kind =>
    refine called_beside quiet (Keeps.throw _) fun method calm => ?_
    exact (invoke_beside (calm raw) kind).bind fun _ => Keeps.pure _

end

end Execute

end StateScript
