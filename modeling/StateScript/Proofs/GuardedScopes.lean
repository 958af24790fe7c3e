import StateScript.Proofs.CourseInvariants
import StateScript.Proofs.FaithfulWrites

/-!
Which names scopes bind while actions run. Whatever binds a name checks it, but for a loop, which
binds its variables as they are given. So no scope ever binds a denied or reserved name exactly if no
loop is given one.
-/

namespace StateScript

theorem Members.contains_insert (name key : String) (value : Json) (ms : Members) :
    contains name (insert key value ms) = true ↔ name = key ∨ contains name ms = true := by
  unfold contains
  by_cases same : name = key
  · subst same
    simp [find?_insert_self]
  · simp [find?_insert_ne same, same]

namespace World

/-- No scope binds a name that scopes must not bind. -/
def Guarded (w : World) : Prop := ∀ id name, w.binds name id = true → isBindable name = true

section

variable {w : World}

theorem Guarded.congr {after : World} (guarded : w.Guarded) (same : after.scopes = w.scopes) :
    after.Guarded := by
  intro id name bound
  rw [binds, bindings_congr same] at bound
  exact guarded id name bound

/-- A change of one scope that binds at most one new name, which may be bound. -/
theorem Guarded.modifyBindings (guarded : w.Guarded) {first : String} (bindable : isBindable first = true)
    {owner : ScopeId} {change : Members → Members}
    (adds : ∀ name, Members.contains name (change (w.bindings owner)) = true →
      name = first ∨ Members.contains name (w.bindings owner) = true) :
    (w.modifyBindings owner change).Guarded := by
  intro id name bound
  rw [binds] at bound
  by_cases target : id = owner
  · subst target
    cases present : w.scope? id with
    | none => simp [bindings, scope?_modifyBindings, present, Members.contains, Members.find?] at bound
    | some scope =>
      rw [bindings_modifyBindings_self present] at bound
      rcases adds name bound with rfl | before
      · exact bindable
      · exact guarded id name before
  · rw [bindings_modifyBindings_ne target] at bound
    exact guarded id name bound

theorem isBindable_of_checkBindable {key : String} (checked : checkBindable key = .ok ()) :
    isBindable key = true := by
  unfold checkBindable at checked
  cases allowed : isBindable key with
  | true => rfl
  | false => simp [allowed] at checked

theorem Guarded.set (id : ScopeId) (key : String) (value : Json) : Keeps Guarded (set id key value) := by
  intro w guarded
  rw [run_set]
  cases checked : checkBindable key with
  | error e => exact guarded
  | ok =>
    have bindable := isBindable_of_checkBindable checked
    have bound : (w.modifyBindings id (Members.insert key value)).Guarded :=
      guarded.modifyBindings bindable fun name => (Members.contains_insert ..).mp
    exact bound.congr (by simp)

theorem contains_assign {first : String} {rest : Path} {value : Json} {bindings : Members} {name : String}
    (bound : Members.contains name (assign first rest value bindings).1 = true) :
    name = first ∨ Members.contains name bindings = true := by
  unfold assign at bound
  split at bound
  · exact (Members.contains_insert ..).mp bound
  · dsimp only at bound
    split at bound
    · exact Or.inr bound
    · exact (Members.contains_insert ..).mp bound

theorem Guarded.setPath (id : ScopeId) (path : String) (value : Json) :
    Keeps Guarded (setPath id path value) := by
  intro w guarded
  have parsed := guarded.congr (afterParsing_scopes id path w)
  rw [run_setPath]
  cases named : target path with
  | error e => exact parsed
  | ok found =>
    obtain ⟨first, rest⟩ := found
    obtain ⟨_, _, _, _, bindable⟩ := target_ok named
    have written : ((w.afterParsing id path).modifyBindings (w.owner id first)
        fun _ => (assign first rest value (w.bindings (w.owner id first))).1).Guarded := by
      refine parsed.modifyBindings bindable fun name bound => ?_
      rw [bindings_congr (afterParsing_scopes id path w)]
      exact contains_assign bound
    dsimp only
    cases (assign first rest value (w.bindings (w.owner id first))).2 with
    | some fault => exact written
    | none => exact written.congr (by simp)

theorem contains_replaceBelow {first : String} {rest : Path} {new : Json} {bindings : Members} {name : String}
    (bound : Members.contains name (replaceBelow first rest new bindings) = true) :
    name = first ∨ Members.contains name bindings = true := by
  unfold replaceBelow at bound
  split at bound
  · exact (Members.contains_insert ..).mp bound
  · exact Or.inr bound

theorem Guarded.updatePath {α : Type} (id : ScopeId) (path : String)
    (change : Option Json → Except Error (Option Json × α)) : Keeps Guarded (updatePath id path change) := by
  intro w guarded
  have parsed := guarded.congr (afterParsing_scopes id path w)
  rw [run_updatePath]
  cases named : target path with
  | error e => exact parsed
  | ok found =>
    obtain ⟨first, rest⟩ := found
    obtain ⟨_, _, _, _, bindable⟩ := target_ok named
    dsimp only
    cases change ((Members.find? first (w.bindings (w.owner id first))).bind (Json.get? · rest)) with
    | error e => exact parsed
    | ok outcome =>
      obtain ⟨new, answer⟩ := outcome
      dsimp only
      have left old : ((w.afterParsing id path).putBack (w.owner id first) first rest old new).Guarded := by
        unfold putBack
        split
        · exact parsed.modifyBindings bindable fun name => contains_replaceBelow
        · exact parsed
      have dropped old := ((left old).congr (invalidate_scopes _ id path)).congr
        (invalidate_scopes _ id (Path.wildcardOf path))
      split
      · exact (dropped _).congr (notify_scopes ..)
      · exact dropped _

theorem Guarded.release (guarded : w.Guarded) (id : ScopeId) (others : List ScopeId) :
    (w.release id others).Guarded := by
  unfold World.release
  dsimp only
  split
  · intro other name bound
    refine guarded other name ?_
    rw [binds, bindings, scope?] at bound ⊢
    dsimp only at bound
    rw [modifySession_scopes, Store.find?_erase] at bound
    by_cases hit : other = id
    · simp [hit, Members.contains, Members.find?] at bound
    · rwa [if_neg hit] at bound
  · exact guarded.congr (modifySession_scopes ..)

theorem contains_loopBindings {name var indexVar : String} {item index : Json} :
    Members.contains name (loopBindings var indexVar item index) = true ↔
      name = "$index" ∨ name = "$item" ∨ name = indexVar ∨ name = var := by
  have empty : Members.contains name [] = false := rfl
  simp [loopBindings, bindLoop, Members.contains_insert, empty]

/-- A loop scope leaves a world guarded exactly if both its variables may be bound. -/
theorem Guarded.addLoop_iff (guarded : w.Guarded) {id : ScopeId} {scope : Scope}
    (present : w.scope? id = some scope) (var indexVar : String) (item index : Json) :
    (w.addLoop id var indexVar item index).2.Guarded ↔ isBindable var = true ∧ isBindable indexVar = true := by
  unfold Guarded
  simp only [binds, bindings_addLoop present]
  constructor
  · intro all
    have made := all w.scopes.next
    simp only [if_true, contains_loopBindings] at made
    exact ⟨made var (by simp), made indexVar (by simp)⟩
  · rintro ⟨first, second⟩ other name bound
    split at bound
    · rcases contains_loopBindings.mp bound with rfl | rfl | rfl | rfl
      · decide
      · decide
      · exact second
      · exact first
    · exact guarded other name bound

/-- A single tree is guarded if its state binds bindable names only. -/
theorem guarded_holding {state : Members}
    (bindable : ∀ name, Members.contains name state = true → isBindable name = true) :
    (holding state).Guarded := by
  intro id name bound
  have root : (holding state).bindings id = (List.lookup id [(1, Scope.mk state none 1)]).elim [] Scope.bindings :=
    rfl
  rw [binds, root, Store.lookup_cons_eq_if] at bound
  split at bound
  · exact bindable name bound
  · simp [Members.contains, Members.find?] at bound

end

end World

namespace Execute

/-- Both variables of a loop may be bound. -/
def BindableLoop (names : String × String) : Prop :=
  isBindable names.1 = true ∧ isBindable names.2 = true

theorem guarded_keptByActions : KeptByActions World.Guarded BindableLoop where
  beside untouched guarded := guarded.congr untouched.scopes
  set := World.Guarded.set
  setPath := World.Guarded.setPath
  editArray id path edit := World.Guarded.updatePath id path (World.editedArray path edit)
  release id _ guarded := guarded.release id []
  addLoop present guarded var indexVar item index := guarded.addLoop_iff present var indexVar item index

/-- From a world on in which no scope binds a denied or reserved name, this is so at every moment of a run,
whether it has a timer or not, exactly if each loop that makes a scope has bindable variables. -/
theorem guarded_throughout_iff {w : World} (guarded : w.Guarded) (id : ScopeId) (actions : List Json)
    (limits : ExecuteLimits) :
    let timed := Followed.execute id actions limits w
    let untimed := Followed.runUntimed id actions limits w
    ((timed.1, timed.2.machine.world) = execute id actions limits w ∧
      ((∀ moment ∈ timed.2.moments, moment.world.Guarded) ↔
        ∀ moment ∈ timed.2.moments, ∀ names ∈ moment.made, BindableLoop names)) ∧
    ((untimed.1, untimed.2.machine) = runUntimed id actions limits w ∧
      ((∀ moment ∈ untimed.2.moments, moment.world.Guarded) ↔
        ∀ moment ∈ untimed.2.moments, ∀ names ∈ moment.made, BindableLoop names)) :=
  ⟨guarded_keptByActions.execute_good_iff guarded id actions limits,
    guarded_keptByActions.runUntimed_good_iff guarded id actions limits⟩

/-- A loop over one item, whose variable has a given name. -/
def loopOver (var : String) : Json :=
  .object [("body", .array []), ("in", .array [.null]), ("type", .string "loop"), ("var", .string var)]

/-- A loop binds a denied name if it is told to. -/
theorem loop_may_bind_denied : (World.holding []).Guarded ∧
    ¬ ∀ moment ∈ (Followed.execute 1 [loopOver "constructor"] {} (World.holding [])).2.moments,
      moment.world.Guarded := by
  constructor
  · exact World.guarded_holding fun name bound => by cases bound
  · intro all
    have bound : (Followed.execute 1 [loopOver "constructor"] {} (World.holding [])).2.moments.any
        (fun moment => moment.world.binds "constructor" 2) = true := by decide +kernel
    obtain ⟨moment, passed, binds⟩ := List.any_eq_true.mp bound
    have bindable := all moment passed 2 "constructor" binds
    exact absurd bindable (by decide)

theorem guarded_throughout_at_loop : (World.holding []).Guarded ∧
    ∀ moment ∈ (Followed.execute 1 [loopOver "item"] {} (World.holding [])).2.moments,
      moment.world.Guarded := by
  have guarded : (World.holding []).Guarded := World.guarded_holding fun name bound => by cases bound
  have named : (Followed.execute 1 [loopOver "item"] {} (World.holding [])).2.moments.filterMap Moment.made =
      [("item", "index")] := by decide +kernel
  obtain ⟨⟨_, throughout⟩, _⟩ := guarded_throughout_iff guarded 1 [loopOver "item"] {}
  refine ⟨guarded, throughout.mpr fun moment passed names made => ?_⟩
  have listed : names ∈ [("item", "index")] := named ▸ List.mem_filterMap.mpr ⟨moment, passed, made⟩
  rw [List.mem_singleton.mp listed]
  exact ⟨by decide, by decide⟩

end Execute

end StateScript
