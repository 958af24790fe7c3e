import StateScript.Execute.Call
import StateScript.Proofs.FaithfulWrites
import StateScript.Proofs.Lifetimes

/-!
No run of operations leaves a stale result. As long as no scope binds a builtin, each result that is
kept is what the root of its tree evaluates to, so keeping results never changes an answer.
-/

namespace StateScript

/-- The action edits the array at a path. -/
def Action.EditsArray : Action → Prop
  | .push .. | .pop _ | .shift _ | .unshift .. | .splice .. => True
  | _ => False

namespace World

/-- One operation on the scopes that a host holds, in any of them. -/
inductive Move (w : World) : World → Prop
  | addSession (loopPool pathCache : Nat) : Move w (w.addSession (.ofCapacities loopPool pathCache)).2
  | create (spec : ContextSpec) (session : SessionId) : Move w ((create spec session).run w).2
  | addChild (parent : ScopeId) (bindings : Members) : Move w (w.addChild parent bindings).2
  | addLoop (parent : ScopeId) (var indexVar : String) (item index : Json) :
      Move w (w.addLoop parent var indexVar item index).2
  | release (id : ScopeId) (others : List ScopeId) : Move w ((w.release id others).collect others)
  | collect (handles : List ScopeId) : Move w (w.collect handles)
  | set (id : ScopeId) (key : String) (value : Json) : Move w ((set id key value).run w).2
  | setPath {id : ScopeId} {path : String} {value : Json} :
      ((setPath id path value).run w).1.isOk = true → Move w ((setPath id path value).run w).2
  | updatePath {α : Type} (id : ScopeId) (path : String)
      (change : Option Json → Except Error (Option Json × α)) : Move w ((updatePath id path change).run w).2
  | perform {reenter : Execute.Reenter} {budget : Budget} {id : ScopeId} {raw : Json} {action : Action}
      {steps : Nat} : action.EditsArray →
      Move w ((Execute.perform reenter budget id raw action).run ⟨w, steps⟩).2.world
  | evaluate (id : ScopeId) (source : String) : Move w ((evaluate id source).run w).2
  | interpolate (id : ScopeId) (template : String) : Move w ((interpolate id template).run w).2
  | resolveValue (id : ScopeId) (value : Json) : Move w ((resolveValue id value).run w).2
  | invalidate (id : ScopeId) (path : String) : Move w (w.invalidate id path)
  | clearCaches (id : ScopeId) : Move w (w.modifySession id Session.clearCaches)

/-- What operations make of the empty world while no scope binds a builtin. -/
inductive Reached : World → Prop
  | start : Reached {}
  | next {w after} : Reached w → w.Move after → after.BuiltinFree → Reached after

theorem Trusted.empty : Trusted {} := by
  refine ⟨⟨Coherent.empty, ?_⟩, ?_⟩
  · intro id session found
    cases found
  · intro id name _
    rfl

/-- The actions that edit arrays keep a world trusted, also where they fail. -/
theorem Trusted.perform {w : World} (trusted : w.Trusted) (reenter : Execute.Reenter) (budget : Budget)
    (id : ScopeId) (raw : Json) (steps : Nat) {action : Action} (edits : action.EditsArray) :
    ((Execute.perform reenter budget id raw action).run ⟨w, steps⟩).2.world.Trusted := by
  cases action with
  | push path inserted =>
    have keeps := (Trusted.keptByEvaluation.inserted id inserted).bind fun values =>
      Trusted.editArray id path (.append values)
    exact keeps w trusted
  | pop path => exact Trusted.editArray id path .dropLast w trusted
  | shift path => exact Trusted.editArray id path .dropFirst w trusted
  | unshift path inserted =>
    have keeps := (Trusted.keptByEvaluation.inserted id inserted).bind fun values =>
      Trusted.editArray id path (.prepend values)
    exact keeps w trusted
  | splice path start deleteCount items =>
    have keeps := (Trusted.keptByEvaluation.splice id start deleteCount items).bind fun edit =>
      Trusted.editArray id path edit
    exact keeps w trusted
  | _ => cases edits

/-- A step keeps a world trusted. -/
theorem Trusted.move {w after : World} (trusted : w.Trusted) (move : w.Move after) (free : after.BuiltinFree) :
    after.Trusted := by
  have faithful := trusted.faithful
  cases move with
  | addSession loopPool pathCache => exact ⟨faithful.addSession loopPool pathCache, free⟩
  | create spec session => exact ⟨faithful.create spec session, free⟩
  | addChild parent bindings => exact ⟨faithful.addChild parent bindings, free⟩
  | addLoop parent var indexVar item index => exact ⟨faithful.addLoop parent var indexVar item index, free⟩
  | release id others => exact ⟨faithful.release id others, free⟩
  | collect handles => exact ⟨faithful.collect handles, free⟩
  | set id key value => exact ⟨faithful.set free, free⟩
  | setPath success => exact ⟨faithful.setPath success free, free⟩
  | updatePath id path change => exact trusted.updatePath id path change
  | perform edits => exact trusted.perform _ _ _ _ _ edits
  | evaluate id source => exact Trusted.keptByEvaluation.evaluate id source w trusted
  | interpolate id template => exact Trusted.keptByEvaluation.interpolate id template w trusted
  | resolveValue id value => exact Trusted.keptByEvaluation.resolveValue id value w trusted
  | invalidate id path => exact trusted.invalidate id path
  | clearCaches id => exact ⟨faithful.clearCaches id, free⟩

theorem Reached.trusted {w : World} (reached : w.Reached) : w.Trusted := by
  induction reached with
  | start => exact Trusted.empty
  | next _ move free ih => exact ih.move move free

theorem evalOptions_of_shape {w : World} {id : ScopeId} {up : Option ScopeId} {tree : TreeId} {shared : Tree}
    (found : w.shape? id = some (up, tree)) (there : w.trees.find? tree = some shared) :
    w.evalOptions id = shared.options := by
  have member : w.tree? id = some shared := tree?_eq_some_iff.mpr ⟨up, tree, found, there⟩
  simp [evalOptions, member]

/-- A result that is up to date is what the root of its tree evaluates to without it. -/
theorem Faithful.evaluateAnew_of_upToDate {w : World} (faithful : w.Faithful) {session : SessionId}
    {entry : CachedResult} (upToDate : w.UpToDate session entry) {root : ScopeId}
    (top : w.shape? root = some (none, entry.scope)) :
    ((evaluateAnew root entry.source).run w).1 = .ok entry.value := by
  obtain ⟨other, shared, above, there, _, _, _, _, bare, _, value⟩ := upToDate
  obtain rfl := faithful.coherent.roots top above
  rw [faithful.evaluateAnew_eq, bare, evalOptions_of_shape top there, value]

/-- After any run, each result that is kept is what the root of its tree evaluates to without results,
and every scope evaluates every source as it would without. -/
theorem Reached.results_fresh {w : World} (reached : w.Reached) :
    (∀ id session, w.sessions.find? id = some session → ∀ entry ∈ session.engine.results,
      (∃ root, w.shape? root = some (none, entry.scope)) ∧
      ∀ root, w.shape? root = some (none, entry.scope) →
        ((evaluateAnew root entry.source).run w).1 = .ok entry.value) ∧
    ∀ id source, ((World.evaluate id source).run w).1 = ((evaluateAnew id source).run w).1 := by
  obtain ⟨faithful, free⟩ := reached.trusted
  constructor
  · intro id session found entry member
    have upToDate := (faithful.sessions found).results entry member
    refine ⟨?_, fun root => faithful.evaluateAnew_of_upToDate upToDate⟩
    obtain ⟨root, _, top, _⟩ := upToDate
    exact ⟨root, top⟩
  · intro id source
    rw [faithful.evaluate_eq id free source, faithful.evaluateAnew_eq]

theorem BuiltinFree.of_entries {w : World} (unbound : ∀ entry ∈ w.scopes.entries, ∀ name ∈ nonStateNames,
    Members.contains name entry.2.bindings = false) : w.BuiltinFree := by
  intro id name builtin
  unfold binds bindings scope?
  cases found : w.scopes.find? id with
  | none => rfl
  | some scope => exact unbound (id, scope) (Store.find?_eq_some_iff.mp found) name builtin

/-- A root and a child that hides its `a`, after the root has read it and bound `b` anew. -/
def hiddenRead : World :=
  let w := (World.addSession (.ofCapacities 10 1024) {}).2
  let w := ((create { state := .object [("a", .bool true), ("b", .bool false)] } 1).run w).2
  let w := (w.addChild 1 [("a", .null)]).2
  let w := ((evaluate 1 "a").run w).2
  ((set 1 "b" .null).run w).2

theorem hiddenRead_reached : hiddenRead.Reached := by
  refine .next (.next (.next (.next (.next .start (.addSession 10 1024) ?_) (.create _ 1) ?_)
    (.addChild 1 _) ?_) (.evaluate 1 "a") ?_) (.set 1 "b" .null) ?_
  all_goals exact BuiltinFree.of_entries (by decide +kernel)

theorem Reached.results_fresh_at_hiddenRead :
    hiddenRead.Reached ∧ (hiddenRead.sessions.find? 1).map (fun s => s.engine.results.length) = some 1 ∧
      ((World.evaluate 2 "a").run hiddenRead).1 = ((evaluateAnew 2 "a").run hiddenRead).1 :=
  ⟨hiddenRead_reached, by decide +kernel, hiddenRead_reached.results_fresh.2 2 "a"⟩

end World

end StateScript
