import StateScript.Proofs.CleanValues
import StateScript.Proofs.QuietMethods
import StateScript.Proofs.ScopeNumbers
import StateScript.Proofs.WriteReads

/-!
What the host is told of the changes in a root. Scopes come and go below it and actions write through all of
them, yet the changes that the host has been told of rebuild the state of the root from what it was.
-/

namespace StateScript

namespace World

/-- Sets values at their paths, one after the other. -/
def replay (id : ScopeId) : List (String × Json) → WorldM Unit
  | [] => return
  | (path, value) :: rest => do
    setPath id path value
    replay id rest

/-- Set through any root with the bindings before, all the values get in, and leave the bindings after. -/
def Rebuilds (log : List (String × Json)) (before after : Members) : Prop :=
  ∀ (w : World) (root : ScopeId) (tree : TreeId), w.scope? root = some ⟨before, none, tree⟩ →
    ∃ rebuilt, (replay root log).run w = (.ok (), rebuilt) ∧ rebuilt.scope? root = some ⟨after, none, tree⟩

theorem replay_append (id : ScopeId) (log more : List (String × Json)) :
    replay id (log ++ more) = replay id log >>= fun _ => replay id more := by
  induction log with
  | nil => rfl
  | cons change rest ih =>
    obtain ⟨path, value⟩ := change
    simp only [List.cons_append, replay, ih, bind_assoc]

section

variable {before between after : Members}

theorem Rebuilds.nil (bindings : Members) : Rebuilds [] bindings bindings :=
  fun w _ _ present => ⟨w, rfl, present⟩

theorem Rebuilds.append {log more : List (String × Json)} (first : Rebuilds log before between)
    (second : Rebuilds more between after) : Rebuilds (log ++ more) before after := by
  intro w root tree present
  obtain ⟨middle, ran, there⟩ := first w root tree present
  obtain ⟨rebuilt, ranOn, arrives⟩ := second middle root tree there
  refine ⟨rebuilt, ?_, arrives⟩
  rw [replay_append, run_bind, ran]
  exact ranOn

/-- A value that is set through a root is assigned in it. -/
theorem Rebuilds.single {path first : String} {rest : Path} {value : Json}
    (named : target path = .ok (first, rest)) (assigned : assign first rest value before = (after, none)) :
    Rebuilds [(path, value)] before after := by
  intro w root tree present
  have own : w.bindings root = before := by simp [bindings, present]
  have success : ((setPath root path value).run w).1 = .ok () := by
    rw [run_setPath, named]
    simp only [owner_of_root present rfl, own, assigned]
  obtain ⟨_, _, again, _, scopes⟩ := setPath_succeeds success
  rw [named] at again
  cases again
  refine ⟨((setPath root path value).run w).2, ?_, ?_⟩
  · have ran : (setPath root path value).run w = (.ok (), ((setPath root path value).run w).2) := Prod.ext success rfl
    rw [replay, run_bind, ran]
    rfl
  · rw [scope?, scopes, owner_of_root present rfl, own, assigned]
    refine (scope?_modifyBindings w root root _).trans ?_
    rw [if_pos rfl, present]
    rfl

end

/-- The host is told of a change exactly where it lands in a root. -/
theorem changes_notify {w : World} {id : ScopeId} {up : Option ScopeId} {tree : TreeId} {shared : Tree}
    (found : w.shape? id = some (up, tree)) (there : w.trees.find? tree = some shared)
    (observes : shared.observes = true) (path : String) (value : Json) :
    (w.notify id path value).changes = w.changes ++ if up.isNone then [(path, value)] else [] := by
  have member : w.tree? id = some shared := tree?_eq_some_iff.mpr ⟨up, tree, found, there⟩
  obtain ⟨_, present⟩ := shape?_eq_some_iff.mp found
  simp only [notify, member, observes, isRoot, present, Bool.true_and]
  cases up with
  | none => simp [changes, record]
  | some parent => simp

/-- A scope below which nothing stands may go by itself. -/
theorem Coherent.drop {w : World} (coherent : w.Coherent) {id : ScopeId} (others : List ScopeId)
    (bare : ∀ child tree, w.shape? child ≠ some (some id, tree)) : (w.release id others).Coherent := by
  obtain ⟨_, trees, _, _⟩ := release_eq w id others
  have older {other : ScopeId} {shape : Option ScopeId × TreeId}
      (found : (w.release id others).shape? other = some shape) : w.shape? other = some shape := by
    rcases scope?_release w id other others with same | ⟨_, gone⟩
    · rw [shape?, same] at found
      exact found
    · simp [shape?, gone] at found
  constructor
  · exact fun found => coherent.older (older found)
  · intro child parent tree found
    obtain ⟨up, there⟩ := coherent.parents (older found)
    refine ⟨up, ?_⟩
    rcases scope?_release w id parent others with same | ⟨hit, _⟩
    · rw [shape?, same]
      exact there
    · exact absurd (older found) (hit ▸ bare child tree)
  · intro other up tree found
    rw [trees]
    exact coherent.trees (older found)
  · exact fun first second => coherent.roots (older first) (older second)

/-- The scopes form trees, and a clean root stands on top of a certain one. -/
structure Observed (root : ScopeId) (tree : TreeId) (shared : Tree) (w : World) : Prop where
  coherent : w.Coherent
  top : w.shape? root = some (none, tree)
  there : w.trees.find? tree = some shared
  clean : (Json.object (w.bindings root)).Clean

/-- The root stands as before, and what the host has been told of meanwhile rebuilds its bindings. -/
structure Mirrored (root : ScopeId) (tree : TreeId) (shared : Tree) (log : List (String × Json))
    (w after : World) : Prop where
  observed : Observed root tree shared after
  changes : after.changes = w.changes ++ log
  rebuilds : Rebuilds log (w.bindings root) (after.bindings root)

section

variable {root : ScopeId} {tree : TreeId} {shared : Tree} {w between after : World}

theorem Mirrored.trans {log more : List (String × Json)} (first : Mirrored root tree shared log w between)
    (second : Mirrored root tree shared more between after) :
    Mirrored root tree shared (log ++ more) w after where
  observed := second.observed
  changes := by rw [second.changes, first.changes, List.append_assoc]
  rebuilds := first.rebuilds.append second.rebuilds

variable (observed : Observed root tree shared w)

include observed

/-- What happens away from the root. -/
theorem Observed.still (coherent : after.Coherent) (same : after.scope? root = w.scope? root)
    (there : after.trees.find? tree = some shared) (changes : after.changes = w.changes) :
    Mirrored root tree shared [] w after := by
  have bindings : after.bindings root = w.bindings root := by rw [World.bindings, same, World.bindings]
  refine ⟨⟨coherent, ?_, there, ?_⟩, ?_, ?_⟩
  · rw [shape?, same]
    exact observed.top
  · rw [bindings]
    exact observed.clean
  · rw [changes, List.append_nil]
  · rw [bindings]
    exact Rebuilds.nil _

theorem Observed.beside (beside : w.Beside after) : Mirrored root tree shared [] w after := by
  refine observed.still (observed.coherent.congr (shape?_congr beside.scopes) beside.trees) ?_ ?_ beside.changes
  · rw [scope?, beside.scopes, scope?]
  · rw [beside.trees]
    exact observed.there

theorem Observed.addChild (parent : ScopeId) (bindings : Members) :
    Mirrored root tree shared [] w (w.addChild parent bindings).2 := by
  unfold World.addChild
  cases present : w.scope? parent with
  | none => exact observed.beside (.refl w)
  | some scope =>
    have found : w.shape? parent = some (scope.parent, scope.tree) := by simp [shape?, present]
    refine observed.still (observed.coherent.addScope_child found bindings) ?_ observed.there rfl
    exact (scope?_addScope _ root).trans (if_neg (ne_next observed.top))

theorem Observed.addLoop (parent : ScopeId) (var indexVar : String) (item index : Json) :
    Mirrored root tree shared [] w (w.addLoop parent var indexVar item index).2 := by
  have drawn := observed.beside (beside_modifySession w parent fun s => { s with pool := s.pool.acquire.2 })
  exact drawn.trans (drawn.observed.addChild parent _)

theorem Observed.collect {handles : List ScopeId} (held : root ∈ w.live handles) :
    Mirrored root tree shared [] w (w.collect handles) := by
  obtain ⟨_, present⟩ := shape?_eq_some_iff.mp observed.top
  refine observed.still observed.coherent.collect ?_ ?_ rfl
  · rw [present]
    exact scope?_collect.mpr ⟨held, present⟩
  · rw [tree_collect, if_pos (liveTree_iff.mpr ⟨root, none, held, observed.top⟩)]
    exact observed.there

theorem Observed.release (id : ScopeId) {others : List ScopeId} (held : root ∈ w.live others) :
    Mirrored root tree shared [] w ((w.release id others).collect others) := by
  obtain ⟨vars, same⟩ := collect_release w id others
  have counted := observed.beside
    (beside_modifySession w id fun s => { s with pool := s.pool.release vars })
  rw [same]
  refine counted.trans (counted.observed.collect ?_)
  have chains : (w.modifySession id fun s => { s with pool := s.pool.release vars }).chain = w.chain :=
    funext (chain_congr (modifySession_scopes ..))
  rw [live, modifySession_kept, chains]
  exact held

theorem Observed.drop {id : ScopeId} (others : List ScopeId) (different : id ≠ root)
    (bare : ∀ child tree, w.shape? child ≠ some (some id, tree)) :
    Mirrored root tree shared [] w (w.release id others) := by
  obtain ⟨events, trees, _, _⟩ := release_eq w id others
  refine observed.still (observed.coherent.drop others bare) ?_ ?_ ?_
  · rcases scope?_release w id root others with same | ⟨hit, _⟩
    · exact same
    · exact absurd hit.symm different
  · rw [trees]
    exact observed.there
  · rw [changes, events, changes]

/-- What is written in a scope of the tree lands in the root or below it. -/
theorem Observed.owner_cases {id : ScopeId} {up : Option ScopeId} (found : w.shape? id = some (up, tree))
    (name : String) : w.owner id name = root ∨
      w.owner id name ≠ root ∧ ∃ above, w.shape? (w.owner id name) = some (some above, tree) := by
  obtain ⟨below, above, split, _⟩ := observed.coherent.chain_owner found name
  have member : w.owner id name ∈ w.chain id := by
    rw [split]
    exact List.mem_append_right _ (List.mem_cons_self ..)
  obtain ⟨upper, own⟩ := observed.coherent.mem_chain found member
  cases upper with
  | none => exact Or.inl (observed.coherent.roots own observed.top)
  | some above =>
    refine Or.inr ⟨fun same => ?_, above, own⟩
    rw [same, observed.top] at own
    cases own

variable {owner : ScopeId} {change : Members → Members} (observes : shared.observes = true)
  (beside : (w.modifyBindings owner change).Beside after)

include beside

/-- The host is told of a value that is assigned in the root. -/
theorem Observed.assigned (observes : shared.observes = true) (own : owner = root) {path first : String} {rest : Path}
    {value : Json} (named : target path = .ok (first, rest)) (clean : value.Clean)
    (assigned : assign first rest value (w.bindings root) = (change (w.bindings root), none)) :
    Mirrored root tree shared [(path, value)] w (after.notify owner path value) := by
  subst own
  have shapes := shape?_of_modified beside.scopes
  have there : after.trees.find? tree = some shared := by
    rw [beside.trees]
    exact observed.there
  have top : after.shape? owner = some (none, tree) := (shapes owner).trans observed.top
  have told : (after.notify owner path value).changes = w.changes ++ [(path, value)] := by
    rw [changes_notify top there observes, beside.changes]
    rfl
  obtain ⟨_, present⟩ := shape?_eq_some_iff.mp observed.top
  have bindings : (after.notify owner path value).bindings owner = change (w.bindings owner) := by
    rw [bindings_congr (notify_scopes ..), bindings_congr beside.scopes]
    exact bindings_modifyBindings_self present change
  obtain ⟨_, _, _, _, bindable⟩ := target_ok named
  have kept : (Json.object (change (w.bindings owner))).Clean := by
    have written := clean_assign observed.clean clean (isDenied_of_isBindable bindable) (congrArg Prod.snd assigned)
    rwa [assigned] at written
  have still : Observed owner tree shared (after.notify owner path value) := by
    refine ⟨observed.coherent.congr (fun scope => ?_) ?_, ?_, ?_, ?_⟩
    · exact (shape?_congr (notify_scopes ..) scope).trans (shapes scope)
    · exact (notify_trees ..).trans beside.trees
    · exact (shape?_congr (notify_scopes ..) owner).trans top
    · exact (congrArg _ (notify_trees ..)).trans there
    · rw [bindings]
      exact kept
  refine ⟨still, told, ?_⟩
  rw [bindings]
  exact Rebuilds.single named assigned

theorem Observed.elsewhere {above : ScopeId} (own : w.shape? owner = some (some above, tree)) :
    Mirrored root tree shared [] w after := by
  have shapes := shape?_of_modified beside.scopes
  have different : root ≠ owner := by
    rintro rfl
    rw [observed.top] at own
    cases own
  refine observed.still (observed.coherent.congr shapes beside.trees) ?_ ?_ beside.changes
  · rw [scope?, beside.scopes]
    exact (scope?_modifyBindings w owner root change).trans (if_neg different)
  · rw [beside.trees]
    exact observed.there

theorem Observed.notified_elsewhere (observes : shared.observes = true) {above : ScopeId}
    (own : w.shape? owner = some (some above, tree)) (path : String) (value : Json) :
    Mirrored root tree shared [] w (after.notify owner path value) := by
  have here := observed.elsewhere beside own
  have below : after.shape? owner = some (some above, tree) := (shape?_of_modified beside.scopes owner).trans own
  refine here.trans (here.observed.beside ⟨notify_scopes .., notify_trees .., ?_, ?_⟩)
  · rw [notify_eq]
    exact List.Subset.refl _
  · rw [changes_notify below here.observed.there observes]
    exact List.append_nil _

end

section

variable {id : ScopeId} {path : String} {w : World}

/-- After a write that succeeds nothing has happened but the write in the owner, and the host may be told. -/
theorem setPath_tells {value : Json} (success : ((setPath id path value).run w).1 = .ok ()) :
    ∃ first rest left, target path = .ok (first, rest) ∧
      (assign first rest value (w.bindings (w.owner id first))).2 = none ∧
      (w.modifyBindings (w.owner id first) fun _ =>
        (assign first rest value (w.bindings (w.owner id first))).1).Beside left ∧
      ((setPath id path value).run w).2 = left.notify (w.owner id first) path value := by
  obtain ⟨first, rest, named, assigned, _⟩ := setPath_succeeds success
  have beside := ((beside_afterParsing w id path).modifyBindings (w.owner id first) fun _ =>
    (assign first rest value (w.bindings (w.owner id first))).1).trans (beside_invalidate _ id path)
  refine ⟨first, rest, _, named, assigned, beside, ?_⟩
  rw [run_setPath, named]
  simp only [assigned]

theorem editArray_tells {edit : ArrayEdit} (success : ((editArray id path edit).run w).1 = .ok ()) :
    ∃ first rest items left, target path = .ok (first, rest) ∧
      (Members.find? first (w.bindings (w.owner id first))).bind (Json.get? · rest) = some (.array items) ∧
      (w.modifyBindings (w.owner id first) (replaceBelow first rest (.array (edit.apply items)))).Beside left ∧
      ((editArray id path edit).run w).2 =
        match (Members.find? first (left.bindings (w.owner id first))).bind (Json.get? · rest) with
        | some value => left.notify (w.owner id first) path value
        | none => left := by
  unfold editArray at success ⊢
  rw [run_updatePath] at success ⊢
  cases named : target path with
  | error e =>
    rw [named] at success
    cases success
  | ok found =>
    obtain ⟨first, rest⟩ := found
    rw [named] at success
    dsimp only at success ⊢
    cases held : (Members.find? first (w.bindings (w.owner id first))).bind (Json.get? · rest) with
    | none =>
      rw [held] at success
      cases success
    | some old =>
      cases old with
      | array items =>
        have beside := ((beside_afterParsing w id path).modifyBindings (w.owner id first)
          (replaceBelow first rest (.array (edit.apply items)))).trans
            ((beside_invalidate _ id path).trans (beside_invalidate _ id (Path.wildcardOf path)))
        exact ⟨first, rest, items, _, rfl, held, beside, rfl⟩
      | _ =>
        rw [held] at success
        cases success

end

section

variable {root id : ScopeId} {tree : TreeId} {shared : Tree} {w : World} (observed : Observed root tree shared w)
  (observes : shared.observes = true) {up : Option ScopeId} (found : w.shape? id = some (up, tree)) {path : String}

include observed observes found

theorem Observed.setPath {value : Json} (clean : value.Clean)
    (success : ((setPath id path value).run w).1 = .ok ()) : ∃ first rest, target path = .ok (first, rest) ∧
      Mirrored root tree shared (if w.owner id first = root then [(path, value)] else []) w
        ((setPath id path value).run w).2 := by
  obtain ⟨first, rest, left, named, assigned, beside, same⟩ := setPath_tells success
  refine ⟨first, rest, named, ?_⟩
  rw [same]
  rcases observed.owner_cases found first with own | ⟨apart, above, own⟩
  · rw [if_pos own]
    refine observed.assigned beside observes own named clean ?_
    rw [own] at assigned
    rw [own]
    exact Prod.ext rfl assigned
  · rw [if_neg apart]
    exact observed.notified_elsewhere beside observes own path value

theorem Observed.editArray {edit : ArrayEdit} (clean : ∀ v ∈ edit.values, v.Clean)
    (success : ((editArray id path edit).run w).1 = .ok ()) :
    ∃ first rest value, target path = .ok (first, rest) ∧
      Mirrored root tree shared (if w.owner id first = root then [(path, value)] else []) w
        ((editArray id path edit).run w).2 := by
  obtain ⟨first, rest, items, left, named, held, beside, same⟩ := editArray_tells success
  refine ⟨first, rest, .array (edit.apply items), named, ?_⟩
  rw [same]
  rcases observed.owner_cases found first with own | ⟨apart, above, own⟩
  · rw [own] at held beside ⊢
    have assigned := replaceBelow_eq_assign observed.clean held (.array (edit.apply items))
    have now := find?_assign_self (congrArg Prod.snd assigned)
    obtain ⟨_, present⟩ := shape?_eq_some_iff.mp observed.top
    have written := bindings_modifyBindings_self present (replaceBelow first rest (.array (edit.apply items)))
    rw [assigned, ← written, ← bindings_congr beside.scopes] at now
    rw [if_pos rfl]
    simp only [now]
    exact observed.assigned beside observes rfl named (clean_apply observed.clean clean held) assigned
  · rw [if_neg apart]
    split
    · exact observed.notified_elsewhere beside observes own path _
    · exact observed.elsewhere beside own

end

end World

namespace Execute

open World (Mirrored Observed replay target)

/-- A write that an action makes: the scope that it is made in, and the machine before it. -/
structure Write where
  id : ScopeId
  writing : Writing
  before : Machine

namespace Write

def path (write : Write) : String := write.writing.path

/-- Nothing that is written has a denied name in it. -/
def Clean (write : Write) : Prop :=
  match write.writing with
  | .value _ prepared => ∀ v, (prepared.run write.before).1 = .ok v → v.Clean
  | .edit _ prepared => ∀ change, (prepared.run write.before).1 = .ok change → ∀ v ∈ change.values, v.Clean

/-- Whether a scope owns the first name of the path at that moment. -/
def landsIn (scope : ScopeId) (write : Write) : Bool :=
  match target write.path with
  | .ok (first, _) => write.before.world.owner write.id first == scope
  | .error _ => false

end Write

/-- One thing that happens while a host holds on to a root, and the write that is made, if any. Sessions and the
clock go on, scopes come and go, and an action writes through some scope of the tree. -/
inductive Turn (root : ScopeId) (tree : TreeId) (w : World) : List Write → World → Prop
  | beside {after : World} : w.Beside after → Turn root tree w [] after
  | addChild (parent : ScopeId) (bindings : Members) : Turn root tree w [] (w.addChild parent bindings).2
  | addLoop (parent : ScopeId) (var indexVar : String) (item index : Json) :
      Turn root tree w [] (w.addLoop parent var indexVar item index).2
  | drop {id : ScopeId} (others : List ScopeId) : id ≠ root →
      (∀ child tree, w.shape? child ≠ some (some id, tree)) → Turn root tree w [] (w.release id others)
  | release (id : ScopeId) {others : List ScopeId} : root ∈ w.live others →
      Turn root tree w [] ((w.release id others).collect others)
  | collect {handles : List ScopeId} : root ∈ w.live handles → Turn root tree w [] (w.collect handles)
  | write {reenter : Reenter} {budget : Budget} {id : ScopeId} {up : Option ScopeId} {raw : Json}
      {action : Action} {writing : Writing} {steps : Nat} {m : Machine} :
      w.shape? id = some (up, tree) → writing? reenter budget id action = some writing →
      (perform reenter budget id raw action).run ⟨w, steps⟩ = (.ok (), m) →
      Turn root tree w [⟨id, writing, ⟨w, steps⟩⟩] m.world

/-- A run of such turns. -/
inductive Turns (root : ScopeId) (tree : TreeId) (w : World) : List Write → World → Prop
  | start : Turns root tree w [] w
  | next {writes more : List Write} {between after : World} : Turns root tree w writes between →
      Turn root tree between more after → Turns root tree w (writes ++ more) after

section

variable {root : ScopeId} {tree : TreeId} {shared : Tree} (observes : shared.observes = true)

include observes

/-- The host is told of a write in the root, and of no other, once what is written is known. -/
theorem Write.mirrored {write : Write} (observed : Observed root tree shared write.before.world)
    {up : Option ScopeId} (found : write.before.world.shape? write.id = some (up, tree)) (clean : write.Clean)
    (prepares : Keeps (fun m => write.before.world.Beside m.world) write.writing.prepare) {after : Machine}
    (ran : (write.writing.perform write.id).run write.before = (.ok (), after)) :
    ∃ log, log.map Prod.fst = ([write].filter (landsIn root)).map path ∧
      Mirrored root tree shared log write.before.world after.world := by
  obtain ⟨id, writing, m⟩ := write
  dsimp only at observed found prepares ran ⊢
  have logged {first : String} {rest : Path} (named : target writing.path = .ok (first, rest)) (value : Json) :
      (if m.world.owner id first = root then [(writing.path, value)] else []).map Prod.fst =
        ([Write.mk id writing m].filter (landsIn root)).map path := by
    have lands : Write.landsIn root ⟨id, writing, m⟩ = (m.world.owner id first == root) := by
      simp only [landsIn, path, named]
    rw [List.filter_singleton, lands]
    by_cases own : m.world.owner id first = root
    · simp [own, path]
    · have apart : (m.world.owner id first == root) = false := beq_false_of_ne own
      simp [if_neg own, apart]
  cases writing with
  | value path prepared =>
    obtain ⟨v, between, known, apart, success, same⟩ := Writing.perform_ok prepares ran
    have ready := observed.beside apart
    have there := (World.shape?_congr apart.scopes id).trans found
    obtain ⟨first, rest, named, written⟩ := ready.observed.setPath observes there (clean v known) success
    rw [World.owner_congr apart.scopes, ← same] at written
    exact ⟨_, logged named v, ready.trans written⟩
  | edit path prepared =>
    obtain ⟨change, between, known, apart, success, same⟩ := Writing.perform_ok prepares ran
    have ready := observed.beside apart
    have there := (World.shape?_congr apart.scopes id).trans found
    obtain ⟨first, rest, value, named, written⟩ :=
      ready.observed.editArray observes there (clean change known) success
    rw [World.owner_congr apart.scopes, ← same] at written
    exact ⟨_, logged named value, ready.trans written⟩

variable (quiet : shared.Quiet)
  {w : World} (observed : Observed root tree shared w)

include quiet observed

theorem Turn.mirrored {writes : List Write} {after : World} (turn : Turn root tree w writes after)
    (clean : ∀ write ∈ writes, write.Clean) :
    ∃ log, log.map Prod.fst = (writes.filter (Write.landsIn root)).map Write.path ∧
      Mirrored root tree shared log w after := by
  cases turn with
  | beside same => exact ⟨[], rfl, observed.beside same⟩
  | addChild parent bindings => exact ⟨[], rfl, observed.addChild parent bindings⟩
  | addLoop parent var indexVar item index => exact ⟨[], rfl, observed.addLoop parent var indexVar item index⟩
  | drop others different bare => exact ⟨[], rfl, observed.drop others different bare⟩
  | release id held => exact ⟨[], rfl, observed.release id held⟩
  | collect held => exact ⟨[], rfl, observed.collect held⟩
  | @write reenter budget id up raw action writing steps m found writes ran =>
    have called := World.quiet_of_shape found observed.there quiet
    have prepares := Writing.prepare_beside called writes
    rw [perform_of_writing? reenter budget id writes] at ran
    exact Write.mirrored observes observed found (clean _ (List.mem_singleton_self _)) prepares ran

theorem Turns.mirrored {writes : List Write} {after : World}
    (turns : Turns root tree w writes after) (clean : ∀ write ∈ writes, write.Clean) :
    ∃ log, log.map Prod.fst = (writes.filter (Write.landsIn root)).map Write.path ∧
      Mirrored root tree shared log w after := by
  induction turns with
  | start => exact ⟨[], rfl, observed.beside (.refl w)⟩
  | next _ turn ih =>
    rw [List.forall_mem_append] at clean
    obtain ⟨log, named, first⟩ := ih clean.1
    obtain ⟨more, namedOn, second⟩ := turn.mirrored observes quiet first.observed clean.2
    refine ⟨log ++ more, ?_, first.trans second⟩
    rw [List.map_append, named, namedOn, List.filter_append, List.map_append]

end

/-- A host that has a hook on a root with clean state can rebuild the state from what it is told. Whatever
happens in the tree and around it, as long as nothing but clean values is written and no method touches the
context, it hears of exactly the writes that land in the root, in order, each with its path. Set one after the
other through any root with the state that there was, the values that it has heard of all get in, and make the
state that there is. -/
theorem Turns.log_rebuilds {w after : World} (coherent : w.Coherent) {root : ScopeId} {tree : TreeId}
    {shared : Tree} (top : w.shape? root = some (none, tree)) (there : w.trees.find? tree = some shared)
    (observes : shared.observes = true) (clean : (w.state root).Clean) (quiet : shared.Quiet)
    {writes : List Write} (turns : Turns root tree w writes after) (cleanWrites : ∀ write ∈ writes, write.Clean) :
    ∃ log, after.changes = w.changes ++ log ∧
      log.map Prod.fst = (writes.filter (Write.landsIn root)).map Write.path ∧
      ∀ (v : World) (fresh : ScopeId) (other : TreeId), v.scope? fresh = some ⟨w.bindings root, none, other⟩ →
        ((replay fresh log).run v).1 = .ok () ∧
          ((replay fresh log).run v).2.state fresh = after.state root := by
  have state {v : World} {id : ScopeId} {bindings : Members} {t : TreeId}
      (present : v.scope? id = some ⟨bindings, none, t⟩) : v.state id = .object bindings :=
    World.state_of_root present rfl
  have bindings {v : World} {id : ScopeId} {t : TreeId} (found : v.shape? id = some (none, t)) :
      v.scope? id = some ⟨v.bindings id, none, t⟩ := by
    obtain ⟨_, present⟩ := World.shape?_eq_some_iff.mp found
    simp [World.bindings, present]
  rw [state (bindings top)] at clean
  obtain ⟨log, named, mirrored⟩ := turns.mirrored observes quiet ⟨coherent, top, there, clean⟩ cleanWrites
  refine ⟨log, mirrored.changes, named, fun v fresh other present => ?_⟩
  obtain ⟨rebuilt, ran, arrives⟩ := mirrored.rebuilds v fresh other present
  rw [ran]
  exact ⟨rfl, (state arrives).trans (state (bindings mirrored.observed.top)).symm⟩

/-- A root with a hook and an empty list. -/
def watched : World :=
  ((World.create { state := .object [("list", .array [])], observes := true } 1).run
    (World.addSession (.ofCapacities 10 1024) {}).2).2

/-- The scope of a handler below it, and a loop scope in that. -/
def watchedLoop : World :=
  ((watched.addChild 1 (World.eventBindings (.object []))).2.addLoop 2 "item" "index" .null (.nat 0)).2

/-- An action in the loop scope. -/
def inLoop (action : Action) : ExecuteM Unit := perform (fun _ _ _ => pure ()) ⟨0, {}, none⟩ 3 .null action

def pushed : World := ((inLoop (.push "list" (.value (.bool true)))).run ⟨watchedLoop, 0⟩).2.world

def eventDone : World := ((inLoop (.set "$event.done" .null)).run ⟨pushed, 0⟩).2.world

theorem turn_inLoop {action : Action} {writing : Writing} {w : World} (found : w.shape? 3 = some (some 2, 1))
    (writes : writing? (fun _ _ _ => pure ()) ⟨0, {}, none⟩ 3 action = some writing)
    (success : ((inLoop action).run ⟨w, 0⟩).1 = .ok ()) :
    Turn 1 1 w [⟨3, writing, ⟨w, 0⟩⟩] ((inLoop action).run ⟨w, 0⟩).2.world :=
  .write found writes (Prod.ext success rfl)

def loopWrites : List Write :=
  [⟨3, .edit "list" (onWorld do return .append (← World.evaluateInsert 3 (.value (.bool true)))),
      ⟨watchedLoop, 0⟩⟩,
    ⟨3, .value "$event.done" (onWorld (World.evaluateParam 3 .null)), ⟨pushed, 0⟩⟩]

/-- A loop pushes to the list of the root and sets a part of the event. The host hears of the list only. -/
theorem Turns.log_rebuilds_at_watchedLoop :
    Turns 1 1 watched loopWrites eventDone ∧ loopWrites.map Write.path = ["list", "$event.done"] ∧
      ∃ log, eventDone.changes = watched.changes ++ log ∧ log.map Prod.fst = ["list"] ∧
        ((replay 1 log).run (World.holding [("list", .array [])])).2.state 1 = eventDone.state 1 := by
  have coherent : watched.Coherent := ((World.Trusted.empty.faithful.addSession 10 1024).create _ 1).coherent
  have clean : (watched.state 1).Clean := by
    have state : watched.state 1 = .object [("list", .array [])] := rfl
    rw [state]
    exact Json.Clean.insert (Json.clean_emptyFor (.index 0)) (Json.clean_emptyFor .wildcard) (by decide)
  have made : Turns 1 1 watched [] watchedLoop :=
    (Turns.start.next (.addChild 1 _)).next (.addLoop 2 "item" "index" .null (.nat 0))
  have turns : Turns 1 1 watched loopWrites eventDone :=
    (made.next (turn_inLoop rfl rfl rfl)).next (turn_inLoop rfl rfl rfl)
  have cleanWrites : ∀ write ∈ loopWrites, write.Clean := by
    rw [loopWrites, List.forall_mem_cons, List.forall_mem_singleton]
    constructor
    · intro change known v inserted
      have single : Except.ok (.append [.bool true]) = Except.ok change := known
      cases single
      rw [List.mem_singleton.mp inserted]
      exact Json.clean_of_leaf fun segment => by cases segment <;> rfl
    · intro v known
      have null : Except.ok .null = Except.ok v := known
      cases null
      exact Json.clean_null
  have landed : (loopWrites.filter (Write.landsIn 1)).map Write.path = ["list"] := by decide +kernel
  obtain ⟨log, told, named, rebuilds⟩ :=
    turns.log_rebuilds coherent rfl rfl rfl clean (fun _ _ found => by cases found) cleanWrites
  exact ⟨turns, rfl, log, told, named.trans landed, (rebuilds (World.holding [("list", .array [])]) 1 1 rfl).2⟩

end Execute

end StateScript
