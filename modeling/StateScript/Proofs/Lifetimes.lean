import StateScript.Proofs.Invalidation

/-!
Making scopes and letting go of them. New scopes get numbers that nothing refers to, and what is
let go of takes its results along, so the results that stay are up to date.
-/

namespace StateScript.World

section

variable {w : World}

theorem lt_next_of_shape? {id : ScopeId} {shape : Option ScopeId × TreeId} (found : w.shape? id = some shape) :
    id < w.scopes.next := by
  obtain ⟨_, present⟩ := shape?_eq_some_iff.mp found
  exact Store.lt_next_of_find? present

def addScope (scope : Scope) (w : World) : World := { w with scopes := (w.scopes.add scope).2 }

theorem scope?_addScope (scope : Scope) (other : ScopeId) :
    (w.addScope scope).scope? other = if other = w.scopes.next then some scope else w.scope? other :=
  Store.find?_add scope other w.scopes

theorem shape?_addScope (scope : Scope) (other : ScopeId) : (w.addScope scope).shape? other =
    if other = w.scopes.next then some (scope.parent, scope.tree) else w.shape? other := by
  simp only [shape?, scope?_addScope]
  split <;> rfl

theorem bindings_addScope_ne {other : ScopeId} (different : other ≠ w.scopes.next) (scope : Scope) :
    (w.addScope scope).bindings other = w.bindings other := by
  simp only [bindings, scope?_addScope, if_neg different]

theorem ne_next {id : ScopeId} {shape : Option ScopeId × TreeId} (found : w.shape? id = some shape) :
    id ≠ w.scopes.next := fun same => Nat.lt_irrefl _ (same ▸ lt_next_of_shape? found)

theorem shape?_addScope_old {id : ScopeId} {shape : Option ScopeId × TreeId} (found : w.shape? id = some shape)
    (scope : Scope) : (w.addScope scope).shape? id = some shape := by
  rw [shape?_addScope, if_neg (ne_next found), found]

theorem old_or_new {scope : Scope} {id : ScopeId} {shape : Option ScopeId × TreeId}
    (present : (w.addScope scope).shape? id = some shape) :
    w.shape? id = some shape ∨ (scope.parent, scope.tree) = shape ∧ id = w.scopes.next := by
  rw [shape?_addScope] at present
  split at present
  · rename_i new
    exact Or.inr ⟨Option.some.inj present, new⟩
  · exact Or.inl present

theorem UpToDate.addScope {session : SessionId} {entry : CachedResult} (upToDate : w.UpToDate session entry)
    (scope : Scope) : (w.addScope scope).UpToDate session entry := by
  refine upToDate.frame ?_ rfl ?_
  · exact fun root top => shape?_addScope_old top scope
  · intro root e top _ _ n _
    rw [bindings_addScope_ne (ne_next top)]

/-- A child joins the tree of its parent. -/
theorem Coherent.addScope_child (coherent : w.Coherent) {parent : ScopeId} {up : Option ScopeId} {tree : TreeId}
    (found : w.shape? parent = some (up, tree)) (bindings : Members) :
    (w.addScope ⟨bindings, some parent, tree⟩).Coherent := by
  constructor
  · intro id above t present
    rcases old_or_new present with old | ⟨same, rfl⟩
    · exact coherent.older old
    · cases same
      exact lt_next_of_shape? found
  · intro id above t present
    rcases old_or_new present with old | ⟨same, rfl⟩
    · obtain ⟨upper, there⟩ := coherent.parents old
      exact ⟨upper, shape?_addScope_old there _⟩
    · cases same
      exact ⟨up, shape?_addScope_old found _⟩
  · intro id above t present
    rcases old_or_new present with old | ⟨same, rfl⟩
    · exact coherent.trees old
    · cases same
      exact coherent.trees found
  · intro a b t first second
    rcases old_or_new first with atA | ⟨same, _⟩
    · rcases old_or_new second with atB | ⟨same, _⟩
      · exact coherent.roots atA atB
      · cases same
    · cases same

theorem Faithful.addChild (faithful : w.Faithful) (parent : ScopeId) (bindings : Members) :
    (w.addChild parent bindings).2.Faithful := by
  unfold World.addChild
  cases present : w.scope? parent with
  | none => exact faithful
  | some scope =>
    have found : w.shape? parent = some (scope.parent, scope.tree) := by simp [shape?, present]
    refine ⟨faithful.coherent.addScope_child found bindings, ?_⟩
    intro id session stored
    have remembers := faithful.sessions (show w.sessions.find? id = some session from stored)
    exact ⟨remembers.sound, fun entry member => (remembers.results entry member).addScope _⟩

theorem Faithful.addLoop (faithful : w.Faithful) (parent : ScopeId) (var indexVar : String) (item index : Json) :
    (w.addLoop parent var indexVar item index).2.Faithful := by
  apply Faithful.addChild
  exact faithful.besideEngine parent fun _ => rfl

/-- A world with one more tree, and its root. -/
def addTree (shared : Tree) (bindings : Members) (w : World) : World :=
  { w.addScope ⟨bindings, none, w.trees.next⟩ with trees := (w.trees.add shared).2 }

theorem run_create (spec : ContextSpec) (session : SessionId) : (create spec session).run w =
    match initialBindings spec.state with
    | .error e => (.error e, w)
    | .ok bindings => (.ok w.scopes.next, w.addTree
        { session, methods := spec.methods, options := spec.options, emits := spec.emits,
          observes := spec.observes, navigator := spec.navigator } bindings) := by
  unfold create
  rw [run_bind, run_ofExcept]
  cases initialBindings spec.state <;> rfl

theorem shape?_addTree (shared : Tree) (bindings : Members) (id : ScopeId) :
    (w.addTree shared bindings).shape? id = (w.addScope ⟨bindings, none, w.trees.next⟩).shape? id := rfl

theorem find?_addTree (shared : Tree) (bindings : Members) (id : TreeId) :
    (w.addTree shared bindings).trees.find? id = if id = w.trees.next then some shared else w.trees.find? id :=
  Store.find?_add shared id w.trees

theorem Coherent.ne_next_tree (coherent : w.Coherent) {id : ScopeId} {up : Option ScopeId} {tree : TreeId}
    (found : w.shape? id = some (up, tree)) : tree ≠ w.trees.next := by
  obtain ⟨there, present⟩ := coherent.trees found
  exact fun same => Nat.lt_irrefl _ (same ▸ Store.lt_next_of_find? present)

theorem Coherent.addTree (coherent : w.Coherent) (shared : Tree) (bindings : Members) :
    (w.addTree shared bindings).Coherent := by
  constructor
  · intro id parent t present
    rw [shape?_addTree] at present
    rcases old_or_new present with old | ⟨same, _⟩
    · exact coherent.older old
    · cases same
  · intro id parent t present
    rw [shape?_addTree] at present
    rcases old_or_new present with old | ⟨same, _⟩
    · obtain ⟨upper, there⟩ := coherent.parents old
      exact ⟨upper, shape?_addScope_old there _⟩
    · cases same
  · intro id up t present
    rw [shape?_addTree] at present
    rw [find?_addTree]
    rcases old_or_new present with old | ⟨same, _⟩
    · rw [if_neg (coherent.ne_next_tree old)]
      exact coherent.trees old
    · cases same
      exact ⟨shared, if_pos rfl⟩
  · intro a b t first second
    rw [shape?_addTree] at first second
    rcases old_or_new first with atA | ⟨newA, rfl⟩
    · rcases old_or_new second with atB | ⟨newB, _⟩
      · exact coherent.roots atA atB
      · cases newB
        exact absurd rfl (coherent.ne_next_tree atA)
    · cases newA
      -- The new tree has no other scope yet.
      rcases old_or_new second with atB | ⟨_, rfl⟩
      · exact absurd rfl (coherent.ne_next_tree atB)
      · rfl

theorem Faithful.create (faithful : w.Faithful) (spec : ContextSpec) (session : SessionId) :
    ((create spec session).run w).2.Faithful := by
  rw [run_create]
  cases initialBindings spec.state with
  | error e => exact faithful
  | ok bindings =>
    refine ⟨faithful.coherent.addTree _ bindings, ?_⟩
    intro id stored found
    have remembers := faithful.sessions (show w.sessions.find? id = some stored from found)
    refine ⟨remembers.sound, fun entry member => ?_⟩
    have upToDate := remembers.results entry member
    refine (upToDate.addScope ⟨bindings, none, w.trees.next⟩).frame (fun _ top => top) ?_
      fun _ _ _ _ _ _ _ => rfl
    obtain ⟨_, _, top, _⟩ := upToDate
    rw [find?_addTree, if_neg (faithful.coherent.ne_next_tree top)]
    rfl

theorem Faithful.addSession (faithful : w.Faithful) (loopPool pathCache : Nat) :
    (w.addSession (.ofCapacities loopPool pathCache)).2.Faithful := by
  refine ⟨faithful.coherent.congr (fun _ => rfl) rfl, ?_⟩
  intro id session found
  have stored : (if id = w.sessions.next then some (Session.ofCapacities loopPool pathCache)
      else w.sessions.find? id) = some session := by
    rw [← Store.find?_add]
    exact found
  have remembers : w.Remembers id session.engine := by
    split at stored
    · cases stored
      exact Remembers.empty
    · exact faithful.sessions stored
  exact remembers.congr rfl rfl

theorem Faithful.clearCaches (faithful : w.Faithful) (id : ScopeId) :
    (w.modifySession id Session.clearCaches).Faithful :=
  faithful.modifySession id fun _ session _ _ => ⟨Engine.Sound.empty session.engine.nextSerial, by
    simp [Session.clearCaches, Engine.clear]⟩

end

section

variable {w : World} {handles : List ScopeId}

/-- The scopes that some handles reach. -/
def live (w : World) (handles : List ScopeId) : List ScopeId := (handles ++ w.kept).flatMap w.chain

theorem Coherent.parent_live (coherent : w.Coherent) {id parent : ScopeId} {tree : TreeId}
    (member : id ∈ w.live handles) (found : w.shape? id = some (some parent, tree)) :
    parent ∈ w.live handles := by
  obtain ⟨handle, held, reached⟩ := List.mem_flatMap.mp member
  exact List.mem_flatMap.mpr ⟨handle, held, coherent.mem_chain_of_parent reached found⟩

theorem Coherent.root_live (coherent : w.Coherent) {id root : ScopeId} {up : Option ScopeId} {tree : TreeId}
    (member : id ∈ w.live handles) (found : w.shape? id = some (up, tree))
    (top : w.shape? root = some (none, tree)) : root ∈ w.live handles := by
  obtain ⟨handle, held, reached⟩ := List.mem_flatMap.mp member
  exact List.mem_flatMap.mpr ⟨handle, held, coherent.root_mem_chain reached found top⟩

def liveTree (w : World) (handles : List ScopeId) (tree : TreeId) : Bool :=
  (w.scopes.filter (w.live handles).contains).entries.any fun (_, s) => s.tree == tree

/-- The trees that no handle keeps. -/
def deadTrees (w : World) (handles : List ScopeId) : List (TreeId × Tree) :=
  w.trees.entries.filter fun (id, _) => !w.liveTree handles id

/-- The sessions without the results of some trees. -/
def dropResults (dead : List (TreeId × Tree)) (sessions : Store Session) : Store Session :=
  dead.foldl (fun sessions (id, tree) =>
    sessions.modify tree.session fun s => { s with engine := s.engine.removeScope id }) sessions

theorem collect_eq : w.collect handles =
    { w with
      scopes := w.scopes.filter (w.live handles).contains
      trees := w.trees.filter (w.liveTree handles)
      sessions := dropResults (w.deadTrees handles) w.sessions } := rfl

theorem scope?_collect {id : ScopeId} {scope : Scope} : (w.collect handles).scope? id = some scope ↔
    id ∈ w.live handles ∧ w.scope? id = some scope := by
  have filtered : (w.collect handles).scope? id =
      if (w.live handles).contains id then w.scope? id else none := Store.find?_filter _ _ _
  rw [filtered]
  by_cases held : id ∈ w.live handles
  · simp [held]
  · simp [held]

theorem shape?_collect {id : ScopeId} {shape : Option ScopeId × TreeId} :
    (w.collect handles).shape? id = some shape ↔ id ∈ w.live handles ∧ w.shape? id = some shape := by
  simp only [shape?_eq_some_iff, scope?_collect, exists_and_left]

theorem liveTree_iff {tree : TreeId} : w.liveTree handles tree = true ↔
    ∃ id up, id ∈ w.live handles ∧ w.shape? id = some (up, tree) := by
  unfold liveTree
  rw [List.any_eq_true]
  constructor
  · rintro ⟨⟨id, scope⟩, member, same⟩
    have found : (w.collect handles).scope? id = some scope := Store.find?_eq_some_iff.mpr member
    obtain ⟨held, present⟩ := scope?_collect.mp found
    refine ⟨id, scope.parent, held, ?_⟩
    have equal : scope.tree = tree := by simpa using same
    simp [shape?, present, equal]
  · rintro ⟨id, up, held, found⟩
    obtain ⟨bindings, present⟩ := shape?_eq_some_iff.mp found
    have still : (w.collect handles).scope? id = some ⟨bindings, up, tree⟩ := scope?_collect.mpr ⟨held, present⟩
    exact ⟨(id, ⟨bindings, up, tree⟩), Store.find?_eq_some_iff.mp still, by simp⟩

theorem mem_deadTrees {tree : TreeId} {shared : Tree} : (tree, shared) ∈ w.deadTrees handles ↔
    w.trees.find? tree = some shared ∧ w.liveTree handles tree = false := by
  rw [deadTrees, List.mem_filter, Store.find?_eq_some_iff]
  simp

theorem tree_collect (tree : TreeId) : (w.collect handles).trees.find? tree =
    if w.liveTree handles tree then w.trees.find? tree else none :=
  Store.find?_filter _ _ _

/-- What is left of a session without the results of some trees. -/
theorem find?_dropResults {dead : List (TreeId × Tree)} {sessions : Store Session} {id : SessionId}
    {session : Session} (found : (dropResults dead sessions).find? id = some session) :
    ∃ before, sessions.find? id = some before ∧
      session.engine = { before.engine with results := session.engine.results } ∧
      ∀ entry ∈ session.engine.results, entry ∈ before.engine.results ∧
        ∀ tree shared, (tree, shared) ∈ dead → shared.session = id → entry.scope ≠ tree := by
  induction dead generalizing sessions with
  | nil => exact ⟨session, found, rfl, fun entry member => ⟨member, fun _ _ none => by cases none⟩⟩
  | cons head rest ih =>
    obtain ⟨tree, shared⟩ := head
    obtain ⟨between, there, engine, kept⟩ := ih found
    rw [Store.find?_modify] at there
    split at there
    · rename_i same
      obtain ⟨before, present, changed⟩ := Option.map_eq_some_iff.mp there
      subst changed
      refine ⟨before, present, engine, fun entry member => ?_⟩
      obtain ⟨old, apart⟩ := kept entry member
      obtain ⟨older, away⟩ := List.mem_filter.mp old
      refine ⟨older, fun t s either own => ?_⟩
      rcases List.mem_cons.mp either with first | later
      · cases first
        simpa using away
      · exact apart t s later own
    · rename_i different
      refine ⟨between, there, engine, fun entry member => ?_⟩
      obtain ⟨old, apart⟩ := kept entry member
      refine ⟨old, fun t s either own => ?_⟩
      rcases List.mem_cons.mp either with first | later
      · cases first
        exact absurd own.symm different
      · exact apart t s later own

theorem Coherent.collect (coherent : w.Coherent) : (w.collect handles).Coherent := by
  constructor
  · exact fun found => coherent.older (shape?_collect.mp found).2
  · intro id parent tree found
    obtain ⟨held, present⟩ := shape?_collect.mp found
    obtain ⟨up, there⟩ := coherent.parents present
    exact ⟨up, shape?_collect.mpr ⟨coherent.parent_live held present, there⟩⟩
  · intro id up tree found
    obtain ⟨held, present⟩ := shape?_collect.mp found
    rw [tree_collect, if_pos (liveTree_iff.mpr ⟨id, up, held, present⟩)]
    exact coherent.trees present
  · exact fun first second => coherent.roots (shape?_collect.mp first).2 (shape?_collect.mp second).2

/-- A tree that is let go of takes its results along; the others keep their roots. -/
theorem Faithful.collect (faithful : w.Faithful) (handles : List ScopeId) : (w.collect handles).Faithful := by
  refine ⟨faithful.coherent.collect, ?_⟩
  intro id session found
  obtain ⟨before, present, engine, kept⟩ := find?_dropResults found
  have remembers := faithful.sessions present
  refine ⟨?_, fun entry member => ?_⟩
  · rw [engine]
    exact remembers.sound.withResults _
  · obtain ⟨old, apart⟩ := kept entry member
    have upToDate := remembers.results entry old
    have ⟨_, shared, _, there, own, _⟩ := upToDate
    -- Otherwise its tree would have taken the entry along.
    have alive : w.liveTree handles entry.scope = true := by
      cases lost : w.liveTree handles entry.scope with
      | true => rfl
      | false =>
        exact absurd rfl (apart _ _ (mem_deadTrees.mpr ⟨there, lost⟩) own)
    obtain ⟨scope, up, held, inTree⟩ := liveTree_iff.mp alive
    refine upToDate.frame ?_ (by rw [tree_collect, if_pos alive]) ?_
    · exact fun root top => shape?_collect.mpr ⟨faithful.coherent.root_live held inTree top, top⟩
    · intro root e top _ _ n _
      obtain ⟨_, there⟩ := shape?_eq_some_iff.mp top
      have still := scope?_collect.mpr ⟨faithful.coherent.root_live held inTree top, there⟩
      simp only [bindings, still, there]

/-- A chain without a scope does not miss it. -/
theorem chainWithin_erase {scopes : Store Scope} {id handle : ScopeId} {fuel : Nat}
    (apart : id ∉ chainWithin scopes fuel handle) :
    chainWithin (scopes.erase id) fuel handle = chainWithin scopes fuel handle := by
  induction fuel generalizing handle with
  | zero => rfl
  | succ fuel ih =>
    unfold chainWithin at apart ⊢
    rw [Store.find?_erase]
    cases present : scopes.find? handle with
    | none => simp
    | some scope =>
      simp only [present] at apart
      have different : handle ≠ id := by
        rintro rfl
        cases link : scope.parent with
        | none => simp [link] at apart
        | some parent => simp [link] at apart
      simp only [if_neg different]
      cases link : scope.parent with
      | none => rfl
      | some parent =>
        simp only [link, List.mem_cons, not_or] at apart
        simp only [ih apart.2]

theorem filter_erase {scopes : Store Scope} {id : ScopeId} {keep : Nat → Bool} (lost : keep id = false) :
    (scopes.erase id).filter keep = scopes.filter keep := by
  have entries : ((scopes.erase id).filter keep).entries = (scopes.filter keep).entries := by
    show (scopes.entries.filter fun (k, _) => k != id).filter (fun (k, _) => keep k) =
      scopes.entries.filter fun (k, _) => keep k
    rw [List.filter_filter]
    refine List.filter_congr fun (k, _) _ => ?_
    by_cases same : k = id
    · simp [same, lost]
    · simp [same]
  exact Store.ext entries rfl

def eraseScope (id : ScopeId) (w : World) : World := { w with scopes := w.scopes.erase id }

/-- A scope that no handle reaches goes in any case. -/
theorem collect_eraseScope {id : ScopeId} (apart : ∀ handle ∈ handles ++ w.kept, id ∉ w.chain handle) :
    (w.eraseScope id).collect handles = w.collect handles := by
  have live : (w.eraseScope id).live handles = w.live handles :=
    List.flatMap_congr fun handle held => chainWithin_erase (apart handle held)
  have lost : (w.live handles).contains id = false := by
    cases held : (w.live handles).contains id with
    | false => rfl
    | true =>
      obtain ⟨handle, member, reached⟩ := List.mem_flatMap.mp (List.contains_iff_mem.mp held)
      exact absurd reached (apart handle member)
  have left : (w.eraseScope id).scopes.filter (w.live handles).contains =
      w.scopes.filter (w.live handles).contains := filter_erase lost
  have trees : (w.eraseScope id).liveTree handles = w.liveTree handles := by
    funext tree
    simp only [liveTree, live, left]
  rw [collect_eq, collect_eq, deadTrees, deadTrees, live, left, trees]
  rfl

/-- To give a scope back only counts it, once nothing but the handles holds scopes. -/
theorem collect_release (w : World) (id : ScopeId) (others : List ScopeId) :
    ∃ vars, (w.release id others).collect others =
      (w.modifySession id fun s => { s with pool := s.pool.release vars }).collect others := by
  refine ⟨if !w.reaches (others ++ w.kept) id then some (w.bindings id) else none, ?_⟩
  unfold release
  cases reached : w.reaches (others ++ w.kept) id with
  | true => rfl
  | false =>
    refine collect_eraseScope fun handle held member => ?_
    rw [modifySession_kept] at held
    rw [chain_congr (modifySession_scopes ..)] at member
    have reaches : w.reaches (others ++ w.kept) id = true :=
      List.any_eq_true.mpr ⟨handle, held, by simpa using member⟩
    rw [reached] at reaches
    cases reaches

theorem Faithful.release (faithful : w.Faithful) (id : ScopeId) (others : List ScopeId) :
    ((w.release id others).collect others).Faithful := by
  obtain ⟨vars, same⟩ := collect_release w id others
  rw [same]
  apply Faithful.collect
  exact faithful.besideEngine id fun _ => rfl

end

end StateScript.World
