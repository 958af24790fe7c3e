import StateScript.Proofs.FreshResults
import StateScript.Proofs.PathReads
import StateScript.Proofs.RootWrites

/-!
Reading back what has been written. A write lands in the nearest scope that binds its first name, or in the
root. From there down to the scope that has written, its path then reads as the value, and no other scope
sees anything of it.
-/

namespace StateScript.World

section

variable {w after : World} {id owner : ScopeId} {up : Option ScopeId} {tree : TreeId}

theorem chain_of_shapes (shapes : ∀ id, after.shape? id = w.shape? id) (id : ScopeId) :
    after.chain id = w.chain id := by
  have within (fuel : Nat) : ∀ id, chainWithin after.scopes fuel id = chainWithin w.scopes fuel id := by
    induction fuel with
    | zero => exact fun _ => rfl
    | succ fuel ih =>
      intro id
      have same := shapes id
      simp only [shape?, scope?] at same
      simp only [chainWithin]
      cases now : after.scopes.find? id with
      | none =>
        cases before : w.scopes.find? id with
        | none => rfl
        | some scope => simp [now, before] at same
      | some scope =>
        cases before : w.scopes.find? id with
        | none => simp [now, before] at same
        | some other =>
          have parents : scope.parent = other.parent := by
            simp only [now, before, Option.map_some, Option.some.injEq, Prod.mk.injEq] at same
            exact same.1
          simp only [parents]
          cases other.parent with
          | none => rfl
          | some parent => simp only [ih]
  exact within (id + 1) id

variable (coherent : w.Coherent)

include coherent

/-- Scopes are older the further up they stand. -/
theorem Coherent.chain_decreasing (id : ScopeId) :
    (w.chain id).Pairwise (· > ·) ∧ ∀ other ∈ w.chain id, other ≤ id := by
  induction id using Nat.strongRecOn with
  | ind id ih =>
    cases found : w.shape? id with
    | none => simp [chain_of_missing found]
    | some shape =>
      obtain ⟨up, tree⟩ := shape
      cases up with
      | none => simp [chain_of_top found]
      | some parent =>
        have older := coherent.older found
        obtain ⟨decreasing, bounded⟩ := ih parent older
        rw [coherent.chain_of_parent found]
        constructor
        · refine List.pairwise_cons.mpr ⟨fun other member => ?_, decreasing⟩
          exact Nat.lt_of_le_of_lt (bounded other member) older
        · intro other member
          rcases List.mem_cons.mp member with rfl | above
          · exact Nat.le_refl _
          · exact Nat.le_of_lt (Nat.lt_of_le_of_lt (bounded other above) older)

/-- Every scope of a chain begins the chain of its own. -/
theorem Coherent.chain_of_append {below above : List ScopeId} {other : ScopeId}
    (split : w.chain id = below ++ other :: above) : w.chain other = other :: above := by
  induction below generalizing id with
  | nil =>
    cases found : w.shape? id with
    | none => simp [chain_of_missing found] at split
    | some shape =>
      have first : other = id := by
        obtain ⟨up, tree⟩ := shape
        cases up with
        | none =>
          rw [chain_of_top found] at split
          cases split
          rfl
        | some parent =>
          rw [coherent.chain_of_parent found] at split
          cases split
          rfl
      rw [first] at split ⊢
      exact split
  | cons head below ih =>
    cases found : w.shape? id with
    | none => simp [chain_of_missing found] at split
    | some shape =>
      obtain ⟨up, tree⟩ := shape
      cases up with
      | none => simp [chain_of_top found] at split
      | some parent =>
        rw [coherent.chain_of_parent found, List.cons_append, List.cons.injEq] at split
        exact ih split.2

/-- A chain is split at the owner of a name. No scope below it binds the name. -/
theorem Coherent.chain_owner (found : w.shape? id = some (up, tree)) (name : String) :
    ∃ below above, w.chain id = below ++ w.owner id name :: above ∧ (∀ s ∈ below, w.binds name s = false) ∧
      (w.binds name (w.owner id name) = true ∨
        (∀ s ∈ w.chain id, w.binds name s = false) ∧ w.owner id name = w.root id) := by
  cases binder : (w.chain id).find? (w.binds name) with
  | some owner =>
    have own : w.owner id name = owner := by simp [World.owner, binder]
    obtain ⟨binds, below, above, split, unbound⟩ := List.find?_eq_some_iff_append.mp binder
    rw [own]
    exact ⟨below, above, split, fun s member => by simpa using unbound s member, Or.inl binds⟩
  | none =>
    have own : w.owner id name = w.root id := by simp [World.owner, binder]
    obtain ⟨below, ends, _⟩ := coherent.chain_eq found
    have unbound : ∀ s ∈ w.chain id, w.binds name s = false := by simpa using List.find?_eq_none.mp binder
    rw [own]
    refine ⟨below, [], ends, fun s member => unbound s ?_, Or.inr ⟨unbound, rfl⟩⟩
    rw [ends]
    exact List.mem_append_left _ member

end

section

variable {w : World} {id : ScopeId} {path first : String} {rest : Path} {value : Json}

theorem lookup_congr {after : World} (same : after.scopes = w.scopes) (id : ScopeId) (name : String) :
    after.lookup id name = w.lookup id name := by
  simp only [lookup, chain_congr same, bindings_congr same]

/-- What is read at a path through a scope. -/
def read (w : World) (id : ScopeId) (path : String) : Except Error Json := do
  match ← Path.parse path with
  | [] => return .null
  | first :: rest => return ((w.lookup id first.text).bind (Json.get? · rest)).getD .null

theorem read_of_lookup {segment : Segment} {slot : Json} (parsed : Path.parse path = .ok (segment :: rest))
    (looked : w.lookup id segment.text = some slot) : w.read id path = .ok ((slot.get? rest).getD .null) := by
  rw [read, parsed, ok_bind]
  simp only [looked, Option.bind_some]
  rfl

theorem run_getPath (id : ScopeId) (path : String) (w : World) :
    (getPath id path).run w = (w.read id path, w.afterParsing id path) := by
  unfold getPath read
  rw [run_bind, run_parsePath]
  cases Path.parse path with
  | error e => rfl
  | ok segments =>
    cases segments with
    | nil => rfl
    | cons first rest =>
      dsimp only
      rw [run_bind, run_get]
      dsimp only
      rw [lookup_congr (afterParsing_scopes id path w)]
      rfl

/-- A write that succeeds changes the scopes by what it assigns in the owner. -/
theorem setPath_succeeds (success : ((setPath id path value).run w).1 = .ok ()) :
    ∃ first rest, target path = .ok (first, rest) ∧
      (assign first rest value (w.bindings (w.owner id first))).2 = none ∧
      ((setPath id path value).run w).2.scopes = (w.modifyBindings (w.owner id first)
        fun _ => (assign first rest value (w.bindings (w.owner id first))).1).scopes := by
  rw [run_setPath] at success ⊢
  cases named : target path with
  | error e =>
    rw [named] at success
    cases success
  | ok found =>
    obtain ⟨first, rest⟩ := found
    rw [named] at success
    dsimp only at success ⊢
    cases outcome : (assign first rest value (w.bindings (w.owner id first))).2 with
    | some fault =>
      rw [outcome] at success
      cases success
    | none =>
      refine ⟨first, rest, rfl, outcome, ?_⟩
      dsimp only
      rw [notify_scopes, invalidate_scopes]
      simp only [modifyBindings, afterParsing_scopes]

theorem find?_assign_self {bindings : Members} (success : (assign first rest value bindings).2 = none) :
    (Members.find? first (assign first rest value bindings).1).bind (Json.get? · rest) = some value := by
  have written := success
  rw [assign_fault] at written
  rw [assign_of_success success, Members.find?_insert_self]
  exact Json.get?_write written

end

section

variable {w after : World} {id d : ScopeId} {name : String}

theorem chain_starts {other : ScopeId} (member : other ∈ w.chain id) : ∃ above, w.chain id = id :: above := by
  unfold chain at member ⊢
  simp only [chainWithin] at member ⊢
  cases present : w.scopes.find? id with
  | none => simp [present] at member
  | some scope =>
    dsimp only
    cases scope.parent <;> exact ⟨_, rfl⟩

/-- The owner of a name stands where the chain starts, or further up. -/
theorem self_mem_of_split {below above : List ScopeId} {owner : ScopeId}
    (split : w.chain id = below ++ owner :: above) : id ∈ below ++ [owner] := by
  have member : owner ∈ w.chain id := by simp [split]
  obtain ⟨behind, starts⟩ := chain_starts member
  rw [split] at starts
  cases below with
  | nil =>
    cases starts
    simp
  | cons lowest between =>
    cases starts
    simp

/-- A name is looked up behind scopes that do not bind it. -/
theorem lookup_of_unbound {below above : List ScopeId} {owner : ScopeId} {value : Json}
    (split : w.chain id = below ++ owner :: above) (unbound : ∀ s ∈ below, w.binds name s = false)
    (own : Members.find? name (w.bindings owner) = some value) : w.lookup id name = some value := by
  have skipped : below.findSome? (fun s => Members.find? name (w.bindings s)) = none := by
    rw [List.findSome?_eq_none_iff]
    intro s member
    simpa [binds, Members.contains] using unbound s member
  simp [lookup, split, List.findSome?_append, skipped, own]

/-- A scope looks a name up as before where its chain binds the name as before. -/
theorem lookup_frame (shapes : ∀ id, after.shape? id = w.shape? id)
    (same : ∀ s ∈ w.chain id, Members.find? name (after.bindings s) = Members.find? name (w.bindings s)) :
    after.lookup id name = w.lookup id name := by
  unfold lookup
  rw [chain_of_shapes shapes]
  generalize w.chain id = scopes at same
  induction scopes with
  | nil => rfl
  | cons s rest ih =>
    obtain ⟨first, others⟩ := List.forall_mem_cons.mp same
    simp only [List.findSome?_cons, first, ih others]

/-- What the owner of a name comes to bind is looked up from all scopes that do not hide it. -/
theorem Coherent.lookup_down (coherent : w.Coherent) {below above : List ScopeId} {owner : ScopeId} {slot : Json}
    (split : w.chain id = below ++ owner :: above) (unbound : ∀ s ∈ below, w.binds name s = false)
    (shapes : ∀ id, after.shape? id = w.shape? id) (others : ∀ s, s ≠ owner → after.bindings s = w.bindings s)
    (own : Members.find? name (after.bindings owner) = some slot) :
    ∀ s ∈ below ++ [owner], after.lookup s name = some slot := by
  obtain ⟨decreasing, _⟩ := coherent.chain_decreasing id
  rw [split, List.pairwise_append] at decreasing
  obtain ⟨_, _, older⟩ := decreasing
  have still : ∀ s ∈ below, after.binds name s = false := by
    intro s member
    have different : s ≠ owner := (Nat.ne_of_lt (older s member owner (List.mem_cons_self ..))).symm
    rw [binds, others s different]
    exact unbound s member
  intro s member
  rcases List.mem_append.mp member with lower | last
  · obtain ⟨before, between, same⟩ := List.append_of_mem lower
    subst same
    have further : w.chain id = before ++ s :: (between ++ owner :: above) := by simp [split]
    have starts : after.chain s = (s :: between) ++ owner :: above := by
      rw [chain_of_shapes shapes, coherent.chain_of_append further]
      rfl
    exact lookup_of_unbound starts (fun t inside => still t (List.mem_append_right _ inside)) own
  · rw [List.mem_singleton.mp last]
    have starts : after.chain owner = [] ++ owner :: above := by
      rw [chain_of_shapes shapes, coherent.chain_of_append split]
      rfl
    exact lookup_of_unbound starts (by simp) own

/-- A scope that binds the name itself sees nothing of what another scope comes to bind it to. -/
theorem lookup_of_hidden {owner other : ScopeId} {first : String} (shapes : ∀ id, after.shape? id = w.shape? id)
    (others : ∀ s, s ≠ owner → after.bindings s = w.bindings s)
    (kept : ∀ n, n ≠ first → Members.find? n (after.bindings owner) = Members.find? n (w.bindings owner))
    (member : other ∈ w.chain d) (apart : d ≠ owner) (binds : w.binds first d = true) (name : String) :
    after.lookup d name = w.lookup d name := by
  by_cases hit : name = first
  · obtain ⟨behind, starts⟩ := chain_starts member
    obtain ⟨slot, own⟩ := Option.isSome_iff_exists.mp binds
    simp [lookup, chain_of_shapes shapes, starts, others d apart, hit, own]
  · refine lookup_frame shapes fun s _ => ?_
    by_cases target : s = owner
    · rw [target, kept name hit]
    · rw [others s target]

end

/-- A write that succeeds changes one scope: the nearest one that binds the first name of its path, or the
root if none does. It changes one binding there, and keeps the others. The path then reads as the value
through the scope that has written and every scope on the way to that owner, and a scope further down that
binds the name itself reads every path as before. -/
theorem setPath_lands {w : World} (coherent : w.Coherent) {id : ScopeId} {up : Option ScopeId} {tree : TreeId}
    (found : w.shape? id = some (up, tree)) {path : String} {value : Json}
    (success : ((setPath id path value).run w).1 = .ok ()) :
    let after := ((setPath id path value).run w).2
    ∃ segment rest below owner above, Path.parse path = .ok (segment :: rest) ∧
      w.chain id = below ++ owner :: above ∧
      (∀ s ∈ below, w.binds segment.text s = false) ∧
      (w.binds segment.text owner = true ∨
        (∀ s ∈ w.chain id, w.binds segment.text s = false) ∧ owner = w.root id) ∧
      (∀ s, s ≠ owner → after.scope? s = w.scope? s) ∧
      (∃ scope slot, w.scope? owner = some scope ∧
        after.scope? owner = some { scope with bindings := Members.insert segment.text slot scope.bindings }) ∧
      id ∈ below ++ [owner] ∧
      (∀ s ∈ below ++ [owner], ((getPath s path).run after).1 = .ok value) ∧
      ∀ d, id ∈ w.chain d → d ≠ id → w.binds segment.text d = true →
        ∀ other, ((getPath d other).run after).1 = ((getPath d other).run w).1 := by
  intro after
  obtain ⟨first, rest, named, assigned, scopes⟩ := setPath_succeeds success
  obtain ⟨segment, parsed, rfl, _, _⟩ := target_ok named
  obtain ⟨below, above, split, unbound, owns⟩ := coherent.chain_owner found segment.text
  generalize w.owner id segment.text = owner at *
  obtain ⟨decreasing, bounded⟩ := coherent.chain_decreasing id
  have shapes (s : ScopeId) : after.shape? s = w.shape? s := shape?_of_modified scopes s
  have changed (s : ScopeId) : after.scope? s = (w.modifyBindings owner fun _ =>
      (assign segment.text rest value (w.bindings owner)).1).scope? s := by
    rw [scope?, scopes, scope?]
  have others (s : ScopeId) (different : s ≠ owner) : after.scope? s = w.scope? s := by
    rw [changed, scope?_modifyBindings, if_neg different]
  have member : owner ∈ w.chain id := by simp [split]
  obtain ⟨scope, present⟩ : ∃ scope, w.scope? owner = some scope := by
    obtain ⟨_, there⟩ := coherent.mem_chain found member
    obtain ⟨_, present⟩ := shape?_eq_some_iff.mp there
    exact ⟨_, present⟩
  have written : after.scope? owner = some { scope with
      bindings := (assign segment.text rest value (w.bindings owner)).1 } := by
    rw [changed, scope?_modifyBindings, if_pos rfl, present]
    rfl
  have bound : w.bindings owner = scope.bindings := by simp [bindings, present]
  obtain ⟨slot, own, below_slot⟩ := Option.bind_eq_some_iff.mp (find?_assign_self assigned)
  have now : after.bindings owner = (assign segment.text rest value (w.bindings owner)).1 := by
    simp [bindings, written]
  have same (s : ScopeId) (different : s ≠ owner) : after.bindings s = w.bindings s := by
    rw [bindings, bindings, others s different]
  rw [← now] at own
  have down := coherent.lookup_down split unbound shapes same own
  refine ⟨segment, rest, below, owner, above, parsed, split, unbound, owns, others, ?_,
    self_mem_of_split split, ?_, ?_⟩
  · refine ⟨scope, (((Members.find? segment.text scope.bindings).getD .null).write rest value).1, present, ?_⟩
    rw [written, assign_of_success assigned, bound]
  · intro s member
    rw [run_getPath, read_of_lookup parsed (down s member), below_slot]
    rfl
  · intro d inside different binds other
    obtain ⟨_, bounds⟩ := coherent.chain_decreasing d
    have apart : d ≠ owner := by
      rintro rfl
      exact different (Nat.le_antisymm (bounded d member) (bounds id inside))
    have kept (n : String) (hit : n ≠ segment.text) :
        Members.find? n (after.bindings owner) = Members.find? n (w.bindings owner) := by
      rw [now, assign_of_success assigned, Members.find?_insert_ne hit]
    have lookups := lookup_of_hidden shapes same kept inside apart binds
    rw [run_getPath, run_getPath]
    simp only [read, lookups]

/-- Four scopes in a row, of which the first, the second and the last bind `a`. -/
def fourInRow : World := ((hiddenRead.addChild 2 [("c", .null)]).2.addChild 3 [("a", .bool true)]).2

/-- The third scope writes to the second, reads the value back, and the fourth sees nothing of it. -/
theorem setPath_lands_at_fourInRow :
    fourInRow.shape? 3 = some (some 2, 1) ∧
      ((setPath 3 "a.x" (.bool true)).run fourInRow).1 = .ok () ∧
      ((getPath 3 "a.x").run ((setPath 3 "a.x" (.bool true)).run fourInRow).2).1 = .ok (.bool true) ∧
      ∀ other, ((getPath 4 other).run ((setPath 3 "a.x" (.bool true)).run fourInRow).2).1 =
        ((getPath 4 other).run fourInRow).1 := by
  have coherent : fourInRow.Coherent :=
    ((hiddenRead_reached.trusted.faithful.addChild 2 _).addChild 3 _).coherent
  have found : fourInRow.shape? 3 = some (some 2, 1) := rfl
  have success : ((setPath 3 "a.x" (.bool true)).run fourInRow).1 = .ok () := rfl
  obtain ⟨segment, rest, below, owner, above, parsed, _, _, _, _, _, writer, reads, hidden⟩ :=
    setPath_lands coherent found success
  have named : Path.parse "a.x" = .ok [.key "a", .key "x"] := rfl
  rw [named] at parsed
  cases parsed
  exact ⟨found, success, reads 3 writer, hidden 4 (by decide +kernel) (by decide) (by decide +kernel)⟩

end StateScript.World
