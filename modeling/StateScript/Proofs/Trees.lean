import StateScript.Proofs.Runs
import StateScript.Proofs.Scopes

/-!
Scopes form trees. Every chain of scopes ends in the root of its tree, so a name that no scope
below the root binds is looked up in the root, whatever the scope is. Making scopes, writing to
them and letting go of them keeps the trees.
-/

namespace StateScript.World

/-- The parent and the tree of a scope. -/
def shape? (w : World) (id : ScopeId) : Option (Option ScopeId × TreeId) :=
  (w.scope? id).map fun scope => (scope.parent, scope.tree)

/-- A parent is older than its children and belongs to the same tree; every tree of a scope is there
and has one root. -/
structure Coherent (w : World) : Prop where
  older : ∀ {id parent tree}, w.shape? id = some (some parent, tree) → parent < id
  parents : ∀ {id parent tree}, w.shape? id = some (some parent, tree) →
    ∃ up, w.shape? parent = some (up, tree)
  trees : ∀ {id up tree}, w.shape? id = some (up, tree) → ∃ shared, w.trees.find? tree = some shared
  roots : ∀ {a b tree}, w.shape? a = some (none, tree) → w.shape? b = some (none, tree) → a = b

theorem Coherent.empty : Coherent {} := by
  constructor <;> intros <;> contradiction

theorem Coherent.congr {w after : World} (coherent : w.Coherent) (shapes : ∀ id, after.shape? id = w.shape? id)
    (trees : after.trees = w.trees) : after.Coherent := by
  constructor
  · exact fun found => coherent.older (shapes _ ▸ found)
  · intro id parent tree found
    rw [shapes]
    exact coherent.parents (shapes _ ▸ found)
  · intro id up tree found
    rw [trees]
    exact coherent.trees (shapes _ ▸ found)
  · exact fun first second => coherent.roots (shapes _ ▸ first) (shapes _ ▸ second)

section

variable {w : World} {id parent root : ScopeId} {up : Option ScopeId} {tree : TreeId}

theorem shape?_eq_some_iff {shape : Option ScopeId × TreeId} :
    w.shape? id = some shape ↔ ∃ bindings, w.scope? id = some ⟨bindings, shape.1, shape.2⟩ := by
  unfold shape?
  constructor
  · intro found
    obtain ⟨scope, present, same⟩ := Option.map_eq_some_iff.mp found
    cases same
    exact ⟨scope.bindings, present⟩
  · rintro ⟨bindings, present⟩
    simp [present]

theorem chain_of_missing (missing : w.shape? id = none) : w.chain id = [] := by
  simp only [shape?, scope?, Option.map_eq_none_iff] at missing
  simp only [chain, chainWithin, missing]

theorem chain_of_top (top : w.shape? id = some (none, tree)) : w.chain id = [id] := by
  obtain ⟨bindings, present⟩ := shape?_eq_some_iff.mp top
  exact chain_of_root present rfl

/-- What is looked up through a root is looked up in it. -/
theorem lookup_of_top (top : w.shape? root = some (none, tree)) (name : String) :
    w.lookup root name = Members.find? name (w.bindings root) := by
  simp only [lookup, chain_of_top top, List.findSome?_cons, List.findSome?_nil]
  cases Members.find? name (w.bindings root) <;> rfl

variable (coherent : w.Coherent)

include coherent

/-- Fuel beyond the number of a scope does not matter. -/
theorem Coherent.chainWithin_eq {fuel : Nat} (enough : id < fuel) :
    chainWithin w.scopes fuel id = w.chain id := by
  unfold chain
  induction fuel using Nat.strongRecOn generalizing id with
  | ind fuel ih =>
    cases fuel with
    | zero => exact absurd enough (Nat.not_lt_zero id)
    | succ smaller =>
      simp only [chainWithin]
      cases present : w.scopes.find? id with
      | none => rfl
      | some scope =>
        cases link : scope.parent with
        | none => simp only [link]
        | some parent =>
          have older : parent < id :=
            coherent.older (shape?_eq_some_iff.mpr ⟨scope.bindings, by rw [scope?, present, ← link]⟩)
          -- Both the fuel that is left and the number of the scope are enough for its parent.
          have bound : parent < smaller := Nat.lt_of_lt_of_le older (Nat.le_of_lt_succ enough)
          simp only [link]
          rw [ih smaller (Nat.lt_succ_self _) bound, ih id enough older]

theorem Coherent.chain_of_parent (found : w.shape? id = some (some parent, tree)) :
    w.chain id = id :: w.chain parent := by
  obtain ⟨bindings, present⟩ := shape?_eq_some_iff.mp found
  simp only [scope?] at present
  rw [← coherent.chainWithin_eq (coherent.older found)]
  simp only [chain, chainWithin, present]

theorem Coherent.mem_chain_self (found : w.shape? id = some (up, tree)) : id ∈ w.chain id := by
  cases up with
  | none => simp [chain_of_top found]
  | some parent => simp [coherent.chain_of_parent found]

/-- A chain ends in the root of the tree. -/
theorem Coherent.chain_eq (found : w.shape? id = some (up, tree)) :
    ∃ below, w.chain id = below ++ [w.root id] ∧ w.shape? (w.root id) = some (none, tree) := by
  have ends : ∃ below root, w.chain id = below ++ [root] ∧ w.shape? root = some (none, tree) := by
    induction id using Nat.strongRecOn generalizing up with
    | ind id ih =>
      cases up with
      | none => exact ⟨[], id, chain_of_top found, found⟩
      | some parent =>
        obtain ⟨above, there⟩ := coherent.parents found
        obtain ⟨below, root, ends, top⟩ := ih parent (coherent.older found) there
        refine ⟨id :: below, root, ?_, top⟩
        rw [coherent.chain_of_parent found, ends]
        rfl
  obtain ⟨below, root, ends, top⟩ := ends
  have last : w.root id = root := by simp [World.root, ends]
  rw [last]
  exact ⟨below, ends, top⟩

/-- A name that no scope below the root binds is looked up in the root. -/
theorem Coherent.lookup_eq (found : w.shape? id = some (up, tree)) (top : w.shape? root = some (none, tree))
    {name : String} (unbound : ∀ scope ∈ (w.chain id).dropLast, w.binds name scope = false) :
    w.lookup id name = w.lookup root name := by
  obtain ⟨below, ends, last⟩ := coherent.chain_eq found
  obtain rfl := coherent.roots last top
  rw [ends, List.dropLast_concat] at unbound
  have skipped : below.findSome? (fun scope => Members.find? name (w.bindings scope)) = none := by
    rw [List.findSome?_eq_none_iff]
    intro scope member
    simpa [binds, Members.contains] using unbound scope member
  rw [lookup_of_top top]
  simp only [lookup, ends, List.findSome?_append, skipped, Option.none_or, List.findSome?_cons,
    List.findSome?_nil]
  cases Members.find? name (w.bindings (w.root id)) <;> rfl

/-- With a scope a chain holds the scope above it. -/
theorem Coherent.mem_chain_of_parent {handle : ScopeId} (member : id ∈ w.chain handle)
    (found : w.shape? id = some (some parent, tree)) : parent ∈ w.chain handle := by
  induction handle using Nat.strongRecOn with
  | ind handle ih =>
    cases start : w.shape? handle with
    | none => simp [chain_of_missing start] at member
    | some shape =>
      obtain ⟨above, other⟩ := shape
      cases above with
      | none =>
        rw [chain_of_top start, List.mem_singleton] at member
        subst member
        rw [found] at start
        cases start
      | some next =>
        rw [coherent.chain_of_parent start, List.mem_cons] at member ⊢
        rcases member with rfl | further
        · rw [found] at start
          cases start
          obtain ⟨_, there⟩ := coherent.parents found
          exact Or.inr (coherent.mem_chain_self there)
        · exact Or.inr (ih next (coherent.older start) further)

/-- With a scope a chain holds the root of its tree. -/
theorem Coherent.root_mem_chain {handle : ScopeId} (member : id ∈ w.chain handle)
    (found : w.shape? id = some (up, tree)) (top : w.shape? root = some (none, tree)) :
    root ∈ w.chain handle := by
  induction id using Nat.strongRecOn generalizing up with
  | ind id ih =>
    cases up with
    | none => exact coherent.roots found top ▸ member
    | some parent =>
      obtain ⟨above, there⟩ := coherent.parents found
      exact ih parent (coherent.older found) (coherent.mem_chain_of_parent member found) there

end

end StateScript.World
