import StateScript.Engine.Basic
import StateScript.Method
import StateScript.Path.Cache
import StateScript.Store

/-!
The world of contexts. Scopes form trees: the root of a tree holds application state, and the
scopes below it read through to their parent and bind locally. Trees share a session, which holds
the engine, the parsed paths and the pool of loop scopes.
-/

namespace StateScript

abbrev ScopeId := Nat

abbrev SessionId := Nat

/-- The pool from which the bindings of loop scopes are drawn. The maps given back stand in it, the latest
first, as many as there is room for and all of them cleared, beside counts of what has gone in and out. -/
structure LoopPool where
  capacity : Nat := 10
  acquired : Nat := 0
  released : Nat := 0
  reused : Nat := 0
  discarded : Nat := 0
  free : List Members := []
  cleared : ∀ vars ∈ free, vars = [] := by simp
  bounded : free.length ≤ capacity := by simp

namespace LoopPool

def available (p : LoopPool) : Nat := p.free.length

/-- Draws a map of bindings, an old one if there is one. -/
def acquire (p : LoopPool) : Members × LoopPool :=
  match kept : p.free with
  | [] => ([], { p with acquired := p.acquired + 1 })
  | vars :: free =>
    (vars, { p with
      acquired := p.acquired + 1
      reused := p.reused + 1
      free
      cleared := fun other member => p.cleared other (kept ▸ List.mem_cons_of_mem vars member)
      bounded := Nat.le_of_succ_le (by simpa [kept] using p.bounded) })

/-- Whatever has been given back before, a map that is drawn is empty. -/
@[simp] theorem acquire_fst (p : LoopPool) : p.acquire.1 = [] := by
  unfold acquire
  split
  · rfl
  · next vars free kept => exact p.cleared vars (kept ▸ List.mem_cons_self)

/-- Takes back the bindings of a scope. They are cleared and kept if nothing else refers to the scope
and there is room. -/
def release (vars : Option Members) (p : LoopPool) : LoopPool :=
  match taken : vars.filter fun _ => p.available < p.capacity with
  | some vars =>
    { p with
      released := p.released + 1
      free := vars.clear :: p.free
      cleared := List.forall_mem_cons.mpr ⟨rfl, p.cleared⟩
      bounded := Nat.succ_le_of_lt (of_decide_eq_true (Option.filter_eq_some_iff.mp taken).2) }
  | none => { p with released := p.released + 1, discarded := p.discarded + 1 }

/-- Forgets the maps kept, not the counts. -/
def clear (p : LoopPool) : LoopPool := { p with free := [], cleared := by simp, bounded := by simp }

end LoopPool

structure Session where
  engine : Engine := {}
  paths : PathCache
  pool : LoopPool

namespace Session

def ofCapacities (loopPool pathCache : Nat) : Session :=
  { paths := .ofCapacity pathCache, pool := { capacity := loopPool } }

def clearCaches (s : Session) : Session :=
  { engine := s.engine.clear, paths := s.paths.clear, pool := s.pool.clear }

end Session

/-- What becomes of navigation where no method takes it over. -/
inductive Navigator where
  | accepts
  | refuses (reason : String)
  | absent
  deriving DecidableEq, Repr

/-- What the scopes of one tree share. -/
structure Tree where
  session : SessionId
  methods : List (String × Method)
  options : EvalOptions
  emits : Bool
  observes : Bool
  navigator : Navigator

structure Scope where
  bindings : Members
  parent : Option ScopeId
  tree : TreeId

/-- What the host can observe. -/
inductive Event where
  | called (method : String) (params : Json)
  | emitted (event : String) (data : Json)
  | changed (path : String) (value : Json)
  | navigated (target : Json)

/-- All contexts, what the host has seen with the latest event first, the scopes that methods hold
on to, and the time in milliseconds. -/
structure World where
  scopes : Store Scope := .empty
  trees : Store Tree := .empty
  sessions : Store Session := .empty
  events : List Event := []
  kept : List ScopeId := []
  clock : Nat := 0

abbrev WorldM := ExceptT Error (StateM World)

namespace World

def record (event : Event) (w : World) : World := { w with events := event :: w.events }

def scope? (id : ScopeId) (w : World) : Option Scope := w.scopes.find? id

/-- A scope and its ancestors, the root last. A parent is older than its children, so its number
is smaller. -/
def chainWithin (scopes : Store Scope) : Nat → ScopeId → List ScopeId
  | 0, _ => []
  | fuel + 1, id =>
    match scopes.find? id with
    | none => []
    | some scope =>
      match scope.parent with
      | none => [id]
      | some parent => id :: chainWithin scopes fuel parent

def chain (w : World) (id : ScopeId) : List ScopeId := chainWithin w.scopes (id + 1) id

/-- How many scopes stand above one. -/
def depth (w : World) (id : ScopeId) : Nat := (w.chain id).length - 1

def root (w : World) (id : ScopeId) : ScopeId := (w.chain id).getLast?.getD id

def isRoot (w : World) (id : ScopeId) : Bool :=
  match w.scope? id with
  | some scope => scope.parent.isNone
  | none => true

def parent? (w : World) (id : ScopeId) : Option ScopeId := (w.scope? id).bind Scope.parent

/-- The names bound in a scope itself. -/
def bindings (w : World) (id : ScopeId) : Members := (w.scope? id).elim [] Scope.bindings

/-- Whether a scope itself binds a name. -/
def binds (w : World) (name : String) (id : ScopeId) : Bool := Members.contains name (w.bindings id)

def tree? (w : World) (id : ScopeId) : Option Tree :=
  (w.scope? id).bind fun scope => w.trees.find? scope.tree

def methods (w : World) (id : ScopeId) : List (String × Method) :=
  (w.tree? id).elim [] Tree.methods

def method? (w : World) (id : ScopeId) (name : String) : Option Method :=
  (w.methods id).lookup name

def evalOptions (w : World) (id : ScopeId) : EvalOptions := (w.tree? id).elim {} Tree.options

def session? (w : World) (id : ScopeId) : Option Session :=
  (w.tree? id).bind fun tree => w.sessions.find? tree.session

/-- Changes the session of a scope. -/
def modifySession (id : ScopeId) (change : Session → Session) (w : World) : World :=
  match w.tree? id with
  | some tree => { w with sessions := w.sessions.modify tree.session change }
  | none => w

/-- Changes the bindings of one scope. -/
def modifyBindings (id : ScopeId) (change : Members → Members) (w : World) : World :=
  { w with scopes := w.scopes.modify id fun s => { s with bindings := change s.bindings } }

/-- The state at the root of a scope's tree. -/
def state (w : World) (id : ScopeId) : Json := .object (w.bindings (w.root id))

end World

end StateScript
