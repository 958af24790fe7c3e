import StateScript.Proofs.ChangeLogs
import StateScript.Proofs.Interference
import StateScript.Proofs.WholeNumbers

/-!
The actions that edit arrays. Each of them replaces one array by what it makes of its items, at one path in
the scope that owns the first name, or fails and leaves every scope and the host alone. Whatever the
parameters of a splice evaluate to, the range that it takes out lies in the array.
-/

namespace StateScript

namespace Dyadic

/-- The mantissa with its sign. -/
def signed (d : Dyadic) : Int := if d.negative then -(d.mantissa : Int) else d.mantissa

end Dyadic

namespace Binary64

/-- A double is an integer: `± mantissa · 2 ^ exponent = n`, with the power on the side where it is whole. -/
def IsInt (x : Float) (n : Int) : Prop :=
  ∃ d, dyadic? x = some d ∧ d.signed * 2 ^ d.exponent.toNat = n * 2 ^ (-d.exponent).toNat

theorem div_two_pow {m k : Nat} {n : Int} (same : (m : Int) = n * 2 ^ k) : ((m / 2 ^ k : Nat) : Int) = n := by
  push_cast
  rw [same]
  exact Int.mul_ediv_cancel n (by positivity)

/-- Nothing is cut off an integer. -/
theorem IsInt.exists_truncate {x : Float} {n : Int} (whole : IsInt x n) :
    ∃ d, dyadic? x = some d ∧ d.truncate = n := by
  obtain ⟨d, finite, same⟩ := whole
  refine ⟨d, finite, ?_⟩
  have magnitude : (d.wholePart : Int) = if d.negative then -n else n := by
    unfold Dyadic.signed at same
    unfold Dyadic.wholePart Dyadic.ratio
    by_cases up : 0 ≤ d.exponent
    · have flat : (-d.exponent).toNat = 0 := by omega
      rw [flat, pow_zero, mul_one] at same
      rw [if_pos up, Nat.div_one, Nat.pow_eq, ← same]
      push_cast
      cases d.negative <;> simp
    · have flat : d.exponent.toNat = 0 := by omega
      rw [flat, pow_zero, mul_one] at same
      rw [if_neg up, Nat.pow_eq]
      refine div_two_pow ?_
      cases negative : d.negative with
      | true =>
        rw [negative, if_pos rfl] at same
        rw [if_pos rfl, neg_mul, ← same, neg_neg]
      | false =>
        rw [negative] at same
        simpa using same
  unfold Dyadic.truncate
  rw [magnitude]
  cases d.negative <;> simp

theorem mantissa_of_isWhole {d : Dyadic} (whole : d.isWhole = true) :
    d.mantissa * 2 ^ d.exponent.toNat = d.wholePart * 2 ^ (-d.exponent).toNat := by
  unfold Dyadic.isWhole at whole
  unfold Dyadic.wholePart
  have exact' := Nat.div_mul_cancel (Nat.dvd_of_mod_eq_zero (beq_iff_eq.mp whole))
  unfold Dyadic.ratio at exact' ⊢
  by_cases up : 0 ≤ d.exponent
  · have flat : (-d.exponent).toNat = 0 := by omega
    simp only [if_pos up, flat, Nat.div_one, Nat.pow_eq, pow_zero, mul_one]
  · have flat : d.exponent.toNat = 0 := by omega
    simp only [if_neg up, Nat.pow_eq] at exact' ⊢
    rw [exact', flat, pow_zero, mul_one]

/-- An integer of no more than 53 bits is the double that stands for it. -/
theorem isInt_ofInt {n : Int} (short : n.natAbs < 2 ^ 53) : IsInt (ofInt n) n := by
  have same : nearestWhole n.natAbs = n.natAbs := nearestWhole_eq_iff.mpr ⟨n.natAbs, 0, short, by simp⟩
  rcases dyadic?_nearest n.natAbs with ⟨beyond, _⟩ | ⟨d, finite, positive, whole, part, _⟩
  · have word : 2 ^ 53 ≤ Word.max64 := by decide
    omega
  have magnitude := mantissa_of_isWhole whole
  rw [part, same] at magnitude
  unfold ofInt
  by_cases below : n < 0
  · rw [decide_eq_true below]
    refine ⟨_, dyadic?_nearest_negative finite, ?_⟩
    have value : n = -(n.natAbs : Int) := by omega
    rw [value, Dyadic.signed, if_pos rfl, neg_mul, neg_mul]
    exact_mod_cast congrArg (fun k : Nat => -(k : Int)) magnitude
  · rw [decide_eq_false below]
    refine ⟨d, finite, ?_⟩
    have value : n = (n.natAbs : Int) := by omega
    rw [value, Dyadic.signed, positive, if_neg Bool.false_ne_true]
    exact_mod_cast magnitude

end Binary64

/-- Where a splice of an array begins and how much it takes out: integers are clamped to the array, a start
that is negative counts from its end, and without a count everything behind the start is taken out. Whatever
the two numbers are, the range lies in the array. -/
structure SpliceRange (start : Float) (deleteCount : Option Float) (length first removed : Nat) : Prop where
  inside : first + removed ≤ length
  start : ∀ n, Binary64.IsInt start n → (first : Int) = max 0 (min (if n < 0 then length + n else n) length)
  count : ∀ x n, deleteCount = some x → Binary64.IsInt x n → (removed : Int) = max 0 (min n (length - first))
  rest : deleteCount = none → removed = length - first

namespace ArrayEdit

theorem clampedPosition_le (x : Float) (length : Nat) : Builtin.clampedPosition x length ≤ length := by
  unfold Builtin.clampedPosition
  split
  · dsimp only
    split <;> omega
  · split <;> omega

theorem removed_le (deleteCount : Option Float) (available : Nat) : removed deleteCount available ≤ available := by
  unfold removed Binary64.toNatClamped
  split
  · exact Nat.le_refl available
  · split
    · split <;> omega
    · split <;> omega

theorem spliceRange (start : Float) (deleteCount : Option Float) (length : Nat) :
    SpliceRange start deleteCount length (Builtin.clampedPosition start length)
      (removed deleteCount (length - Builtin.clampedPosition start length)) where
  inside := by
    have first := clampedPosition_le start length
    have count := removed_le deleteCount (length - Builtin.clampedPosition start length)
    omega
  start n whole := by
    obtain ⟨d, finite, rfl⟩ := whole.exists_truncate
    unfold Builtin.clampedPosition
    rw [finite]
    dsimp only
    split <;> omega
  count x n given whole := by
    obtain ⟨d, finite, rfl⟩ := whole.exists_truncate
    have first := clampedPosition_le start length
    generalize Builtin.clampedPosition start length = first at *
    rw [given, removed, Binary64.toNatClamped, finite, Dyadic.truncate]
    dsimp only
    cases d.negative with
    | true =>
      simp only [if_true]
      omega
    | false =>
      simp only [Bool.false_eq_true, if_false]
      omega
  rest absent := by rw [absent, removed]

end ArrayEdit

namespace Json

/-- A second segment names the child that is replaced, or it names the same as before. -/
theorem child?_setChild_or {value old : Json} {s : Segment} (there : value.child? s = some old) (t : Segment) :
    (s.meets t = true ∧ value.child? t = some old ∧ ∀ new, (value.setChild s new).child? t = some new) ∨
      ∀ new, (value.setChild s new).child? t = value.child? t := by
  cases value with
  | object ms =>
    have plain := ne_wildcard_of_child? there
    rw [child?_object plain] at there
    by_cases wild : t = .wildcard
    · subst wild
      exact Or.inr fun new => rfl
    · simp only [setChild, child?_object wild]
      by_cases same : t.text = s.text
      · refine Or.inl ⟨by simp [Segment.meets, same], same ▸ there, fun new => ?_⟩
        rw [same, Members.find?_insert_self]
      · exact Or.inr fun new => Members.find?_insert_ne same new ms
  | array items =>
    rw [child?_items] at there
    obtain ⟨i, place, item⟩ := Option.bind_eq_some_iff.mp there
    obtain ⟨within, _⟩ := List.getElem?_eq_some_iff.mp item
    simp only [setChild_items place, child?_items]
    cases other : t.place? with
    | none => exact Or.inr fun new => rfl
    | some j =>
      simp only [Option.bind_some]
      by_cases same : i = j
      · subst same
        exact Or.inl ⟨by simp [Segment.meets, place, other], item, fun new => List.getElem?_set_self within⟩
      · exact Or.inr fun new => List.getElem?_set_ne same
  | null | bool | number | string => cases s <;> cases there

/-- Replacing a value leaves what is found at a path that names another place. -/
theorem get?_replace?_apart {value left new : Json} {q p : Path} (replaced : value.replace? q new = some left)
    (apart : Path.meet q p = false) : left.get? p = value.get? p := by
  induction q generalizing value left p with
  | nil => cases apart
  | cons s q ih =>
    cases p with
    | nil => cases apart
    | cons t p =>
      rw [replace?_cons] at replaced
      obtain ⟨child, there, more⟩ := Option.bind_eq_some_iff.mp replaced
      obtain ⟨below, further, rfl⟩ := Option.map_eq_some_iff.mp more
      rcases child?_setChild_or there t with ⟨meets, before, now⟩ | same
      · rw [Path.meet_cons, meets, Bool.true_and] at apart
        rw [get?, get?, before, now, Option.bind_some, Option.bind_some, ih further apart]
      · rw [get?, get?, same]

end Json

namespace World

section

variable {w after : World} {id : ScopeId} {name : String}

/-- A name that its owner binds is bound by no scope below the owner. -/
theorem exists_split_of_owner {slot : Json} (bound : Members.find? name (w.bindings (w.owner id name)) = some slot) :
    ∃ below above, w.chain id = below ++ w.owner id name :: above ∧ ∀ s ∈ below, w.binds name s = false := by
  have binds : w.binds name (w.owner id name) = true := by simp [World.binds, Members.contains, bound]
  cases binder : (w.chain id).find? (w.binds name) with
  | some owner =>
    have own : w.owner id name = owner := by simp [World.owner, binder]
    obtain ⟨_, below, above, split, unbound⟩ := List.find?_eq_some_iff_append.mp binder
    exact ⟨below, above, own ▸ split, fun s member => by simpa using unbound s member⟩
  | none =>
    -- The owner is the root then, which would have been found.
    have own : w.owner id name = w.root id := by simp [World.owner, binder]
    have missing : w.root id ∉ w.chain id := fun member =>
      List.find?_eq_none.mp binder _ member (own ▸ binds)
    cases present : w.scope? id with
    | none =>
      have empty : w.chain id = [] := chain_of_missing (by simp [shape?, present])
      have self : w.root id = id := by simp [root, empty]
      rw [own, self, World.binds, bindings, present] at binds
      cases binds
    | some scope =>
      have starts : id ∈ w.chain id := by
        simp only [chain, chainWithin, scope?] at present ⊢
        rw [present]
        dsimp only
        cases scope.parent <;> exact List.mem_cons_self
      refine absurd ?_ missing
      rw [root, List.getLast?_eq_some_getLast (List.ne_nil_of_mem starts)]
      exact List.getLast_mem _

theorem lookup_of_owner {slot : Json} (bound : Members.find? name (w.bindings (w.owner id name)) = some slot) :
    w.lookup id name = some slot := by
  obtain ⟨below, above, split, unbound⟩ := exists_split_of_owner bound
  exact lookup_of_unbound split unbound bound

/-- Where only the owner of a name binds it differently, the name is looked up as the owner binds it. -/
theorem lookup_of_rebound {slot new : Json} (bound : Members.find? name (w.bindings (w.owner id name)) = some slot)
    (shapes : ∀ s, after.shape? s = w.shape? s)
    (others : ∀ s, s ≠ w.owner id name → after.bindings s = w.bindings s)
    (now : Members.find? name (after.bindings (w.owner id name)) = some new) :
    after.lookup id name = some new := by
  obtain ⟨below, above, split, unbound⟩ := exists_split_of_owner bound
  rw [← chain_of_shapes shapes] at split
  refine lookup_of_unbound split (fun s member => ?_) now
  have different : s ≠ w.owner id name := by
    rintro rfl
    have free := unbound _ member
    simp [World.binds, Members.contains, bound] at free
  rw [World.binds, others s different]
  exact unbound s member

end

/-- At a path, through a scope, one array has been replaced by another: a single binding has changed, in the
owner of the first name, and in it what the path names. -/
structure ArrayReplaced (id : ScopeId) (path : String) (xs ys : List Json) (w after : World) : Prop where
  before : w.read id path = .ok (.array xs)
  now : after.read id path = .ok (.array ys)
  binding : ∃ first rest old new, target path = .ok (first, rest) ∧
    Members.find? first (w.bindings (w.owner id first)) = some old ∧
    after.bindings (w.owner id first) = Members.insert first new (w.bindings (w.owner id first)) ∧
    old.get? rest = some (.array xs) ∧ new.get? rest = some (.array ys) ∧
    (∀ p, Path.meet rest p = false → new.get? p = old.get? p) ∧
    ∀ s, s ≠ w.owner id first → after.bindings s = w.bindings s

/-- Neither the scopes nor what the host has seen has changed. -/
def Unmoved (w after : World) : Prop := after.scopes = w.scopes ∧ after.events = w.events

theorem unmoved_modifySession (w : World) (id : ScopeId) (change : Session → Session) :
    w.Unmoved (w.modifySession id change) := by
  refine ⟨modifySession_scopes w id change, ?_⟩
  unfold modifySession
  split <;> rfl

section

variable {w after : World} {id : ScopeId} {path : String} {edit : ArrayEdit}

theorem unmoved_afterParsing (id : ScopeId) (path : String) (w : World) : w.Unmoved (w.afterParsing id path) := by
  rcases afterParsing_eq id path w with same | ⟨paths, same⟩
  · rw [same]
    exact ⟨rfl, rfl⟩
  · rw [same]
    exact unmoved_modifySession w id _

theorem unmoved_keptByEvaluation (w : World) : KeptByEvaluation (w.Unmoved ·) :=
  .of_sessions fun id change _ unmoved =>
    let moves := unmoved_modifySession _ id change
    ⟨moves.1.trans unmoved.1, moves.2.trans unmoved.2⟩

theorem editArray_fails {e : Error} (ran : (editArray id path edit).run w = (.error e, after)) :
    w.Unmoved after := by
  unfold editArray at ran
  rw [run_updatePath] at ran
  have parsing := unmoved_afterParsing id path w
  cases named : target path with
  | error e =>
    rw [named] at ran
    cases ran
    exact parsing
  | ok found =>
    obtain ⟨first, rest⟩ := found
    rw [named] at ran
    dsimp only at ran
    split at ran
    · cases ran
      exact parsing
    · cases ran

theorem editArray_replaces (ran : (editArray id path edit).run w = (.ok (), after)) :
    ∃ xs, ArrayReplaced id path xs (edit.apply xs) w after := by
  obtain ⟨first, rest, xs, left, named, held, beside, same⟩ := editArray_tells (by rw [ran])
  rw [ran] at same
  dsimp only at same
  have scopes : after.scopes = (w.modifyBindings (w.owner id first)
      (replaceBelow first rest (.array (edit.apply xs)))).scopes := by
    rw [same, ← beside.scopes]
    split
    · exact notify_scopes ..
    · rfl
  obtain ⟨old, bound, found⟩ := Option.bind_eq_some_iff.mp held
  obtain ⟨new, replaced⟩ := Json.exists_replace? found (.array (edit.apply xs))
  obtain ⟨scope, present⟩ : ∃ scope, w.scope? (w.owner id first) = some scope := by
    cases present : w.scope? (w.owner id first) with
    | some scope => exact ⟨scope, rfl⟩
    | none => simp [bindings, present, Members.find?] at bound
  have here : after.bindings (w.owner id first) = Members.insert first new (w.bindings (w.owner id first)) := by
    rw [bindings_congr scopes, bindings_modifyBindings_self present, replaceBelow, bound, Option.bind_some, replaced]
  have others (s : ScopeId) (different : s ≠ w.owner id first) : after.bindings s = w.bindings s := by
    rw [bindings_congr scopes, bindings_modifyBindings_ne different]
  have put : new.get? rest = some (.array (edit.apply xs)) := Json.get?_replace? replaced
  obtain ⟨segment, parsed, rfl, _, _⟩ := target_ok named
  refine ⟨xs, ?_, ?_, _, rest, old, new, named, bound, here, found, put,
    fun p apart => Json.get?_replace?_apart replaced apart, others⟩
  · rw [read_of_lookup parsed (lookup_of_owner bound), found]
    rfl
  · have looked := lookup_of_rebound bound (shape?_of_modified scopes) others
      (here ▸ Members.find?_insert_self _ _ _)
    rw [read_of_lookup parsed looked, put]
    rfl

theorem ArrayReplaced.congr {between : World} {xs ys : List Json}
    (replaced : ArrayReplaced id path xs ys between after) (same : between.scopes = w.scopes) :
    ArrayReplaced id path xs ys w after := by
  obtain ⟨before, now, first, rest, old, new, named, bound, here, found, put, apart, others⟩ := replaced
  refine ⟨?_, now, first, rest, old, new, named, ?_, ?_, found, put, apart, ?_⟩
  · simpa only [World.read, lookup_congr same] using before
  · simpa only [owner_congr same, bindings_congr same] using bound
  · simpa only [owner_congr same, bindings_congr same] using here
  · simpa only [owner_congr same, bindings_congr same] using others

/-- The parameters of a splice are two numbers, of which the second may be absent, and values. -/
theorem evaluateSplice_ok {start : Json} {deleteCount items : Option Json}
    (known : ((evaluateSplice id start deleteCount items).run w).1 = .ok edit) :
    ∃ x n values, edit = .splice x n values ∧ n.isSome = deleteCount.isSome := by
  have ran : (evaluateSplice id start deleteCount items).run w =
      (.ok edit, ((evaluateSplice id start deleteCount items).run w).2) := Prod.ext known rfl
  obtain ⟨x, _, _, ran⟩ := run_bind_eq_ok.mp ran
  obtain ⟨n, _, counted, ran⟩ := run_bind_eq_ok.mp ran
  have made : ∃ values, edit = .splice x n values := by
    cases items with
    | none =>
      obtain ⟨values, _, _, made⟩ := run_bind_eq_ok.mp ran
      cases made
      exact ⟨values, rfl⟩
    | some v =>
      obtain ⟨values, _, _, made⟩ := run_bind_eq_ok.mp ran
      cases made
      exact ⟨values, rfl⟩
  obtain ⟨values, rfl⟩ := made
  refine ⟨x, n, values, rfl, ?_⟩
  cases deleteCount with
  | none =>
    cases counted
    rfl
  | some v =>
    obtain ⟨_, _, _, made⟩ := run_bind_eq_ok.mp counted
    cases made
    rfl

end

end World

namespace Execute

open World (ArrayReplaced editArray unmoved_keptByEvaluation)

/-- What an array action at a path makes of the items of an array, its parameters evaluated in a world. -/
inductive Edits (id : ScopeId) (w : World) : Action → String → List Json → List Json → Prop
  | push {path inserted items xs} (known : ((World.evaluateInsert id inserted).run w).1 = .ok items) :
      Edits id w (.push path inserted) path xs (xs ++ items)
  | unshift {path inserted items xs} (known : ((World.evaluateInsert id inserted).run w).1 = .ok items) :
      Edits id w (.unshift path inserted) path xs (items ++ xs)
  | pop {path xs} : Edits id w (.pop path) path xs xs.dropLast
  | shift {path xs} : Edits id w (.shift path) path xs xs.tail
  | splice {path start deleteCount items x n values xs first removed}
      (known : ((World.evaluateSplice id start deleteCount items).run w).1 = .ok (.splice x n values))
      (counted : n.isSome = deleteCount.isSome) (range : SpliceRange x n xs.length first removed) :
      Edits id w (.splice path start deleteCount items) path xs
        (xs.take first ++ values ++ xs.drop (first + removed))

section

variable {reenter : Reenter} {budget : Budget} {id : ScopeId} {raw : Json} {action : Action} {m : Machine}

/-- An edit made of evaluated parameters replaces an array, or nothing has changed when it fails. -/
theorem onWorld_edits {α : Type} {evaluated : WorldM α} (kept : Keeps (m.world.Unmoved ·) evaluated)
    (make : α → ArrayEdit) (path : String) :
    let run := onWorld (evaluated >>= fun a => editArray id path (make a))
    (∀ after, run.run m = (.ok (), after) → ∃ a xs, (evaluated.run m.world).1 = .ok a ∧
      ArrayReplaced id path xs ((make a).apply xs) m.world after.world) ∧
    ∀ why after, run.run m = (.error why, after) → m.world.Unmoved after.world := by
  intro run
  have moves := kept m.world ⟨rfl, rfl⟩
  have whole : run.run m = _ := run_onWorld (evaluated >>= fun a => editArray id path (make a)) m
  rw [run_bind] at whole
  rcases known : evaluated.run m.world with ⟨e | a, between⟩
  · rw [known] at whole moves
    rw [whole]
    refine ⟨nofun, ?_⟩
    rintro why after ⟨⟩
    exact moves
  · rw [known] at whole moves
    dsimp only at whole moves
    rcases wrote : (editArray id path (make a)).run between with ⟨e | ⟨⟩, left⟩
    · rw [whole, wrote]
      refine ⟨nofun, ?_⟩
      rintro why after ⟨⟩
      have stays := World.editArray_fails wrote
      exact ⟨stays.1.trans moves.1, stays.2.trans moves.2⟩
    · rw [whole, wrote]
      refine ⟨?_, nofun⟩
      rintro after ⟨⟩
      obtain ⟨xs, replaced⟩ := World.editArray_replaces wrote
      exact ⟨a, xs, rfl, replaced.congr moves.1⟩

end

/-- A world whose root binds three items. -/
def withList : Machine := { world := World.holding [("list", .array [.bool true, .bool false, .null])] }

/-- Takes out the last but one item of the list, counted from the end, and puts another in its place. -/
def exchange : Action := .splice "list" (.int (-2)) (some (.int 1)) (some (.array [.bool true]))

end Execute

end StateScript
