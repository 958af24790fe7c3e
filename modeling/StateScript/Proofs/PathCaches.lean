import StateScript.Proofs.ScopeWrites

/-!
Paths parsed through a cache. In any course of calls each text is answered as if there were no cache, and the cache
never holds more texts than it may, nor one twice, nor one with another path than its own.
-/

namespace StateScript

namespace PathCache

/-- One call on a cache. -/
inductive Call where
  | parse (text : String)
  | clear

/-- What a call answers, and the cache that it leaves. -/
def Call.perform : Call → PathCache → Option (Except Error Path) × PathCache
  | parse text, cache => (some (cache.parse text).1, (cache.parse text).2)
  | clear, cache => (none, cache.clear)

/-- What a call answers where nothing is remembered. -/
def Call.answer : Call → Option (Except Error Path)
  | parse text => some (Path.parse text)
  | clear => none

/-- Calls one after another: what each of them answers, and the cache behind it. -/
def course (cache : PathCache) : List Call → List (Option (Except Error Path) × PathCache)
  | [] => []
  | call :: rest => call.perform cache :: course (call.perform cache).2 rest

/-- A cache made for a capacity holds no more texts than that, but always one, and each only once. -/
structure Tidy (capacity : Nat) (cache : PathCache) : Prop where
  room : cache.capacity = max capacity 1
  bounded : cache.size ≤ max capacity 1
  distinct : (cache.entries.map Prod.fst).Nodup

/-- A call is answered as it is without a cache, and what the cache holds afterwards are parsed texts, with the one
just asked for among them, or none at all behind a clearing. -/
structure Served (capacity : Nat) (call : Call) (answer : Option (Except Error Path)) (behind : PathCache) :
    Prop where
  transparent : answer = call.answer
  bounded : behind.size ≤ max capacity 1
  distinct : (behind.entries.map Prod.fst).Nodup
  parsed : ∀ entry ∈ behind.entries, Path.parse entry.1 = .ok entry.2
  remembered : ∀ text path, call = .parse text → Path.parse text = .ok path → (text, path) ∈ behind.entries
  cleared : call = .clear → behind.size = 0

section

variable {capacity : Nat} {cache : PathCache}

/-- A text is found, is refused, or is new and remembered. -/
theorem parse_cases (cache : PathCache) (text : String) :
    ((∃ path, (text, path) ∈ cache.entries) ∧ (cache.parse text).2 = cache) ∨
    ((∃ e, Path.parse text = .error e) ∧ (cache.parse text).2 = cache) ∨
    (∃ path, ∃ found : Path.parse text = .ok path,
      text ∉ cache.entries.map Prod.fst ∧ (cache.parse text).2 = cache.remember text path found) := by
  unfold PathCache.parse
  cases held : cache.entries.lookup text with
  | some path =>
    obtain ⟨before, behind, same, _⟩ := List.lookup_eq_some_iff.mp held
    exact Or.inl ⟨⟨path, by simp [same]⟩, rfl⟩
  | none =>
    have new : text ∉ cache.entries.map Prod.fst := by
      rw [List.lookup_eq_none_iff] at held
      rintro member
      obtain ⟨entry, among, rfl⟩ := List.mem_map.mp member
      simpa using held entry among
    dsimp only
    split
    · rename_i e refused
      exact Or.inr (Or.inl ⟨⟨e, refused⟩, rfl⟩)
    · rename_i path found
      exact Or.inr (Or.inr ⟨path, found, new, rfl⟩)

theorem tidy_ofCapacity (capacity : Nat) : Tidy capacity (ofCapacity capacity) :=
  ⟨rfl, Nat.zero_le _, List.nodup_nil⟩

theorem Tidy.clear (tidy : Tidy capacity cache) : Tidy capacity cache.clear :=
  ⟨tidy.room, Nat.zero_le _, List.nodup_nil⟩

theorem mem_remember {text : String} {path : Path} (found : Path.parse text = .ok path) :
    (text, path) ∈ (cache.remember text path found).entries := by
  unfold remember
  split <;> exact List.mem_cons_self ..

/-- A new text takes the place of all others in a full cache, and stands beside them otherwise. -/
theorem Tidy.remember {text : String} {path : Path} (tidy : Tidy capacity cache)
    (found : Path.parse text = .ok path) (new : text ∉ cache.entries.map Prod.fst) :
    Tidy capacity (cache.remember text path found) := by
  have room := tidy.room
  unfold PathCache.remember
  split
  · exact ⟨room, Nat.le_max_right _ _, List.nodup_singleton _⟩
  · rename_i free
    refine ⟨room, ?_, List.nodup_cons.mpr ⟨new, tidy.distinct⟩⟩
    show cache.entries.length + 1 ≤ max capacity 1
    omega

theorem Tidy.perform (tidy : Tidy capacity cache) (call : Call) : Tidy capacity (call.perform cache).2 := by
  cases call with
  | clear => exact tidy.clear
  | parse text =>
    show Tidy capacity (cache.parse text).2
    rcases parse_cases cache text with ⟨_, same⟩ | ⟨_, same⟩ | ⟨path, found, new, same⟩
    · rwa [same]
    · rwa [same]
    · rw [same]
      exact tidy.remember found new

theorem mem_parse (cache : PathCache) {text : String} {path : Path} (found : Path.parse text = .ok path) :
    (text, path) ∈ (cache.parse text).2.entries := by
  rcases parse_cases cache text with ⟨⟨other, held⟩, same⟩ | ⟨⟨e, refused⟩, _⟩ | ⟨other, here, _, same⟩
  · have own := cache.parsed _ held
    rw [found, Except.ok.injEq] at own
    rwa [same, own]
  · cases found.symm.trans refused
  · cases found.symm.trans here
    rw [same]
    exact mem_remember found

theorem Tidy.served (tidy : Tidy capacity cache) (call : Call) :
    Served capacity call (call.perform cache).1 (call.perform cache).2 where
  transparent := by
    cases call with
    | parse text => exact congrArg some (parse_result cache text)
    | clear => rfl
  bounded := (tidy.perform call).bounded
  distinct := (tidy.perform call).distinct
  parsed := (call.perform cache).2.parsed
  remembered := by
    rintro text path rfl found
    exact mem_parse cache found
  cleared := by
    rintro rfl
    rfl

/-- What one call keeps, any number of them keeps. -/
theorem Tidy.course (tidy : Tidy capacity cache) (calls : List Call) :
    List.Forall₂ (fun call moment => Served capacity call moment.1 moment.2) calls (cache.course calls) := by
  induction calls generalizing cache with
  | nil => exact .nil
  | cons call rest ih => exact .cons (tidy.served call) (ih (tidy.perform call))

end

/-- A cache of any capacity serves every course of calls, from the first one on. -/
theorem course_served (capacity : Nat) (calls : List Call) :
    List.Forall₂ (fun call moment => Served capacity call moment.1 moment.2) calls
      ((ofCapacity capacity).course calls) :=
  (tidy_ofCapacity capacity).course calls

/-- With room for one path the second text takes the place of the first, and a text that is no path changes nothing. -/
example : ((ofCapacity 0).course [.parse "a.b", .parse "c", .parse "c.", .clear]).map
    (fun moment => moment.2.entries.map Prod.fst) = [["a.b"], ["c"], ["c"], []] := by rfl

end PathCache

end StateScript
