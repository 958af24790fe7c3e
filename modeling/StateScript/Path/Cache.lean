import StateScript.Path.Reader

/-!
A bounded memo of parsed paths. It holds no text with another path than the text parses to, and
a full memo is emptied before a new path is stored.
-/

namespace StateScript

structure PathCache where
  capacity : Nat
  entries : List (String × Path)
  parsed : ∀ entry ∈ entries, Path.parse entry.1 = .ok entry.2

namespace PathCache

/-- An empty cache; it holds at least one path. -/
def ofCapacity (capacity : Nat) : PathCache := ⟨max capacity 1, [], by simp⟩

/-- Stores a text with the path that it parses to. -/
def remember (cache : PathCache) (text : String) (path : Path) (found : Path.parse text = .ok path) :
    PathCache :=
  if cache.capacity ≤ cache.entries.length then
    { cache with entries := [(text, path)], parsed := by simpa using found }
  else
    { cache with
      entries := (text, path) :: cache.entries
      parsed := by
        intro entry member
        rcases List.mem_cons.mp member with rfl | old
        · exact found
        · exact cache.parsed entry old }

/-- Parses a path through the cache. -/
def parse (cache : PathCache) (text : String) : Except Error Path × PathCache :=
  match cache.entries.lookup text with
  | some path => (.ok path, cache)
  | none =>
    match found : Path.parse text with
    | .error e => (.error e, cache)
    | .ok path => (.ok path, cache.remember text path found)

def size (cache : PathCache) : Nat := cache.entries.length

def clear (cache : PathCache) : PathCache := { cache with entries := [], parsed := by simp }

end PathCache

end StateScript
