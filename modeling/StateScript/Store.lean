/-!
A store of numbered items. Numbers are given out in increasing order and never used again.
-/

namespace StateScript

/-- Items under their numbers, the latest first, and the next number. -/
structure Store (α : Type) where
  entries : List (Nat × α)
  next : Nat
  decreasing : (next :: entries.map Prod.fst).Pairwise (· > ·)

namespace Store

variable {α : Type}

def empty : Store α := ⟨[], 1, List.pairwise_singleton ..⟩

def find? (id : Nat) (s : Store α) : Option α := s.entries.lookup id

/-- Adds an item; gives its number. -/
def add (item : α) (s : Store α) : Nat × Store α :=
  (s.next, {
    entries := (s.next, item) :: s.entries
    next := s.next + 1
    decreasing := by
      refine List.pairwise_cons.mpr ⟨fun k member => ?_, s.decreasing⟩
      rcases List.mem_cons.mp member with rfl | old
      · exact Nat.lt_succ_self _
      · exact Nat.lt_succ_of_lt ((List.pairwise_cons.mp s.decreasing).1 k old) })

/-- Changes the item with a number. -/
def modify (id : Nat) (change : α → α) (s : Store α) : Store α :=
  { s with
    entries := s.entries.map fun (k, item) => if k = id then (k, change item) else (k, item)
    decreasing := by
      have same : (s.entries.map fun (k, item) => if k = id then (k, change item) else (k, item)).map Prod.fst =
          s.entries.map Prod.fst := by
        rw [List.map_map]
        refine List.map_congr_left fun (k, item) _ => ?_
        by_cases hit : k = id <;> simp [hit]
      rw [same]
      exact s.decreasing }

/-- Keeps the items whose numbers pass a test. -/
def filter (keep : Nat → Bool) (s : Store α) : Store α :=
  { s with
    entries := s.entries.filter fun (k, _) => keep k
    decreasing := s.decreasing.sublist ((List.filter_sublist.map Prod.fst).cons_cons s.next) }

def erase (id : Nat) (s : Store α) : Store α := s.filter (· != id)

end Store

end StateScript
