import Mathlib
import StateScript.Store

/-!
What a store finds under a number after it has been changed.
-/

namespace StateScript.Store

variable {α : Type}

theorem lookup_cons_eq_if (id k : Nat) (item : α) (rest : List (Nat × α)) :
    List.lookup id ((k, item) :: rest) = if id = k then some item else List.lookup id rest := by
  by_cases hit : id = k
  · simp [hit]
  · have miss : (id == k) = false := by simpa using hit
    simp [List.lookup_cons, miss, hit]

theorem lookup_map (id other : Nat) (change : α → α) (entries : List (Nat × α)) :
    (entries.map fun (k, item) => if k = id then (k, change item) else (k, item)).lookup other =
      if other = id then (entries.lookup other).map change else entries.lookup other := by
  induction entries with
  | nil => simp
  | cons head rest ih =>
    obtain ⟨k, item⟩ := head
    by_cases target : k = id
    · simp only [List.map_cons, target, if_true, lookup_cons_eq_if]
      by_cases hit : other = id
      · simp [hit]
      · simpa [hit] using ih
    · simp only [List.map_cons, target, if_false, lookup_cons_eq_if]
      by_cases hit : other = k
      · simp [hit, target]
      · simpa [hit] using ih

/-- A change reaches the items with its number and no others. -/
theorem find?_modify (id other : Nat) (change : α → α) (s : Store α) :
    (s.modify id change).find? other =
      if other = id then (s.find? other).map change else s.find? other :=
  lookup_map id other change s.entries

theorem find?_add (item : α) (other : Nat) (s : Store α) :
    (s.add item).2.find? other = if other = s.next then some item else s.find? other := by
  unfold add find?
  exact lookup_cons_eq_if other s.next item s.entries

theorem lookup_filter (keep : Nat → Bool) (id : Nat) (entries : List (Nat × α)) :
    (entries.filter fun (k, _) => keep k).lookup id = if keep id then entries.lookup id else none := by
  induction entries with
  | nil => simp
  | cons head rest ih =>
    obtain ⟨k, item⟩ := head
    by_cases hit : id = k
    · subst hit
      cases kept : keep id with
      | false => simpa [kept] using ih
      | true => simp [kept]
    · cases kept : keep k with
      | false => simpa [kept, lookup_cons_eq_if, hit] using ih
      | true => simpa [kept, lookup_cons_eq_if, hit] using ih

theorem find?_filter (keep : Nat → Bool) (s : Store α) (id : Nat) :
    (s.filter keep).find? id = if keep id then s.find? id else none :=
  lookup_filter keep id s.entries

theorem find?_erase (id other : Nat) (s : Store α) :
    (s.erase id).find? other = if other = id then none else s.find? other := by
  rw [erase, find?_filter]
  by_cases hit : other = id
  · simp [hit]
  · simp [hit]

theorem lookup_eq_some_iff {entries : List (Nat × α)} (decreasing : (entries.map Prod.fst).Pairwise (· > ·))
    {id : Nat} {item : α} : entries.lookup id = some item ↔ (id, item) ∈ entries := by
  induction entries with
  | nil => simp
  | cons head rest ih =>
    obtain ⟨k, first⟩ := head
    obtain ⟨below, behind⟩ := List.pairwise_cons.mp decreasing
    rw [lookup_cons_eq_if, List.mem_cons]
    by_cases hit : id = k
    · subst hit
      have once : (id, item) ∉ rest := fun member =>
        Nat.lt_irrefl id (below id (List.mem_map.mpr ⟨(id, item), member, rfl⟩))
      simp [once, eq_comm]
    · simp [hit, ih behind]

theorem find?_eq_some_iff {s : Store α} {id : Nat} {item : α} :
    s.find? id = some item ↔ (id, item) ∈ s.entries :=
  lookup_eq_some_iff (List.pairwise_cons.mp s.decreasing).2

theorem ext {s t : Store α} (entries : s.entries = t.entries) (next : s.next = t.next) : s = t := by
  cases s
  cases t
  cases entries
  cases next
  rfl

theorem lt_next_of_find? {s : Store α} {id : Nat} {item : α} (found : s.find? id = some item) :
    id < s.next :=
  (List.pairwise_cons.mp s.decreasing).1 id
    (List.mem_map.mpr ⟨(id, item), find?_eq_some_iff.mp found, rfl⟩)

end StateScript.Store
