import Mathlib
import StateScript.Json.Basic

/-!
Looking up keys after a value has been stored: the key itself finds the new value, every other key
finds what it found before, and storing what is there already changes nothing.
-/

namespace StateScript.Members

theorem find?_replace_ne {key other : String} (different : other ≠ key) (value : Json) (ms : Members) :
    find? other (replace key value ms) = find? other ms := by
  induction ms with
  | nil => rfl
  | cons head rest ih =>
    obtain ⟨k, v⟩ := head
    by_cases same : k = key
    · have apart : ¬ k = other := fun equal => different (equal.symm.trans same)
      simp only [replace, if_pos same, find?, if_neg (Ne.symm different), if_neg apart]
    · simp only [replace, if_neg same, find?, ih]

theorem find?_insertNew_ne {key other : String} (different : other ≠ key) (value : Json) (ms : Members) :
    find? other (insertNew key value ms) = find? other ms := by
  induction ms with
  | nil => simp only [insertNew, find?, if_neg (Ne.symm different)]
  | cons head rest ih =>
    obtain ⟨k, v⟩ := head
    by_cases before : key < k
    · simp only [insertNew, if_pos before]
      rw [find?, if_neg (Ne.symm different)]
    · simp only [insertNew, if_neg before, find?, ih]

theorem find?_insert_ne {key other : String} (different : other ≠ key) (value : Json) (ms : Members) :
    find? other (insert key value ms) = find? other ms := by
  unfold insert
  split
  · exact find?_replace_ne different value ms
  · exact find?_insertNew_ne different value ms

theorem find?_replace_self {key : String} {old : Json} (value : Json) {ms : Members}
    (found : find? key ms = some old) : find? key (replace key value ms) = some value := by
  induction ms with
  | nil => simp [find?] at found
  | cons head rest ih =>
    obtain ⟨k, v⟩ := head
    by_cases same : k = key
    · simp only [replace, if_pos same, find?, if_true]
    · rw [find?, if_neg same] at found
      simp only [replace, if_neg same, find?, ih found]

theorem find?_insertNew_self {key : String} (value : Json) {ms : Members}
    (missing : find? key ms = none) : find? key (insertNew key value ms) = some value := by
  induction ms with
  | nil => simp only [insertNew, find?, if_true]
  | cons head rest ih =>
    obtain ⟨k, v⟩ := head
    by_cases before : key < k
    · simp only [insertNew, if_pos before, find?, if_true]
    · have different : ¬ k = key := by
        intro same
        rw [find?, if_pos same] at missing
        cases missing
      rw [find?, if_neg different] at missing
      simp only [insertNew, if_neg before, find?, if_neg different, ih missing]

theorem find?_insert_self (key : String) (value : Json) (ms : Members) :
    find? key (insert key value ms) = some value := by
  unfold insert contains
  cases found : find? key ms with
  | none => exact find?_insertNew_self value found
  | some old => exact find?_replace_self value found

theorem replace_eq_self {key : String} {value : Json} {ms : Members}
    (found : find? key ms = some value) : replace key value ms = ms := by
  induction ms with
  | nil => rfl
  | cons head rest ih =>
    obtain ⟨k, v⟩ := head
    by_cases same : k = key
    · rw [find?, if_pos same] at found
      cases found
      simp only [replace, same, if_true]
    · rw [find?, if_neg same] at found
      simp only [replace, if_neg same, ih found]

theorem insert_eq_self {key : String} {value : Json} {ms : Members}
    (found : find? key ms = some value) : insert key value ms = ms := by
  have present : contains key ms = true := by rw [contains, found]; rfl
  rw [insert, if_pos present]
  exact replace_eq_self found

/-- Storing a value leaves the members as they were only where the key had that value. -/
theorem insert_eq_self_iff {key : String} {value : Json} {ms : Members} :
    insert key value ms = ms ↔ find? key ms = some value := by
  constructor
  · intro same
    rw [← same]
    exact find?_insert_self key value ms
  · exact insert_eq_self

theorem replace_replace (key : String) (first second : Json) (ms : Members) :
    replace key second (replace key first ms) = replace key second ms := by
  induction ms with
  | nil => rfl
  | cons head rest ih =>
    obtain ⟨k, v⟩ := head
    by_cases same : k = key
    · simp only [replace, if_pos same, if_true]
    · simp only [replace, if_neg same, ih]

theorem replace_insertNew {key : String} {ms : Members} (missing : find? key ms = none) (first second : Json) :
    replace key second (insertNew key first ms) = insertNew key second ms := by
  induction ms with
  | nil => simp only [insertNew, replace, if_true]
  | cons head rest ih =>
    obtain ⟨k, v⟩ := head
    have different : ¬ k = key := by
      intro same
      rw [find?, if_pos same] at missing
      cases missing
    rw [find?, if_neg different] at missing
    by_cases before : key < k
    · simp only [insertNew, if_pos before, replace, if_true]
    · simp only [insertNew, if_neg before, replace, if_neg different, ih missing]

/-- Of two values stored under a key the second counts. -/
theorem insert_insert (key : String) (first second : Json) (ms : Members) :
    insert key second (insert key first ms) = insert key second ms := by
  have stored : contains key (insert key first ms) = true := by
    rw [contains, find?_insert_self]
    rfl
  rw [insert, if_pos stored]
  cases found : find? key ms with
  | none => simp only [insert, contains, found, Option.isSome_none, Bool.false_eq_true, if_false,
      replace_insertNew found]
  | some old => simp only [insert, contains, found, Option.isSome_some, if_true, replace_replace]

theorem erase_eq_self {key : String} {ms : Members} (missing : find? key ms = none) : erase key ms = ms := by
  induction ms with
  | nil => rfl
  | cons head rest ih =>
    obtain ⟨k, v⟩ := head
    by_cases same : k = key
    · rw [find?, if_pos same] at missing
      cases missing
    · rw [find?, if_neg same] at missing
      simp only [erase, if_neg same, ih missing]

end StateScript.Members
