import StateScript.Proofs.Templates

/-!
Where one text occurs in another. A search gives the leftmost occurrence, and the pieces between the occurrences of
a separator come to the whole text again once the separator is put between them.
-/

namespace StateScript

namespace Text

section

variable {needle text before behind : List Char}

/-- No occurrence begins further left than the one at which a text is broken. -/
theorem length_le_of_breakOn {front back : List Char} (found : breakOn needle text = some (before, behind))
    (occurs : text = front ++ needle ++ back) : before.length ≤ front.length := by
  induction text generalizing before front with
  | nil =>
    simp only [breakOn] at found
    split at found <;> cases found
    exact Nat.zero_le _
  | cons c rest ih =>
    simp only [breakOn] at found
    split at found
    · cases found
      exact Nat.zero_le _
    · rename_i elsewhere
      obtain ⟨pair, later, same⟩ := Option.map_eq_some_iff.mp found
      cases same
      cases front with
      | nil =>
        refine absurd (List.isPrefixOf_iff_prefix.mpr ⟨back, ?_⟩) elsewhere
        exact occurs.symm
      | cons d front =>
        have further : rest = front ++ needle ++ back := (List.cons.inj occurs).2
        exact Nat.succ_le_succ (ih later further)

/-- A text is searched for the place where it would be broken. -/
theorem find?_eq_breakOn (needle text : List Char) :
    find? needle text = (breakOn needle text).map fun parts => parts.1.length := by
  induction text with
  | nil =>
    simp only [find?, breakOn]
    split <;> rfl
  | cons c rest ih =>
    simp only [find?, breakOn]
    split
    · rfl
    · rw [ih, Option.map_map, Option.map_map]
      rfl

theorem isSome_find? : (find? needle text).isSome = true ↔ needle <:+: text := by
  rw [find?_eq_breakOn, Option.isSome_map]
  by_cases empty : needle = []
  · subst empty
    cases text <;> simp [breakOn]
  · rw [← not_iff_not, ← breakOn_eq_none_iff empty, Bool.not_eq_true, Option.isSome_eq_false_iff,
      Option.isNone_iff_eq_none]

/-- A search gives the least position at which the rest of the text begins with the needle. -/
theorem find?_eq_some {i : Nat} (found : find? needle text = some i) :
    i + needle.length ≤ text.length ∧ needle <+: text.drop i ∧ ∀ j < i, ¬ needle <+: text.drop j := by
  rw [find?_eq_breakOn] at found
  obtain ⟨⟨before, behind⟩, broken, rfl⟩ := Option.map_eq_some_iff.mp found
  have whole : text = before ++ needle ++ behind := breakOn_eq_some broken
  refine ⟨?_, ⟨behind, ?_⟩, fun j earlier here => ?_⟩
  · have length := congrArg List.length whole
    simp only [List.length_append] at length
    dsimp only
    omega
  · rw [whole, List.append_assoc, List.drop_left]
  · obtain ⟨back, stands⟩ := here
    have occurs : text = text.take j ++ needle ++ back := by
      rw [List.append_assoc, stands, List.take_append_drop]
    have least := length_le_of_breakOn broken occurs
    have short := List.length_take_le j text
    dsimp only at earlier
    omega

end

section

variable {separator : List Char} (some' : separator ≠ [])

theorem piecesFrom_ne_nil (separator : List Char) (skip : Nat) (text : List Char) :
    piecesFrom separator skip text ≠ [] := by
  induction text generalizing skip with
  | nil => cases skip <;> simp [piecesFrom]
  | cons c rest ih =>
    cases skip with
    | succ skip => exact ih skip
    | zero =>
      simp only [piecesFrom]
      split
      · exact List.cons_ne_nil _ _
      · cases piecesFrom separator 0 rest <;> simp [consFirst]

theorem intercalate_consFirst (separator : List Char) (c : Char) {pieces : List (List Char)} (some' : pieces ≠ []) :
    separator.intercalate (consFirst c pieces) = c :: separator.intercalate pieces := by
  obtain ⟨piece, rest, rfl⟩ := List.exists_cons_of_ne_nil some'
  cases rest with
  | nil => simp [consFirst]
  | cons second more => simp [consFirst, List.intercalate_cons_cons]

include some'

/-- The separator between the pieces gives the text behind what was still to be passed over. -/
theorem intercalate_piecesFrom (skip : Nat) (text : List Char) :
    separator.intercalate (piecesFrom separator skip text) = text.drop skip := by
  induction text generalizing skip with
  | nil => cases skip <;> simp [piecesFrom]
  | cons c rest ih =>
    cases skip with
    | succ skip => exact ih skip
    | zero =>
      simp only [piecesFrom]
      split
      · rename_i here
        obtain ⟨behind, stands⟩ := List.isPrefixOf_iff_prefix.mp here
        obtain ⟨d, more, rfl⟩ := List.exists_cons_of_ne_nil some'
        obtain ⟨rfl, rfl⟩ := List.cons.inj stands
        rw [List.intercalate_cons_of_ne_nil (piecesFrom_ne_nil _ _ _), ih]
        simp
      · rw [intercalate_consFirst _ _ (piecesFrom_ne_nil _ _ _), ih]
        rfl

/-- The first piece is the front of the text, and no piece holds the separator. -/
theorem piecesFrom_unbroken (skip : Nat) (text : List Char) :
    (∀ piece ∈ (piecesFrom separator skip text).head?, piece <+: text.drop skip) ∧
      ∀ piece ∈ piecesFrom separator skip text, ¬ separator <:+: piece := by
  have unbroken : ¬ separator <:+: [] := fun inside => some' (List.infix_nil.mp inside)
  induction text generalizing skip with
  | nil => cases skip <;> simp [piecesFrom, some']
  | cons c rest ih =>
    cases skip with
    | succ skip => exact ih skip
    | zero =>
      simp only [piecesFrom]
      split
      · refine ⟨by simp, ?_⟩
        exact List.forall_mem_cons.mpr ⟨unbroken, (ih _).2⟩
      · rename_i elsewhere
        obtain ⟨first, each⟩ := ih 0
        obtain ⟨piece, more, split'⟩ := List.exists_cons_of_ne_nil (piecesFrom_ne_nil separator 0 rest)
        rw [split'] at first each ⊢
        obtain ⟨here, others⟩ := List.forall_mem_cons.mp each
        have front : piece <+: rest := first piece rfl
        have longer : c :: piece <+: c :: rest := List.cons_prefix_cons.mpr ⟨rfl, front⟩
        refine ⟨by simpa [consFirst] using front, List.forall_mem_cons.mpr ⟨fun inside => ?_, others⟩⟩
        rcases List.infix_cons_iff.mp inside with starts | within
        · exact elsewhere (List.isPrefixOf_iff_prefix.mpr (starts.trans longer))
        · exact here within

end

/-- Putting the separator back between the pieces of a text gives the text. -/
theorem intercalate_split (separator text : List Char) : separator.intercalate (split separator text) = text := by
  unfold split
  split
  · rename_i empty
    rw [List.isEmpty_iff.mp empty]
    induction text with
    | nil => rfl
    | cons c rest ih =>
      cases rest with
      | nil => rfl
      | cons d more => simpa [List.intercalate_cons_cons] using ih
  · rename_i some'
    exact intercalate_piecesFrom (fun empty => some' (List.isEmpty_iff.mpr empty)) 0 text

theorem length_of_mem_split {text piece : List Char} (member : piece ∈ split [] text) : piece.length = 1 := by
  obtain ⟨c, _, rfl⟩ := List.mem_map.mp member
  rfl

theorem split_unbroken {separator text piece : List Char} (some' : separator ≠ [])
    (member : piece ∈ split separator text) : ¬ separator <:+: piece := by
  unfold split at member
  rw [if_neg (fun empty => some' (List.isEmpty_iff.mp empty))] at member
  exact (piecesFrom_unbroken some' 0 text).2 piece member

end Text

end StateScript
