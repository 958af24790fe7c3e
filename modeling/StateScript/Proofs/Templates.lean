import Mathlib
import StateScript.Template

/-!
Trimmed texts and the markers of templates. Once markers are stripped there is nothing left to
strip: the source inside a pair of markers ends before the first closing pair.
-/

namespace StateScript

namespace Text

theorem trim_eq_self {cs : List Char} (first : ∀ c ∈ cs.head?, isBlank c = false)
    (last : ∀ c ∈ cs.getLast?, isBlank c = false) : trim cs = cs := by
  have front : trimStart cs = cs := by
    unfold trimStart
    cases cs with
    | nil => rfl
    | cons c rest => simp [first c (by simp)]
  have back : trimEnd cs = cs := by
    unfold trimEnd
    cases reversed : cs.reverse with
    | nil => simp [List.reverse_eq_nil_iff.mp reversed]
    | cons c rest =>
      have ends : cs.getLast? = some c := by
        rw [← List.head?_reverse, reversed]
        rfl
      rw [List.dropWhile_cons_of_neg (by simp [last c (by simp [ends])]), ← reversed, List.reverse_reverse]
  rw [trim, front, back]

theorem trimStart_suffix (cs : List Char) : trimStart cs <:+ cs := List.dropWhile_suffix isBlank

theorem trimEnd_front (cs : List Char) : trimEnd cs <+: cs := by
  have suffix := List.dropWhile_suffix isBlank (l := cs.reverse)
  rw [← List.reverse_prefix, List.reverse_reverse] at suffix
  exact suffix

theorem trim_infix (cs : List Char) : trim cs <:+: cs :=
  (trimEnd_front (trimStart cs)).isInfix.trans (trimStart_suffix cs).isInfix

theorem trim_trim (cs : List Char) : trim (trim cs) = trim cs := by
  apply trim_eq_self
  · intro c first
    have start := List.head?_dropWhile_not isBlank cs
    obtain ⟨rest, whole⟩ := trimEnd_front (trimStart cs)
    have same : (trimStart cs).head? = some c := by
      rw [← whole, List.head?_append, show (trimEnd (trimStart cs)).head? = some c from first]
      rfl
    rw [show cs.dropWhile isBlank = trimStart cs from rfl, same] at start
    exact start
  · intro c last
    have stop := List.head?_dropWhile_not isBlank (trimStart cs).reverse
    have same : ((trimStart cs).reverse.dropWhile isBlank).head? = some c := by
      rw [← List.getLast?_reverse]
      exact last
    rw [same] at stop
    exact stop

/-- A text is broken wherever the needle occurs. -/
theorem breakOn_eq_none_iff {needle text : List Char} (needed : needle ≠ []) :
    breakOn needle text = none ↔ ¬ needle <:+: text := by
  induction text with
  | nil => simp [breakOn, needed]
  | cons c rest ih =>
    rw [List.infix_cons_iff, not_or, ← ih, ← List.isPrefixOf_iff_prefix, breakOn]
    split
    · rename_i here
      simp [here]
    · rename_i elsewhere
      simp [elsewhere]

theorem breakOn_eq_some {needle text before behind : List Char}
    (found : breakOn needle text = some (before, behind)) : text = before ++ needle ++ behind := by
  induction text generalizing before with
  | nil =>
    simp only [breakOn] at found
    split at found
    · rename_i empty
      cases found
      simp [List.isEmpty_iff.mp empty]
    · cases found
  | cons c rest ih =>
    simp only [breakOn] at found
    split at found
    · rename_i here
      cases found
      exact (List.prefix_iff_eq_append.mp (List.isPrefixOf_iff_prefix.mp here)).symm
    · obtain ⟨pair, later, same⟩ := Option.map_eq_some_iff.mp found
      cases same
      rw [ih later]
      rfl

/-- The needle does not occur before its first occurrence. -/
theorem not_infix_of_breakOn {needle text before behind : List Char} (needed : needle ≠ [])
    (found : breakOn needle text = some (before, behind)) : ¬ needle <:+: before := by
  induction text generalizing before with
  | nil => simp [breakOn, needed] at found
  | cons c rest ih =>
    simp only [breakOn] at found
    split at found
    · cases found
      simpa using needed
    · rename_i elsewhere
      obtain ⟨pair, later, same⟩ := Option.map_eq_some_iff.mp found
      cases same
      rw [List.infix_cons_iff]
      rintro (here | inside)
      · have whole := breakOn_eq_some later
        refine elsewhere (List.isPrefixOf_iff_prefix.mpr (here.trans ⟨needle ++ pair.2, ?_⟩))
        rw [whole]
        simp
      · exact ih later inside

end Text

namespace Template

theorem closing_ne_nil : closing ≠ [] := by simp [closing]

/-- An expression of a template is trimmed and holds no closing pair. -/
theorem expression_of_piecesFrom {fuel : Nat} {cs source : List Char}
    (member : .expression source ∈ piecesFrom fuel cs) :
    Text.trim source = source ∧ ¬ closing <:+: source := by
  have plain (cs : List Char) : .expression source ∉ textPiece cs := by
    unfold textPiece
    split <;> simp
  induction fuel generalizing cs with
  | zero => exact absurd member (plain cs)
  | succ fuel ih =>
    simp only [piecesFrom] at member
    split at member
    · exact absurd member (plain cs)
    · split at member
      · exact absurd member (plain cs)
      · rename_i before behind _ _ inner rest closed
        rcases List.mem_append.mp member with text | later
        · exact absurd text (plain before)
        · rcases List.mem_cons.mp later with here | further
          · obtain rfl : source = Text.trim inner := by simpa using here
            refine ⟨Text.trim_trim inner, fun inside => ?_⟩
            exact Text.not_infix_of_breakOn closing_ne_nil closed (inside.trans (Text.trim_infix inner))
          · exact ih further

/-- A text without closing pairs has no expressions. -/
theorem pieces_of_unclosed {cs : List Char} (unclosed : ¬ closing <:+: cs) : pieces cs = textPiece cs := by
  unfold pieces
  cases cs.length with
  | zero => rfl
  | succ fuel =>
    simp only [piecesFrom]
    split
    · rfl
    · rename_i before behind opened
      have inside : behind <:+: cs := by
        rw [Text.breakOn_eq_some opened]
        exact (List.suffix_append _ _).isInfix
      have open' : Text.breakOn closing behind = none :=
        (Text.breakOn_eq_none_iff closing_ne_nil).mpr fun closes => unclosed (closes.trans inside)
      rw [open']

theorem single?_of_unclosed {cs : List Char} (unclosed : ¬ closing <:+: cs) : single? cs = none := by
  have trimmed : ¬ closing <:+: Text.trim cs := fun inside => unclosed (inside.trans (Text.trim_infix cs))
  rw [single?, pieces_of_unclosed trimmed, textPiece]
  split
  · rename_i source found
    split at found <;> simp at found
  · rfl

theorem single?_eq_some {cs source : List Char} (found : single? cs = some source) :
    Text.trim source = source ∧ ¬ closing <:+: source := by
  unfold single? at found
  split at found
  · rename_i inner only
    cases found
    have member : .expression source ∈ piecesFrom (Text.trim cs).length (Text.trim cs) := by
      rw [← pieces, only]
      exact List.mem_singleton.mpr rfl
    exact expression_of_piecesFrom member
  · cases found

/-- Stripping markers twice is stripping them once. -/
@[simp] theorem stripMarkers_stripMarkers (source : String) :
    stripMarkers (stripMarkers source) = stripMarkers source := by
  have trimmed (cs : List Char) : single? (Text.trim cs) = single? cs := by
    rw [single?, Text.trim_trim, single?]
  unfold stripMarkers
  rw [String.toList_ofList]
  cases marked : single? source.toList with
  | none => simp only [Option.getD_none, trimmed, marked, Text.trim_trim]
  | some inner =>
    obtain ⟨same, unclosed⟩ := single?_eq_some marked
    simp only [Option.getD_some, single?_of_unclosed unclosed, Option.getD_none, same]

/-- The expressions of a template have no markers around them. -/
theorem stripMarkers_of_mem_pieces {cs source : List Char} (member : .expression source ∈ pieces cs) :
    stripMarkers (String.ofList source) = String.ofList source := by
  obtain ⟨trimmed, unclosed⟩ := expression_of_piecesFrom member
  rw [stripMarkers, String.toList_ofList, single?_of_unclosed unclosed, Option.getD_none, trimmed]

end Template

end StateScript
