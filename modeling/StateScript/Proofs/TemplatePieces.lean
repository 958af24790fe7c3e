import StateScript.Proofs.Occurrences

/-!
Templates taken apart and put together. The pieces of a template, with the markers around its expressions and the
blanks inside them, are the template again, and nothing that could be split further is left in them.
-/

namespace StateScript

namespace Template

/-- A piece as it stands in a template: a text is itself, and an expression is what markers enclose, trimmed. -/
inductive Stands : TemplatePiece → List Char → Prop
  | text (cs : List Char) : Stands (.text cs) cs
  | expression (raw : List Char) : Stands (.expression (Text.trim raw)) (opening ++ raw ++ closing)

/-- Pieces that are split as far as they go. -/
structure Canonical (ps : List TemplatePiece) : Prop where
  nonempty : ∀ ds, .text ds ∈ ps → ds ≠ []
  apart : ps.IsChain fun p q => ∀ as bs, p = .text as → q ≠ .text bs
  closed : ∀ source, .expression source ∈ ps → ¬ closing <:+: source
  /-- Where an opening pair is left in a text, the text comes last and no closing pair follows. -/
  unterminated : ∀ before ds after, ps = before ++ .text ds :: after → ∀ front back, ds = front ++ opening ++ back →
    after = [] ∧ ¬ closing <:+: back

/-- How a template is scanned: as long as an opening pair has a closing pair behind it, the first of each are the
markers of an expression. -/
inductive Splits : List Char → List TemplatePiece → Prop
  | plain {cs} : (∀ front back, cs = front ++ opening ++ back → ¬ closing <:+: back) → Splits cs (textPiece cs)
  | next {before inner rest ps} : ¬ opening <:+: before → ¬ closing <:+: inner → Splits rest ps →
      Splits (before ++ opening ++ inner ++ closing ++ rest) (textPiece before ++ .expression (Text.trim inner) :: ps)

theorem opening_ne_nil : opening ≠ [] := List.cons_ne_nil _ _

/-- Every expression that is passed takes up some of the text, so the fuel lasts. -/
theorem splits_piecesFrom {fuel : Nat} {cs : List Char} (enough : cs.length ≤ fuel) :
    Splits cs (piecesFrom fuel cs) := by
  induction fuel generalizing cs with
  | zero =>
    obtain rfl : cs = [] := List.length_eq_zero_iff.mp (Nat.le_zero.mp enough)
    exact .plain fun front back occurs => by simp [opening] at occurs
  | succ fuel ih =>
    simp only [piecesFrom]
    cases opened : Text.breakOn opening cs with
    | none =>
      have absent := (Text.breakOn_eq_none_iff opening_ne_nil).mp opened
      exact .plain fun front back occurs => absurd ⟨front, back, occurs.symm⟩ absent
    | some parts =>
      obtain ⟨before, behind⟩ := parts
      have whole := Text.breakOn_eq_some opened
      dsimp only
      cases closed : Text.breakOn closing behind with
      | none =>
        have unclosed := (Text.breakOn_eq_none_iff closing_ne_nil).mp closed
        refine .plain fun front back occurs inside => unclosed (inside.trans ?_)
        -- Every other opening pair stands further right than the first one.
        have least := Text.length_le_of_breakOn opened occurs
        have lengths := congrArg List.length (occurs.symm.trans whole)
        simp only [List.length_append] at lengths
        have rear : back <:+ cs := ⟨_, occurs.symm⟩
        exact (List.suffix_of_suffix_length_le rear ⟨_, whole.symm⟩ (by omega)).isInfix
      | some parts =>
        obtain ⟨inner, rest⟩ := parts
        have split := Text.breakOn_eq_some closed
        have shorter : rest.length ≤ fuel := by
          have outer := congrArg List.length whole
          have inside := congrArg List.length split
          simp only [List.length_append, opening, closing, List.length_cons, List.length_nil] at outer inside
          omega
        have all : cs = before ++ opening ++ inner ++ closing ++ rest := by
          rw [whole, split]
          simp
        rw [all]
        exact .next (Text.not_infix_of_breakOn opening_ne_nil opened) (Text.not_infix_of_breakOn closing_ne_nil closed)
          (ih shorter)

theorem splits_pieces (cs : List Char) : Splits cs (pieces cs) := splits_piecesFrom (Nat.le_refl _)

section

variable {cs : List Char} {ps : List TemplatePiece}

theorem stands_textPiece (cs : List Char) :
    ∃ written, List.Forall₂ Stands (textPiece cs) written ∧ written.flatten = cs := by
  unfold textPiece
  split
  · rename_i empty
    exact ⟨[], .nil, (List.isEmpty_iff.mp empty).symm⟩
  · exact ⟨[cs], .cons (.text cs) .nil, by simp⟩

theorem Splits.stands (splits : Splits cs ps) :
    ∃ written, List.Forall₂ Stands ps written ∧ written.flatten = cs := by
  induction splits with
  | plain => exact stands_textPiece _
  | @next before inner rest ps _ _ _ ih =>
    obtain ⟨first, texts, front⟩ := stands_textPiece before
    obtain ⟨others, each, back⟩ := ih
    refine ⟨first ++ (opening ++ inner ++ closing) :: others, ?_, ?_⟩
    · exact List.rel_append texts (.cons (.expression inner) each)
    · simp [front, back]

theorem textPiece_length_le (cs : List Char) : (textPiece cs).length ≤ 1 := by
  unfold textPiece
  split
  · exact Nat.zero_le 1
  · exact Nat.le_refl 1

theorem mem_textPiece {p : TemplatePiece} (member : p ∈ textPiece cs) : p = .text cs ∧ cs ≠ [] := by
  unfold textPiece at member
  split at member
  · cases member
  · rename_i some'
    exact ⟨List.mem_singleton.mp member, fun empty => some' (List.isEmpty_iff.mpr empty)⟩

theorem Splits.nonempty (splits : Splits cs ps) : ∀ ds, .text ds ∈ ps → ds ≠ [] := by
  have some' {ds : List Char} {before : List Char} (member : .text ds ∈ textPiece before) : ds ≠ [] := by
    obtain ⟨same, some'⟩ := mem_textPiece member
    cases same
    exact some'
  induction splits with
  | plain => exact fun ds member => some' member
  | next _ _ _ ih =>
    intro ds member
    rcases List.mem_append.mp member with text | later
    · exact some' text
    · rcases List.mem_cons.mp later with here | further
      · cases here
      · exact ih ds further

theorem Splits.apart (splits : Splits cs ps) : ps.IsChain fun p q => ∀ as bs, p = .text as → q ≠ .text bs := by
  have single (before : List Char) : (textPiece before).IsChain fun p q => ∀ as bs, p = .text as → q ≠ .text bs := by
    unfold textPiece
    split
    · exact .nil
    · exact .singleton _
  induction splits with
  | plain => exact single _
  | next _ _ _ ih =>
    refine List.isChain_append.mpr ⟨single _, List.isChain_cons.mpr ⟨fun _ _ _ _ => nofun, ih⟩, ?_⟩
    intro p _ q first as bs _ text
    cases first
    cases text

theorem Splits.closed (splits : Splits cs ps) : ∀ source, .expression source ∈ ps → ¬ closing <:+: source := by
  have none' {source before : List Char} : .expression source ∉ textPiece before :=
    fun member => nomatch (mem_textPiece member).1
  induction splits with
  | plain => exact fun source member => absurd member none'
  | @next before inner rest ps _ unclosed _ ih =>
    intro source member
    rcases List.mem_append.mp member with text | later
    · exact absurd text none'
    · rcases List.mem_cons.mp later with here | further
      · cases here
        exact fun inside => unclosed (inside.trans (Text.trim_infix inner))
      · exact ih source further

/-- A text that an expression follows ends at the first opening pair, so only the last one can hold any. -/
theorem Splits.unterminated (splits : Splits cs ps) : ∀ before ds after, ps = before ++ .text ds :: after →
    ∀ front back, ds = front ++ opening ++ back → after = [] ∧ ¬ closing <:+: back := by
  induction splits with
  | @plain cs last =>
    intro before ds after same front back occurs
    have member : .text ds ∈ textPiece cs := by simp [same]
    cases (mem_textPiece member).1
    have lengths := congrArg List.length same
    have single := textPiece_length_le cs
    simp only [List.length_append, List.length_cons] at lengths
    exact ⟨List.length_eq_zero_iff.mp (by omega), last front back occurs⟩
  | @next before inner rest ps unopened _ _ ih =>
    intro first ds after same front back occurs
    rcases List.append_eq_append_iff.mp same with ⟨between, _, tail⟩ | ⟨between, split, tail⟩
    · cases between with
      | nil => cases tail
      | cons q between => exact ih between ds after (List.cons.inj tail).2 front back occurs
    · cases between with
      | nil => cases tail
      | cons q between =>
        obtain ⟨rfl, _⟩ := List.cons.inj tail
        have member : .text ds ∈ textPiece before := by simp [split]
        cases (mem_textPiece member).1
        exact absurd ⟨front, back, occurs.symm⟩ unopened

theorem Splits.canonical (splits : Splits cs ps) : Canonical ps :=
  ⟨splits.nonempty, splits.apart, splits.closed, splits.unterminated⟩

end

/-- Splitting a template loses nothing, whatever braces it is made of, and leaves nothing to be split. -/
theorem pieces_lossless (cs : List Char) :
    (∃ written, List.Forall₂ Stands (pieces cs) written ∧ written.flatten = cs) ∧ Canonical (pieces cs) :=
  ⟨(splits_pieces cs).stands, (splits_pieces cs).canonical⟩

end Template

end StateScript
