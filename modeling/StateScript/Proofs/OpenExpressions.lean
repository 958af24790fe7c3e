import StateScript.Expr.Reader
import StateScript.Proofs.Concurrence
import StateScript.Proofs.NestingScans

/-!
How many expressions are open at once while a text is matched. Every bracket opens at most one, and so does every
conditional, so what a scan for nesting counts and misses on a text bounds them, whether or not it is well-formed.
-/

namespace StateScript

namespace NestingScan

variable {s : NestingScan} {rest : List Char}

theorem deepest_le_step (s : NestingScan) (c : Char) (next : Option Char) :
    s.deepest ≤ (s.step c next).deepest ∧ s.conditionals ≤ (s.step c next).conditionals := by
  unfold step
  repeat' split
  all_goals simp

theorem le_total (s : NestingScan) (text : List Char) : s.deepest + s.conditionals ≤ s.total text := by
  induction text generalizing s with
  | nil => exact Nat.le_refl _
  | cons c rest ih =>
    have grows := deepest_le_step s c rest.head?
    have behind := ih (s.step c rest.head?)
    rw [total_cons]
    omega

theorem step_le (level : s.depth ≤ s.deepest) (c : Char) (rest : List Char) :
    (s.step c rest.head?).depth ≤ (s.step c rest.head?).deepest ∧
      (if s.Misses (c :: rest) then 1 else 0) + (s.step c rest.head?).deepest + (s.step c rest.head?).conditionals ≤
        s.deepest + s.conditionals + 1 := by
  by_cases missed : s.Misses (c :: rest)
  · obtain ⟨behind, same⟩ := Grammar.exists_cons_of_conditionalAhead missed.2.2.2
    obtain ⟨rfl, rfl⟩ := List.cons.inj same
    have point : rest.head? = some '.' := missed.2.2.1
    rw [if_pos missed, step_question missed.1, if_neg (by simp [startsConditional, point])]
    exact ⟨level, by simp only; omega⟩
  · rw [if_neg missed]
    unfold step
    repeat' split
    all_goals
      simp only
      omega

/-- No text nests deeper than it is long. -/
theorem total_le_length (level : s.depth ≤ s.deepest) (text : List Char) :
    s.total text ≤ s.deepest + s.conditionals + text.length := by
  induction text generalizing s with
  | nil => exact Nat.le_refl _
  | cons c rest ih =>
    obtain ⟨kept, grows⟩ := step_le level c rest
    have behind := ih kept
    rw [total_cons, List.length_cons]
    omega

/-- A scan outside of quotes whose total on the text ahead leaves room for `k` expressions, one inside the other,
with `depth` brackets open. If it is settled then no question mark stands directly before the text. -/
structure LeavesRoom (s : NestingScan) (k depth : Nat) (settled : Bool) (text : List Char) : Prop where
  outside : s.quote = none
  unescaped : s.escaped = false
  level : s.depth = depth
  deepest : depth ≤ s.deepest
  settles : settled = true → s.last ≠ some '?'
  fits : s.total text < k + depth + s.conditionals

end NestingScan

/-- Some scan leaves room on a text. -/
def Room (k depth : Nat) (settled : Bool) (text : List Char) : Prop :=
  ∃ s : NestingScan, s.LeavesRoom k depth settled text

namespace Room

variable {k depth : Nat} {settled : Bool} {rest : List Char} {c : Char}

theorem unsettled (room : Room k depth settled rest) : Room k depth false rest := by
  obtain ⟨s, leaves⟩ := room
  exact ⟨s, { leaves with settles := by simp }⟩

theorem more (room : Room k depth settled rest) : Room (k + 1) depth settled rest := by
  obtain ⟨s, leaves⟩ := room
  exact ⟨s, { leaves with fits := Nat.lt_of_lt_of_le leaves.fits (by omega) }⟩

/-- Open brackets alone use up what a scan has seen. -/
theorem pos (room : Room k depth settled rest) : 0 < k := by
  obtain ⟨s, leaves⟩ := room
  have seen := s.le_total rest
  have fits := leaves.fits
  have deepest := leaves.deepest
  omega

theorem plain {cs : List Char} {after : Bool} (room : Room k depth settled (cs ++ rest))
    (plain : cs.all NestingScan.isPlain = true) (settles : after = true → cs = [] → settled = true) :
    Room k depth after rest := by
  obtain ⟨s, leaves⟩ := room
  refine ⟨{ s with last := cs.getLast?.or s.last }, { leaves with settles := fun given => ?_, fits := ?_ }⟩
  · cases last : cs.getLast? with
    | none => simpa using leaves.settles (settles given (List.getLast?_eq_none_iff.mp last))
    | some c =>
      have passed := List.all_eq_true.mp plain c (List.mem_of_getLast? last)
      rintro same
      obtain rfl : c = '?' := by simpa using same
      cases passed
  · rw [← NestingScan.total_plain leaves.outside plain]
    exact leaves.fits

theorem skip (room : Room k depth settled rest) : Room k depth settled (rest.dropWhile Lexeme.isBlank) := by
  rw [← List.takeWhile_append_dropWhile (p := Lexeme.isBlank) (l := rest)] at room
  refine room.plain (List.all_eq_true.mpr fun c member => Lexeme.plain_of_isBlank ?_) fun given _ => given
  exact List.all_eq_true.mp List.all_takeWhile c member

/-- What a scanner takes, if it takes plain characters and one at least. -/
theorem taken {n : Nat} {text : List Char} (room : Room k depth settled text) (some' : text.take n ≠ [])
    (plain : (text.take n).all NestingScan.isPlain = true) :
    Room k depth true ((text.drop n).dropWhile Lexeme.isBlank) := by
  rw [← List.take_append_drop n text] at room
  exact (room.plain plain fun _ none' => absurd none' some').skip

/-- The expression inside a bracket needs no more room than there is around it. -/
theorem opening (room : Room (k + 1) depth settled (c :: rest)) (opens : c = '(' ∨ c = '[' ∨ c = '\x7b') :
    Room k (depth + 1) true rest := by
  obtain ⟨s, leaves⟩ := room
  have other : c ≠ '?' := by rcases opens with rfl | rfl | rfl <;> decide
  have fits := leaves.fits
  rw [NestingScan.total_opening leaves.outside opens] at fits
  refine ⟨{ s with depth := s.depth + 1, deepest := max s.deepest (s.depth + 1), last := some c },
    leaves.outside, leaves.unescaped, congrArg (· + 1) leaves.level, ?_, fun _ => by simpa using other,
    Nat.lt_of_lt_of_le fits (by simp only; omega)⟩
  exact leaves.level ▸ Nat.le_max_right _ _

theorem closing (room : Room k (depth + 1) settled (c :: rest)) (closes : c = ')' ∨ c = ']' ∨ c = '\x7d') :
    Room (k + 1) depth true rest := by
  obtain ⟨s, leaves⟩ := room
  have other : c ≠ '?' := by rcases closes with rfl | rfl | rfl <;> decide
  have fits := leaves.fits
  rw [NestingScan.total_closing leaves.outside closes] at fits
  exact ⟨{ s with depth := s.depth - 1, last := some c }, leaves.outside, leaves.unescaped, by simp [leaves.level],
    Nat.le_of_succ_le leaves.deepest, fun _ => by simpa using other,
    Nat.lt_of_lt_of_le fits (by simp only; omega)⟩

theorem quoted {quote : Char} {n : Nat} (room : Room k depth settled (quote :: rest))
    (quotes : quote = '\'' ∨ quote = '"') (scan : Lexeme.quotedLength? quote rest = some n) :
    Room k depth true (rest.drop (n + 1)) := by
  obtain ⟨s, leaves⟩ := room
  have other : quote ≠ '?' := by rcases quotes with rfl | rfl <;> decide
  have protects : quote ≠ '\\' := by rcases quotes with rfl | rfl <;> decide
  have fits := leaves.fits
  rw [NestingScan.total_of_not_misses (NestingScan.not_misses other),
    NestingScan.step_quote leaves.outside quotes,
    NestingScan.total_quoted (s := { s with quote := some quote, last := some quote }) protects rfl leaves.unescaped
      scan] at fits
  exact ⟨{ s with quote := none, last := some quote }, rfl, leaves.unescaped, leaves.level, leaves.deepest,
    fun _ => by simpa using other, fits⟩

theorem nullish (room : Room k depth settled ('?' :: '?' :: rest)) : Room k depth false rest := by
  obtain ⟨s, leaves⟩ := room
  have fits := leaves.fits
  rw [NestingScan.total_nullish leaves.outside] at fits
  exact ⟨{ s with last := some '?' }, { leaves with settles := by simp, fits }⟩

/-- The question mark of an optional link does not count, or else as a missed one. -/
theorem optional (room : Room k depth settled ('?' :: '.' :: rest)) : Room k depth true rest := by
  obtain ⟨s, leaves⟩ := room
  have uncounted : ¬ NestingScan.startsConditional s.last ('.' :: rest).head? = true := by
    simp [NestingScan.startsConditional]
  have fits := leaves.fits
  rw [NestingScan.total_cons, NestingScan.step_question leaves.outside, if_neg uncounted] at fits
  have point : Room k depth false ('.' :: rest) :=
    ⟨{ s with last := some '?' }, { leaves with
      settles := by simp, fits := Nat.lt_of_le_of_lt (Nat.le_add_left _ _) fits }⟩
  have passed : Room k depth false (['.'] ++ rest) := point
  exact passed.plain rfl fun _ none' => by cases none'

/-- The question mark of a conditional is counted or missed, and pays for the expressions behind it. -/
theorem branch (room : Room (k + 1) depth true ('?' :: rest)) (ahead : Grammar.conditionalAhead ('?' :: rest) = true) :
    Room k depth false rest := by
  obtain ⟨s, leaves⟩ := room
  have last := leaves.settles rfl
  have fits := leaves.fits
  rw [NestingScan.total_cons, NestingScan.step_question leaves.outside] at fits
  have notQuestion : rest.head? ≠ some '?' := by
    intro first
    obtain ⟨more, rfl⟩ : ∃ more, rest = '?' :: more := by
      cases rest with
      | nil => cases first
      | cons c more => exact ⟨more, by simpa using first⟩
    cases ahead
  by_cases point : rest.head? = some '.'
  · rw [if_pos ⟨leaves.outside, last, point, ahead⟩, if_neg (by simp [NestingScan.startsConditional, point])] at fits
    exact ⟨{ s with last := some '?' }, { leaves with settles := by simp, fits := by simp only; omega }⟩
  · rw [if_neg fun missed => point missed.2.2.1,
      if_pos (by simp [NestingScan.startsConditional, last, point, notQuestion])] at fits
    exact ⟨{ s with conditionals := s.conditionals + 1, last := some '?' },
      { leaves with settles := by simp, fits := by simp only; omega }⟩

end Room

namespace Grammar

section

variable {k depth : Nat} {settled : Bool}

theorem plainWord_concur {expected : List Char} (some' : expected ≠ [])
    (plain : expected.all NestingScan.isPlain = true) :
    Concur (Room k depth settled) (Room k depth true) (word expected) (word expected) :=
  Concur.word fun _ room => (room.plain plain fun _ none' => absurd none' some').skip

theorem opening_concur {c : Char} (opens : c = '(' ∨ c = '[' ∨ c = '\x7b') :
    Concur (Room (k + 1) depth settled) (Room k (depth + 1) false) (word [c]) (word [c]) :=
  Concur.word fun _ room => (room.opening opens).unsettled.skip

theorem closing_concur {c : Char} (closes : c = ')' ∨ c = ']' ∨ c = '\x7d') :
    Concur (Room k (depth + 1) settled) (Room (k + 1) depth true) (word [c]) (word [c]) :=
  Concur.word fun _ room => (room.closing closes).skip

theorem nameSuchThat_concur (accepts : String → Bool) :
    Concur (Room k depth settled) (Room k depth true) (nameSuchThat accepts) (nameSuchThat accepts) := by
  refine Concur.nameSuchThat accepts fun text n scan room => ?_
  have name := Lexeme.isName_of_nameLength? scan
  refine room.taken (by simpa using name.ne_nil) (List.all_eq_true.mpr fun c member => ?_)
  exact Lexeme.plain_of_isNameChar (name.chars c (by simpa using member))

theorem keyword_concur (expected : String) :
    Concur (Room k depth settled) (Room k depth true) (keyword expected) (keyword expected) :=
  (nameSuchThat_concur _).bind fun _ => Concur.pure _

theorem propertyName_concur : Concur (Room k depth settled) (Room k depth true) propertyName propertyName :=
  (nameSuchThat_concur _).named

theorem indexDigits_concur : Concur (Room k depth settled) (Room k depth true) indexDigits indexDigits := by
  refine Concur.named ((Concur.scanned fun text n scan room => ?_).bind fun _ => Concur.pure _)
  split at scan
  · cases scan
  · rename_i some'
    cases scan
    have chars := Lexeme.all_take_digitsLength text
    refine room.taken (fun none' => some' ?_) (List.all_eq_true.mpr fun c member => ?_)
    · rcases List.take_eq_nil_iff.mp none' with zero | rfl
      · exact zero
      · rfl
    · exact Lexeme.plain_of_isNumberChar (List.all_eq_true.mp chars c member)

theorem number_concur : Concur (Room k depth settled) (Room k depth true) (scanned Lexeme.numberLength?)
    (scanned Lexeme.numberLength?) := by
  refine Concur.scanned fun text n scan room => ?_
  refine room.taken (Lexeme.take_numberLength_ne_nil scan) (List.all_eq_true.mpr fun c member => ?_)
  exact Lexeme.plain_of_isNumberChar (List.all_eq_true.mp (Lexeme.all_take_numberLength scan) c member)

theorem quoted_concur : Concur (Room k depth settled) (Room k depth true) quoted quoted := by
  refine Concur.named ((Concur.scanned fun text n scan room => ?_).bind fun _ => Concur.pure _)
  split at scan
  · rename_i quote rest
    split at scan
    · rename_i quotes
      obtain ⟨m, found, rfl⟩ := Option.map_eq_some_iff.mp scan
      exact (room.quoted quotes found).skip
    · cases scan
  · cases scan

theorem unaryOperator_concur : Concur (Room k depth settled) (Room k depth true) unaryOperator unaryOperator := by
  apply Concur.firstOf
  simp only [List.forall₂_cons, List.Forall₂.nil, and_true]
  refine ⟨?_, ?_, ?_, ((keyword_concur _).bind fun _ => Concur.pure _).named⟩
  all_goals exact ((plainWord_concur (by decide) rfl).bind fun _ => Concur.pure _).named

theorem questionMark_concur :
    Concur (Room (k + 1) depth true) (Room k depth false) questionMark questionMark := by
  intro cursor furthest room
  refine ⟨rfl, fun found behind given => ?_⟩
  obtain ⟨ahead, ⟨rest, stands⟩, mark, front⟩ := taken_of_questionMark given
  rw [stands] at room ahead
  rw [taken_leaves front, stands]
  exact (room.branch ahead).skip

theorem operators_concur (k depth : Nat) {level : List (String × InfixOp)} (listed : level ∈ levels) :
    Concur (Room k depth true) (Room k depth false)
      (firstOf (level.map fun entry => operator entry.1 entry.2))
      (firstOf (level.map fun entry => operator entry.1 entry.2)) := by
  have symbols : ∀ level ∈ levels, ∀ entry ∈ level, entry.1.toList = ['?', '?'] ∨
      entry.1.toList ≠ [] ∧ entry.1.toList.all NestingScan.isPlain = true := by decide
  refine Concur.firstOf (List.forall₂_same.mpr fun rule member => ?_)
  obtain ⟨entry, one, rfl⟩ := List.mem_map.mp member
  refine Concur.named (Concur.bind ?_ fun _ => Concur.pure _)
  rcases symbols level listed entry one with nullish | ⟨some', plain⟩
  · rw [nullish]
    exact Concur.word fun _ room => room.nullish.skip
  · exact (plainWord_concur some' plain).mono fun _ room => room.unsettled

theorem comma_concur :
    Concur (Room k depth false) (Room k depth false) (optional (word [','])) (optional (word [','])) :=
  Concur.optional ((plainWord_concur (by decide) rfl).mono fun _ room => room.unsettled) fun _ => id

theorem separated_concur {α : Type} {rule other : Recogniser α}
    (each : Concur (Room k depth false) (Room k depth false) rule other) (limit : Nat) :
    Concur (Room k depth false) (Room k depth false) (separated limit rule) (separated limit other) :=
  each.separated ((plainWord_concur (by decide) rfl).mono fun _ room => room.unsettled) limit

end

section

variable {k limit : Nat} {inner other : Recogniser Phrase}
  (deep : ∀ depth, Concur (Room k depth false) (Room k depth false) inner other)

include deep

theorem listLiteral_concur (depth : Nat) : Concur (Room (k + 1) depth false) (Room (k + 1) depth true)
    (listLiteral limit inner) (listLiteral limit other) := by
  refine Concur.named (Concur.get.bind fun _ => (opening_concur (by decide)).bind fun _ => ?_)
  refine (separated_concur (deep (depth + 1)) limit).bind fun _ => comma_concur.bind fun _ => ?_
  exact (closing_concur (by decide)).bind fun _ => Concur.pure _

theorem property_concur (depth : Nat) :
    Concur (Room k depth false) (Room k depth false) (property inner) (property other) := by
  refine Concur.named (Concur.bind (?key : Concur _ (Room k depth true) _ _) fun found => ?value)
  case key =>
    exact (propertyName_concur.bind fun found => Concur.pure (PhraseKey.plain found.1)).orElse
      (quoted_concur.bind fun _ => Concur.pure _)
  case value =>
    refine (plainWord_concur (by decide) rfl).bind fun _ => ?_
    exact ((deep depth).of_before fun _ room => room.unsettled).bind fun _ => Concur.pure _

theorem recordLiteral_concur (depth : Nat) : Concur (Room (k + 1) depth false) (Room (k + 1) depth true)
    (recordLiteral limit inner) (recordLiteral limit other) := by
  refine Concur.named (Concur.get.bind fun _ => (opening_concur (by decide)).bind fun _ => ?_)
  refine (separated_concur (property_concur deep (depth + 1)) limit).bind fun _ => comma_concur.bind fun _ => ?_
  exact (closing_concur (by decide)).bind fun _ => Concur.pure _

theorem primary_concur (depth : Nat) :
    Concur (Room (k + 1) depth false) (Room (k + 1) depth true) (primary limit inner) (primary limit other) := by
  apply Concur.firstOf
  simp only [List.forall₂_cons, List.Forall₂.nil, and_true]
  refine ⟨(number_concur.bind fun _ => Concur.pure _).named, quoted_concur.bind fun _ => Concur.pure _, ?_, ?_, ?_, ?_,
    listLiteral_concur deep depth, recordLiteral_concur deep depth, ?name, ?parenthesised⟩
  case name => exact (nameSuchThat_concur _).named.bind fun _ => Concur.pure _
  case parenthesised =>
    exact (opening_concur (by decide)).bind fun _ => (deep (depth + 1)).bind fun _ =>
      (closing_concur (by decide)).bind fun _ => Concur.pure _
  all_goals exact ((keyword_concur _).bind fun _ => Concur.pure _).named

theorem link_concur (depth : Nat) :
    Concur (Room (k + 1) depth true) (Room (k + 1) depth true) (link limit inner) (link limit other) := by
  apply Concur.firstOf
  simp only [List.forall₂_cons, List.Forall₂.nil, and_true]
  refine ⟨?optionalIndex, ?optionalMember, ?member, ?index, ?call⟩
  case optionalIndex =>
    refine Concur.named (Concur.get.bind fun _ => ?_)
    refine Concur.bind (Concur.word fun rest room => (room.optional.opening (by decide)).unsettled.skip) fun _ => ?_
    exact (deep (depth + 1)).bind fun _ => (closing_concur (by decide)).bind fun _ => Concur.pure _
  case optionalMember =>
    refine Concur.named (Concur.get.bind fun _ => Concur.bind (Concur.word fun rest room => room.optional.skip) ?_)
    exact fun _ => propertyName_concur.bind fun _ => Concur.pure _
  case member =>
    refine Concur.named (Concur.get.bind fun _ => (plainWord_concur (by decide) rfl).bind fun _ => ?_)
    exact (propertyName_concur.orElse indexDigits_concur).bind fun _ => Concur.pure _
  case index =>
    refine Concur.named (Concur.get.bind fun _ => (opening_concur (by decide)).bind fun _ => ?_)
    exact (deep (depth + 1)).bind fun _ => (closing_concur (by decide)).bind fun _ => Concur.pure _
  case call =>
    refine Concur.named (Concur.get.bind fun _ => (opening_concur (by decide)).bind fun _ => ?_)
    refine (separated_concur (deep (depth + 1)) limit).bind fun _ => ?_
    exact (closing_concur (by decide)).bind fun _ => Concur.pure _

theorem linked_concur (depth : Nat) :
    Concur (Room (k + 1) depth false) (Room (k + 1) depth true) (linked limit inner) (linked limit other) := by
  refine Concur.named ((primary_concur deep depth).bind fun _ => ((link_concur deep depth).many limit).bind fun _ => ?_)
  split <;> exact Concur.pure _

theorem signed_concur (depth : Nat) :
    Concur (Room (k + 1) depth false) (Room (k + 1) depth true) (signed limit inner) (signed limit other) := by
  have signs : Concur (Room (k + 1) depth false) (Room (k + 1) depth false) unaryOperator unaryOperator :=
    unaryOperator_concur.mono fun _ room => room.unsettled
  refine Concur.named ((signs.many limit).bind fun _ => ?_)
  split
  · exact linked_concur deep depth
  · exact (linked_concur deep depth).bind fun _ => Concur.pure _

theorem chain_concur (depth : Nat) {given : List (List (String × InfixOp))} (listed : given ⊆ levels) :
    Concur (Room (k + 1) depth false) (Room (k + 1) depth true) (chain limit inner given)
      (chain limit other given) := by
  induction given with
  | nil => exact signed_concur deep depth
  | cons level tighter ih =>
    have tight := ih fun _ member => listed (List.mem_cons_of_mem _ member)
    have operators := operators_concur (k + 1) depth (listed (List.mem_cons_self ..))
    refine Concur.named (tight.bind fun _ => ?_)
    refine ((operators.bind fun _ => tight.bind fun _ => Concur.pure _).many limit).bind fun _ => ?_
    split <;> exact Concur.pure _

/-- Expressions inside that do the same make expressions that do the same. -/
theorem conditional_concur (depth : Nat) : Concur (Room (k + 1) depth false) (Room (k + 1) depth false)
    (conditional limit inner) (conditional limit other) := by
  refine Concur.named (Concur.get.bind fun _ => (chain_concur deep depth (List.Subset.refl _)).bind fun _ => ?_)
  refine Concur.bind (Concur.optional ?branches fun _ room => room.unsettled) fun branches => ?_
  case branches =>
    refine questionMark_concur.bind fun _ => (deep depth).bind fun _ => (plainWord_concur (by decide) rfl).bind ?_
    refine fun _ => ((deep depth).of_before fun _ room => room.unsettled).bind fun _ => ?_
    exact (Concur.pure _).mono fun _ room => room.more
  · split
    · exact Concur.pure _
    · exact Concur.get.bind fun _ => Concur.pure _

end

/-- The rule for expressions, with `beyond` in place of the expressions that stand inside `allowance` others. -/
def expressionBeyond (beyond : Recogniser Phrase) (limit : Nat) : Nat → Recogniser Phrase
  | 0 => beyond
  | allowance + 1 => conditional limit (expressionBeyond beyond limit allowance)

theorem expressionBeyond_failure (limit allowance : Nat) :
    expressionBeyond failure limit allowance = expression limit allowance := by
  induction allowance with
  | zero => rfl
  | succ allowance ih => exact congrArg (conditional limit) ih

theorem expressionBeyond_conditional (beyond : Recogniser Phrase) (limit allowance : Nat) :
    expressionBeyond (conditional limit beyond) limit allowance = expressionBeyond beyond limit (allowance + 1) := by
  induction allowance with
  | zero => rfl
  | succ allowance ih => exact congrArg (conditional limit) ih

/-- Matching a text never opens an expression inside `n` others, so at most `n` are open at once: whatever the rule
did there, the same would be found and matching would fail at the same place. What it did would show even in an
alternative that is given up, as no rule moves the furthest place of failure back. -/
def OpensAtMost (n : Nat) (cs : List Char) : Prop :=
  ∀ beyond other : Recogniser Phrase,
    expressionBeyond beyond (cs.length + 1) n (Cursor.ofText cs).skipBlanks .origin =
      expressionBeyond other (cs.length + 1) n (Cursor.ofText cs).skipBlanks .origin

theorem OpensAtMost.mono {n m : Nat} {cs : List Char} (bounded : OpensAtMost n cs) (more : n ≤ m) :
    OpensAtMost m cs := by
  induction more with
  | refl => exact bounded
  | step _ ih =>
    intro beyond other
    rw [← expressionBeyond_conditional, ← expressionBeyond_conditional]
    exact ih _ _

/-- With no room left there is no text to differ on. -/
theorem expressionBeyond_concur (beyond other : Recogniser Phrase) (limit k depth : Nat) :
    Concur (Room k depth false) (Room k depth false) (expressionBeyond beyond limit k)
      (expressionBeyond other limit k) := by
  induction k generalizing depth with
  | zero => exact fun _ _ room => absurd room.pos (Nat.lt_irrefl 0)
  | succ k ih => exact conditional_concur ih depth

/-- The conditionals that the check of the nesting misses. -/
def missedConditionals (cs : List Char) : Nat := NestingScan.missed {} cs

theorem opensAtMost_of_lt {n : Nat} {cs : List Char} (bounded : sourceNesting cs + missedConditionals cs < n) :
    OpensAtMost n cs := by
  have room : Room n 0 false cs := ⟨{}, rfl, rfl, rfl, Nat.le_refl 0, nofun, bounded⟩
  intro beyond other
  refine (expressionBeyond_concur beyond other _ n 0 _ _ ?_).1
  rw [Cursor.skipBlanks_rest]
  exact room.skip

theorem expressionBeyond_expression (limit inside allowance : Nat) :
    expressionBeyond (expression limit inside) limit allowance = expression limit (inside + allowance) := by
  induction allowance with
  | zero => rfl
  | succ allowance ih => exact congrArg (conditional limit) ih

/-- The allowance of the grammar never runs out, so any other one that is as long as the text gives the same. -/
theorem recognise_eq_of_lt {n : Nat} {cs : List Char} (enough : cs.length < n) :
    recognise n cs = recognise (cs.length + 1) cs := by
  obtain ⟨more, rfl⟩ := Nat.exists_eq_add_of_lt enough
  have room : Room (cs.length + 1) 0 false cs :=
    ⟨{}, rfl, rfl, rfl, Nat.le_refl 0, nofun, by
      have bound := NestingScan.total_le_length (s := {}) (Nat.le_refl 0) cs
      simp only at bound ⊢
      omega⟩
  have same := (expressionBeyond_concur (expression (cs.length + 1) more) (expression (cs.length + 1) 0)
    (cs.length + 1) (cs.length + 1) 0 (.ofText cs) .origin room).1
  rw [expressionBeyond_expression, expressionBeyond_expression, Nat.zero_add] at same
  unfold recognise
  rw [show cs.length + more + 1 = more + (cs.length + 1) by omega]
  simp only [bind_apply, same]

end Grammar

end StateScript
