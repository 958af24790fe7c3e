import StateScript.Proofs.Operands

/-!
The scan for nesting, one character at a time. Outside of quotes only brackets and question marks count, and
between quotes nothing does. The scan takes a question mark before a point for the one of `?.`; where a digit
follows the point, the grammar may take it for the one of a conditional.
-/

namespace StateScript

namespace NestingScan

/-- Whether a character means nothing to a scan outside of quotes. -/
def isPlain (c : Char) : Bool :=
  c != '\'' && c != '"' && c != '(' && c != '[' && c != '\x7b' && c != ')' && c != ']' && c != '\x7d' && c != '?'

/-- Whether the scan passes over a question mark that can be the one of a conditional. -/
def Misses (s : NestingScan) (text : List Char) : Prop :=
  s.quote = none ∧ s.last ≠ some '?' ∧ text.tail.head? = some '.' ∧ Grammar.conditionalAhead text = true

instance (s : NestingScan) (text : List Char) : Decidable (s.Misses text) := inferInstanceAs (Decidable (_ ∧ _))

/-- How many such question marks a scan passes over. -/
def missed (s : NestingScan) : List Char → Nat
  | [] => 0
  | c :: rest => (if s.Misses (c :: rest) then 1 else 0) + missed (s.step c rest.head?) rest

/-- Brackets nested at once plus all conditionals, the missed ones too. -/
def total (s : NestingScan) (text : List Char) : Nat :=
  (s.run text).deepest + (s.run text).conditionals + s.missed text

variable {s : NestingScan} {c : Char} {next : Option Char} {rest : List Char}

theorem total_cons (c : Char) (rest : List Char) :
    s.total (c :: rest) = (if s.Misses (c :: rest) then 1 else 0) + (s.step c rest.head?).total rest := by
  simp only [total, run, missed]
  omega

theorem not_misses (other : c ≠ '?') : ¬ s.Misses (c :: rest) := by
  rintro ⟨_, _, _, ahead⟩
  obtain ⟨behind, same⟩ := Grammar.exists_cons_of_conditionalAhead ahead
  exact other (List.cons.inj same).1

theorem total_of_not_misses (passed : ¬ s.Misses (c :: rest)) :
    s.total (c :: rest) = (s.step c rest.head?).total rest := by
  rw [total_cons, if_neg passed, Nat.zero_add]

section

variable (outside : s.quote = none)

include outside

theorem step_plain (plain : isPlain c = true) : s.step c next = { s with last := some c } := by
  simp only [isPlain, Bool.and_eq_true, bne_iff_ne, and_assoc] at plain
  simp [step, outside, plain]

theorem step_quote (quotes : c = '\'' ∨ c = '"') : s.step c next = { s with quote := some c, last := some c } := by
  simp only [step, outside, if_pos quotes]

theorem step_opening (opens : c = '(' ∨ c = '[' ∨ c = '\x7b') :
    s.step c next = { s with depth := s.depth + 1, deepest := max s.deepest (s.depth + 1), last := some c } := by
  rcases opens with rfl | rfl | rfl <;> simp [step, outside]

theorem step_closing (closes : c = ')' ∨ c = ']' ∨ c = '\x7d') :
    s.step c next = { s with depth := s.depth - 1, last := some c } := by
  rcases closes with rfl | rfl | rfl <;> simp [step, outside]

theorem step_question : s.step '?' next = if startsConditional s.last next then
    { s with conditionals := s.conditionals + 1, last := some '?' } else { s with last := some '?' } := by
  simp [step, outside]

theorem total_opening (opens : c = '(' ∨ c = '[' ∨ c = '\x7b') : s.total (c :: rest) =
    { s with depth := s.depth + 1, deepest := max s.deepest (s.depth + 1), last := some c }.total rest := by
  have other : c ≠ '?' := by rcases opens with rfl | rfl | rfl <;> decide
  rw [total_of_not_misses (not_misses other), step_opening outside opens]

theorem total_closing (closes : c = ')' ∨ c = ']' ∨ c = '\x7d') :
    s.total (c :: rest) = { s with depth := s.depth - 1, last := some c }.total rest := by
  have other : c ≠ '?' := by rcases closes with rfl | rfl | rfl <;> decide
  rw [total_of_not_misses (not_misses other), step_closing outside closes]

/-- Of two question marks neither one counts. -/
theorem total_nullish : s.total ('?' :: '?' :: rest) = { s with last := some '?' }.total rest := by
  have first : ¬ s.Misses ('?' :: '?' :: rest) := fun ⟨_, _, point, _⟩ => by simp at point
  have second : ¬ Misses { s with last := some '?' } ('?' :: rest) := fun ⟨_, last, _, _⟩ => last rfl
  rw [total_of_not_misses first, step_question outside, if_neg (by simp [startsConditional]),
    total_of_not_misses second, step_question (s := { s with last := some '?' }) outside,
    if_neg (by simp [startsConditional])]

theorem total_plain {cs : List Char} (plain : cs.all isPlain = true) (rest : List Char) :
    s.total (cs ++ rest) = { s with last := cs.getLast?.or s.last }.total rest := by
  induction cs generalizing s with
  | nil => rfl
  | cons c more ih =>
    obtain ⟨first, others⟩ := Bool.and_eq_true_iff.mp (List.all_cons ▸ plain)
    have other : c ≠ '?' := by
      rintro rfl
      cases first
    rw [List.cons_append, total_of_not_misses (not_misses other), step_plain outside first,
      ih (s := { s with last := some c }) outside others, List.getLast?_cons]
    cases more.getLast? <;> rfl

end

theorem total_inside {quote : Char} (inside : s.quote = some quote) {after : NestingScan}
    (stepped : s.step c rest.head? = after) : s.total (c :: rest) = after.total rest := by
  have passed : ¬ s.Misses (c :: rest) := by
    rintro ⟨outside, _⟩
    rw [inside] at outside
    cases outside
  rw [total_of_not_misses passed, stepped]

/-- Between quotes nothing counts, up to the quote where the scanner for quoted texts ends. -/
theorem total_quoted {quote : Char} (protects : quote ≠ '\\') {cs : List Char} {n : Nat}
    (inside : s.quote = some quote) (unescaped : s.escaped = false) (scan : Lexeme.quotedLength? quote cs = some n) :
    s.total cs = { s with quote := none, last := some quote }.total (cs.drop (n + 1)) := by
  induction cs using Lexeme.quotedLength?.induct quote generalizing s n with
  | case1 => cases scan
  | case2 c rest ih =>
    simp only [Lexeme.quotedLength?] at scan
    obtain ⟨m, found, rfl⟩ := Option.map_eq_some_iff.mp scan
    have backslash : s.step '\\' (some c) = { s with escaped := true, last := some '\\' } := by
      simp [step, inside, unescaped]
    have passed : NestingScan.step { s with escaped := true, last := some '\\' } c rest.head? =
        { s with last := some c } := by
      simp [step, inside, unescaped]
    rw [total_inside inside backslash,
      total_inside (s := { s with escaped := true, last := some '\\' }) inside passed,
      ih (s := { s with last := some c }) inside unescaped found]
    rfl
  | case3 rest alone =>
    rw [Lexeme.quotedLength?.eq_3 _ _ _ alone, if_pos rfl] at scan
    cases scan
    have closes : s.step quote rest.head? = { s with quote := none, last := some quote } := by
      simp [step, inside, unescaped, protects]
    rw [total_inside inside closes]
    rfl
  | case4 rest alone differs =>
    rw [Lexeme.quotedLength?.eq_3 _ _ _ alone, if_neg differs, if_pos rfl] at scan
    cases scan
  | case5 c rest alone differs plain ih =>
    rw [Lexeme.quotedLength?.eq_3 _ _ _ alone, if_neg differs, if_neg plain] at scan
    obtain ⟨m, found, rfl⟩ := Option.map_eq_some_iff.mp scan
    have passed : s.step c rest.head? = { s with last := some c } := by
      simp [step, inside, unescaped, plain, differs]
    rw [total_inside inside passed, ih (s := { s with last := some c }) inside unescaped found]
    rfl

end NestingScan

namespace Lexeme

theorem plain_of_isNameChar {c : Char} (char : isNameChar c = true) : NestingScan.isPlain c = true := by
  have range := isNameChar_range char
  simp only [NestingScan.isPlain, Bool.and_eq_true, bne_iff_ne]
  refine ⟨⟨⟨⟨⟨⟨⟨⟨?_, ?_⟩, ?_⟩, ?_⟩, ?_⟩, ?_⟩, ?_⟩, ?_⟩, ?_⟩ <;> rintro rfl <;> simp at range

theorem plain_of_isNumberChar {c : Char} (char : isNumberChar c = true) : NestingScan.isPlain c = true := by
  simp only [isNumberChar, Bool.or_eq_true, beq_iff_eq] at char
  rcases char with ((((digit | rfl) | rfl) | rfl) | rfl) | rfl
  · exact plain_of_isNameChar (by simp [isNameChar, Char.isAlphanum, digit])
  all_goals rfl

theorem plain_of_isBlank {c : Char} (blank : isBlank c = true) : NestingScan.isPlain c = true := by
  simp only [isBlank, Bool.or_eq_true, beq_iff_eq] at blank
  rcases blank with ((rfl | rfl) | rfl) | rfl <;> rfl

end Lexeme

end StateScript
