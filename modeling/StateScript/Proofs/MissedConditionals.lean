import StateScript.Proofs.OpenExpressions

/-!
Conditionals that the check of the nesting misses. It takes a question mark before a point for the one of `?.`,
while the grammar takes it for the one of a conditional if a digit follows. Such conditionals nest to the right as
any others do, so a source that passes the check may open more expressions at once than the bound allows.
-/

namespace StateScript

namespace Grammar

/-- A rule that finds something at once and leaves a given text. -/
def leaving (rest : List Char) : Recogniser Phrase := do
  let cursor ← get
  set { cursor with rest }
  return .null ⟨cursor.place, cursor.place.offset⟩

theorem leaving_finds (rest text : List Char) : Finds (leaving rest) text (fun _ => True) rest :=
  fun place _ => ⟨_, place, trivial, rfl⟩

theorem symbol_absent {d : Char} (other : d ≠ '?') (rest : List Char) :
    ∀ level ∈ levels, ∀ entry ∈ level, ¬ entry.1.toList <+: '?' :: d :: rest := by
  have symbols : ∀ level ∈ levels, ∀ entry ∈ level,
      entry.1.toList = ['?', '?'] ∨ entry.1.toList.head?.any (· != '?') = true := by decide
  intro level listed entry member here
  rcases symbols level listed entry member with nullish | first
  · rw [nullish] at here
    exact other (List.cons_prefix_cons.mp (List.cons_prefix_cons.mp here).2).1.symm
  · cases spelled : entry.1.toList with
    | nil => simp [spelled] at first
    | cons c more =>
      rw [spelled] at first here
      have same := (List.cons_prefix_cons.mp here).1
      simp [same] at first

/-- A conditional on a number up to the alternate; a blank or nothing stands between the question mark and the
point. -/
def branch (gap : List Char) : List Char := 'a' :: '?' :: (gap ++ ['.', '5', ':'])

end Grammar

namespace NestingScan

open Grammar (branch)

variable {s : NestingScan} (outside : s.quote = none)

include outside

theorem counted_branch (rest : List Char) :
    s.run (branch [' '] ++ rest) = run { s with conditionals := s.conditionals + 1, last := some ':' } rest ∧
      s.missed (branch [' '] ++ rest) =
        missed { s with conditionals := s.conditionals + 1, last := some ':' } rest := by
  simp [branch, run, missed, step, Misses, outside, startsConditional, Grammar.conditionalAhead]

theorem missed_branch (rest : List Char) : s.run (branch [] ++ rest) = run { s with last := some ':' } rest ∧
    s.missed (branch [] ++ rest) = 1 + missed { s with last := some ':' } rest := by
  have ahead : Grammar.conditionalAhead ('?' :: '.' :: '5' :: ':' :: rest) = true := rfl
  simp [branch, run, missed, step, Misses, outside, startsConditional, Grammar.conditionalAhead.eq_4, ahead]

end NestingScan

namespace Grammar

section

variable {limit : Nat} {inner : Recogniser Phrase}

theorem number_finds_colon (text : List Char) :
    Finds (conditional limit inner) ('.' :: '5' :: ':' :: text) (fun _ => True) (':' :: text) := by
  have unsigned : Refuses unaryOperator ('.' :: '5' :: ':' :: text) := by
    have word {c : Char} (differs : c ≠ '.') : Refuses (Grammar.word [c]) ('.' :: '5' :: ':' :: text) :=
      Refuses.word fun here => differs (List.cons_prefix_cons.mp here).1
    apply Refuses.firstOf
    simp only [List.forall_mem_cons]
    refine ⟨?_, ?_, ?_, Refuses.named (Refuses.nameSuchThat _ rfl).bind.bind, by simp⟩
    all_goals exact Refuses.named (word (by decide)).bind
  have number : Finds (primary limit inner) ('.' :: '5' :: ':' :: text) (fun _ => True) (':' :: text) := by
    have scan : Lexeme.numberLength? ('.' :: '5' :: ':' :: text) = some 2 := rfl
    exact Finds.orElse (Finds.named ((Finds.scanned scan).bind fun _ _ => Finds.pure trivial)) _
  have unlinked : Refuses (link limit inner) (':' :: text) := link_refuses (by simp [linkWords])
  refine conditional_finds (chain_finds (signed_finds unsigned (linked_finds number unlinked)) (symbols_absent ?_)) rfl
  intro c first
  cases first
  decide

variable {gap : List Char} (narrow : gap = [] ∨ gap = [' '])

include narrow

theorem link_refuses_branch (rest : List Char) :
    Refuses (link limit inner) ('?' :: (gap ++ '.' :: '5' :: rest)) := by
  rcases narrow with rfl | rfl
  · have word {c : Char} (differs : c ≠ '?') (more : List Char) :
        Refuses (Grammar.word (c :: more)) ('?' :: '.' :: '5' :: rest) :=
      Refuses.word fun here => differs (List.cons_prefix_cons.mp here).1
    apply Refuses.firstOf
    simp only [List.forall_mem_cons]
    refine ⟨?optionalIndex, ?optionalMember, ?_, ?_, ?_, by simp⟩
    case optionalIndex =>
      exact Refuses.named (Finds.get.refuses fun _ _ => (Refuses.word (by simp)).bind)
    case optionalMember =>
      refine Refuses.named (Finds.get.refuses fun _ _ => (Finds.word ['?', '.'] ('5' :: rest)).refuses fun _ _ => ?_)
      exact (Refuses.named (Refuses.nameSuchThat _ rfl)).bind
    all_goals exact Refuses.named (Finds.get.refuses fun _ _ => (word (by decide) _).bind)
  · apply link_refuses
    simp [linkWords]

theorem conditional_finds_branch {text between rest : List Char}
    (consequent : Finds inner ('.' :: '5' :: ':' :: text) (fun _ => True) (':' :: between))
    (alternate : Finds inner (between.dropWhile Lexeme.isBlank) (fun _ => True) rest) :
    Finds (conditional limit inner) (branch gap ++ text) (fun _ => True) rest := by
  have named : Lexeme.IsName "a" := ⟨'a', [], rfl, rfl, by simp⟩
  have spelled : branch gap ++ text = "a".toList ++ ('?' :: (gap ++ '.' :: '5' :: ':' :: text)) := by
    simp [branch]
  have ends : ∀ c ∈ ('?' :: (gap ++ '.' :: '5' :: ':' :: text)).head?, Lexeme.isNameChar c = false := by
    intro c first
    cases first
    rfl
  have test : Finds (chain limit inner levels) (branch gap ++ text) (fun _ => True)
      ('?' :: (gap ++ '.' :: '5' :: ':' :: text)) := by
    have name := primary_finds_name named ends (by decide) limit inner
    rw [spelled]
    refine (chain_finds (signed_finds (unaryOperator_refuses_name named ends (by decide))
      (linked_finds name (link_refuses_branch narrow _))) ?_).mono fun _ _ => trivial
    rcases narrow with rfl | rfl <;> exact symbol_absent (by decide) _
  have ahead : conditionalAhead ('?' :: (gap ++ '.' :: '5' :: ':' :: text)) = true := by
    rcases narrow with rfl | rfl <;> rfl
  have behind : (gap ++ '.' :: '5' :: ':' :: text).dropWhile Lexeme.isBlank = '.' :: '5' :: ':' :: text := by
    rcases narrow with rfl | rfl <;> rfl
  exact (conditional_finds_choice test ahead (behind ▸ consequent) alternate).mono fun _ _ => trivial

end

/-- Conditionals nested to the right with nothing behind the last one, of which the check of the nesting counts the
first ones only. -/
def nestedBranches (counted missed : Nat) : List Char :=
  (List.replicate counted (branch [' ']) ++ List.replicate missed (branch [])).flatten

theorem scan_nestedBranches {s : NestingScan} (outside : s.quote = none) (counted missed : Nat) :
    (s.run (nestedBranches counted missed)).deepest = s.deepest ∧
      (s.run (nestedBranches counted missed)).conditionals = s.conditionals + counted ∧
      s.missed (nestedBranches counted missed) = missed := by
  induction counted generalizing s with
  | succ counted ih =>
    have front : nestedBranches (counted + 1) missed = branch [' '] ++ nestedBranches counted missed := by
      simp [nestedBranches, List.replicate_succ]
    obtain ⟨passed, unmissed⟩ := NestingScan.counted_branch outside (nestedBranches counted missed)
    obtain ⟨deepest, conditionals, rest⟩ :=
      ih (s := { s with conditionals := s.conditionals + 1, last := some ':' }) outside
    rw [front, passed, unmissed]
    exact ⟨deepest, by rw [conditionals]; simp only; omega, rest⟩
  | zero =>
    induction missed generalizing s with
    | zero => exact ⟨rfl, rfl, rfl⟩
    | succ missed ih =>
      have front : nestedBranches 0 (missed + 1) = branch [] ++ nestedBranches 0 missed := by
        simp [nestedBranches, List.replicate_succ]
      obtain ⟨passed, unseen⟩ := NestingScan.missed_branch outside (nestedBranches 0 missed)
      obtain ⟨deepest, conditionals, rest⟩ := ih (s := { s with last := some ':' }) outside
      rw [front, passed, unseen, rest]
      exact ⟨deepest, conditionals, Nat.add_comm 1 missed⟩

theorem sourceNesting_nestedBranches (counted missed : Nat) : sourceNesting (nestedBranches counted missed) = counted ∧
    missedConditionals (nestedBranches counted missed) = missed := by
  obtain ⟨deepest, conditionals, rest⟩ := scan_nestedBranches (s := {}) rfl counted missed
  exact ⟨by simp only [sourceNesting, deepest, conditionals, Nat.zero_add], rest⟩

/-- Every conditional opens one expression more, and what the innermost one would do shows in the text that is left. -/
theorem expressionBeyond_leaving_finds (limit : Nat) (rest : List Char) {fronts : List (List Char)}
    (narrow : ∀ front ∈ fronts, ∃ gap, (gap = [] ∨ gap = [' ']) ∧ front = branch gap) :
    Finds (expressionBeyond (leaving (':' :: rest)) limit fronts.length) fronts.flatten (fun _ => True)
      (':' :: rest) := by
  induction fronts with
  | nil => exact leaving_finds _ _
  | cons front more ih =>
    obtain ⟨gap, width, rfl⟩ := narrow front (List.mem_cons_self ..)
    have alternate := ih fun other member => narrow other (List.mem_cons_of_mem _ member)
    cases more with
    | nil => exact conditional_finds_branch width (leaving_finds _ _) (leaving_finds _ _)
    | cons second others =>
      obtain ⟨inside, _, rfl⟩ := narrow second (List.mem_cons_of_mem _ (List.mem_cons_self ..))
      exact conditional_finds_branch width (number_finds_colon _) alternate

theorem not_opensAtMost_nestedBranches (counted missed : Nat) :
    ¬ OpensAtMost (counted + missed) (nestedBranches counted missed) := by
  intro bounded
  have narrow : ∀ front ∈ List.replicate counted (branch [' ']) ++ List.replicate missed (branch []),
      ∃ gap, (gap = [] ∨ gap = [' ']) ∧ front = branch gap := by
    intro front member
    rcases List.mem_append.mp member with first | second
    · exact ⟨[' '], Or.inr rfl, List.eq_of_mem_replicate first⟩
    · exact ⟨[], Or.inl rfl, List.eq_of_mem_replicate second⟩
  have visible : (Cursor.ofText (nestedBranches counted missed)).skipBlanks.rest = nestedBranches counted missed := by
    rw [Cursor.skipBlanks_rest]
    cases counted with
    | succ counted => rfl
    | zero => cases missed <;> rfl
  rcases same : (Cursor.ofText (nestedBranches counted missed)).skipBlanks with ⟨text, start⟩
  obtain rfl : text = nestedBranches counted missed := by rwa [same] at visible
  have leaves (rest : List Char) : Finds _ (nestedBranches counted missed) _ _ :=
    expressionBeyond_leaving_finds ((nestedBranches counted missed).length + 1) rest narrow
  simp only [List.length_append, List.length_replicate] at leaves
  obtain ⟨p, behind, _, one⟩ := leaves [] start .origin
  obtain ⟨q, further, _, two⟩ := leaves [':'] start .origin
  have agreed := bounded (leaving [':']) (leaving [':', ':'])
  rw [same] at agreed
  rw [agreed, two] at one
  cases one

/-- The nesting of a source and its missed conditionals together bound the expressions open at once, and nothing less
does. -/
theorem opensAtMost_iff (nesting missed n : Nat) :
    (∀ cs, sourceNesting cs = nesting → missedConditionals cs = missed → OpensAtMost n cs) ↔ nesting + missed < n := by
  constructor
  · intro bounded
    by_contra small
    have counts := sourceNesting_nestedBranches nesting missed
    exact not_opensAtMost_nestedBranches nesting missed
      ((bounded _ counts.1 counts.2).mono (Nat.not_lt.mp small))
  · rintro enough cs rfl rfl
    exact opensAtMost_of_lt enough

/-- A source that the check of the nesting accepts opens one expression more than the bound allows. -/
theorem missed_conditionals_open_too_many : sourceNesting (nestedBranches 0 257) ≤ maxNesting ∧
    ¬ OpensAtMost (maxNesting + 1) (nestedBranches 0 257) :=
  ⟨(sourceNesting_nestedBranches 0 257).1.trans_le (Nat.zero_le _), not_opensAtMost_nestedBranches 0 257⟩

end Grammar

end StateScript
