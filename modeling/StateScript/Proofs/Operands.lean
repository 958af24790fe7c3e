import StateScript.Proofs.Recognition

/-!
Operands. A name that is no keyword is read as an operand wherever it ends, a number takes up digits, points,
signs and letters of exponents only, and an operand that no operator follows is found by every rule above it.
-/

namespace StateScript

namespace Lexeme

theorem nameLength?_of_isName {text : String} (spelled : IsName text) {rest : List Char}
    (ends : ∀ c ∈ rest.head?, isNameChar c = false) : nameLength? (text.toList ++ rest) = some text.toList.length := by
  obtain ⟨c, more, same, start, chars⟩ := spelled
  have stops : rest.takeWhile isNameChar = [] := by
    cases rest with
    | nil => rfl
    | cons d behind => simp [ends d rfl]
  have front : (more ++ rest).takeWhile isNameChar = more := by
    rw [List.takeWhile_append_of_pos chars, stops, List.append_nil]
  rw [same, List.cons_append, nameLength?, if_pos start, front, List.length_cons, Nat.add_comm]

theorem numberLength?_of_isNameStart {c : Char} (start : isNameStart c = true) (rest : List Char) :
    numberLength? (c :: rest) = none := by
  have letter := isDigit_of_isNameStart start
  have point : c ≠ '.' := ne_of_isNameChar (isNameChar_of_isNameStart start) rfl
  have none' : digitsLength (c :: rest) = 0 := by simp [digitsLength, letter]
  simp [numberLength?, mantissaLength?, none', point]

/-- A character of a number. -/
def isNumberChar (c : Char) : Bool := c.isDigit || c == '.' || c == 'e' || c == 'E' || c == '+' || c == '-'

theorem all_take_digitsLength (cs : List Char) : (cs.take (digitsLength cs)).all isNumberChar = true := by
  rw [digitsLength, ← List.prefix_iff_eq_take.mp (List.takeWhile_prefix Char.isDigit), List.all_eq_true]
  intro c member
  simp [isNumberChar, List.all_eq_true.mp List.all_takeWhile c member]

theorem all_take_mantissaLength {cs : List Char} {n : Nat} (scan : mantissaLength? cs = some n) :
    (cs.take n).all isNumberChar = true := by
  have whole (found : (if 0 < digitsLength cs then some (digitsLength cs) else none) = some n) :
      (cs.take n).all isNumberChar = true := by
    split at found
    · obtain rfl := Option.some.inj found
      exact all_take_digitsLength cs
    · cases found
  simp only [mantissaLength?] at scan
  split at scan
  · rename_i rest pointed
    split at scan
    · obtain rfl := Option.some.inj scan
      rw [Nat.add_assoc, Nat.add_comm 1, List.take_add, pointed, List.take_succ_cons, List.all_append, List.all_cons,
        all_take_digitsLength, all_take_digitsLength]
      rfl
    · exact whole scan
  · exact whole scan

theorem all_take_exponentLength (cs : List Char) : (cs.take (exponentLength cs)).all isNumberChar = true := by
  cases cs with
  | nil => rfl
  | cons c rest =>
    simp only [exponentLength]
    split
    · rename_i letter
      have letter : isNumberChar c = true := by rcases letter with rfl | rfl <;> rfl
      have signed (sign : Nat) (front : (rest.take sign).all isNumberChar = true) :
          ((c :: rest).take (if 0 < digitsLength (rest.drop sign) then
            1 + sign + digitsLength (rest.drop sign) else 0)).all isNumberChar = true := by
        split
        · rw [Nat.add_assoc, Nat.add_comm 1, List.take_succ_cons, List.take_add, List.all_cons, List.all_append,
            letter, front, all_take_digitsLength]
          rfl
        · rfl
      split
      · exact signed 1 (by simp [isNumberChar])
      · exact signed 1 (by simp [isNumberChar])
      · exact signed 0 rfl
    · rfl

theorem all_take_numberLength {cs : List Char} {n : Nat} (scan : numberLength? cs = some n) :
    (cs.take n).all isNumberChar = true := by
  obtain ⟨m, mantissa, rfl⟩ := Option.map_eq_some_iff.mp scan
  rw [List.take_add, List.all_append, all_take_mantissaLength mantissa, all_take_exponentLength]
  rfl

theorem take_numberLength_ne_nil {cs : List Char} {n : Nat} (scan : numberLength? cs = some n) : cs.take n ≠ [] := by
  obtain ⟨m, mantissa, rfl⟩ := Option.map_eq_some_iff.mp scan
  cases cs with
  | nil => cases mantissa
  | cons c rest =>
    have positive : m ≠ 0 := by
      rintro rfl
      simp only [mantissaLength?] at mantissa
      repeat' split at mantissa
      all_goals
        simp only [reduceCtorEq, Option.some.injEq] at mantissa
        try omega
    simp [positive]

end Lexeme

namespace Grammar

/-- The words that hang something onto an operand. -/
def linkWords : List (List Char) := [['?', '.', '['], ['?', '.'], ['.'], ['['], ['(']]

section

variable {text : String} {rest : List Char} (spelled : Lexeme.IsName text)

include spelled

theorem word_refuses_name {expected : Char} (other : Lexeme.isNameChar expected = false) (more : List Char) :
    Refuses (word (expected :: more)) (text.toList ++ rest) := by
  obtain ⟨c, behind, same, start, _⟩ := spelled
  refine Refuses.word fun front => ?_
  rw [same] at front
  have first := (List.cons_prefix_cons.mp front).1
  rw [first, Lexeme.isNameChar_of_isNameStart start] at other
  cases other

section

variable (ends : ∀ c ∈ rest.head?, Lexeme.isNameChar c = false)

include ends

theorem name_finds : Finds (scanned Lexeme.nameLength?) (text.toList ++ rest)
    (fun found => found.1 = text.toList) (rest.dropWhile Lexeme.isBlank) := by
  have scanned := Finds.scanned (Lexeme.nameLength?_of_isName spelled ends)
  rwa [List.drop_left, List.take_left] at scanned

theorem nameSuchThat_finds {accepts : String → Bool} (accepted : accepts text = true) :
    Finds (nameSuchThat accepts) (text.toList ++ rest) (fun found => found.1 = text)
      (rest.dropWhile Lexeme.isBlank) := by
  refine (name_finds spelled ends).bind fun found same => ?_
  have read : String.ofList found.1 = text := by rw [same, String.ofList_toList]
  show Finds (if accepts (String.ofList found.1) then _ else _) _ _ _
  rw [if_pos (by rw [read, accepted])]
  exact Finds.pure read

theorem nameSuchThat_refuses {accepts : String → Bool} (rejected : accepts text = false) :
    Refuses (nameSuchThat accepts) (text.toList ++ rest) := by
  refine (name_finds spelled ends).refuses fun found same => ?_
  show Refuses (if accepts (String.ofList found.1) then _ else _) _
  rw [same, String.ofList_toList, rejected]
  exact Refuses.failure

variable (free : text ∉ keywords)

include free

theorem keyword_refuses (word : String) (reserved : word ∈ keywords) :
    Refuses (keyword word) (text.toList ++ rest) := by
  refine Refuses.bind (nameSuchThat_refuses spelled ends (beq_eq_false_iff_ne.mpr ?_))
  rintro rfl
  exact free reserved

theorem unaryOperator_refuses_name : Refuses unaryOperator (text.toList ++ rest) := by
  have word {expected : Char} (other : Lexeme.isNameChar expected = false) :
      Refuses (Grammar.word [expected]) (text.toList ++ rest) := word_refuses_name spelled other []
  apply Refuses.firstOf
  simp only [List.forall_mem_cons]
  refine ⟨Refuses.named (word rfl).bind, Refuses.named (word rfl).bind, Refuses.named (word rfl).bind,
    Refuses.named (keyword_refuses spelled ends free _ (by decide)).bind, by simp⟩

/-- A name that is no keyword is an operand. -/
theorem primary_finds_name (limit : Nat) (expression : Recogniser Phrase) :
    Finds (primary limit expression) (text.toList ++ rest) (fun p => ∃ span, p = .name text span)
      (rest.dropWhile Lexeme.isBlank) := by
  have identifier : Finds identifier (text.toList ++ rest) (fun found => found.1 = text) _ :=
    Finds.named (nameSuchThat_finds spelled ends (by simpa using free))
  have keyword (word : String) (reserved : word ∈ keywords) := keyword_refuses spelled ends free word reserved
  have word {expected : Char} (other : Lexeme.isNameChar expected = false) :
      Refuses (Grammar.word [expected]) (text.toList ++ rest) := word_refuses_name spelled other []
  obtain ⟨c, more, same, start, _⟩ := spelled
  have unnumbered : Lexeme.numberLength? (text.toList ++ rest) = none := by
    rw [same]
    exact Lexeme.numberLength?_of_isNameStart start _
  have unquoted : Refuses quoted (text.toList ++ rest) := by
    have char := Lexeme.isNameChar_of_isNameStart start
    have single : c ≠ '\'' := Lexeme.ne_of_isNameChar char rfl
    have double : c ≠ '"' := Lexeme.ne_of_isNameChar char rfl
    refine Refuses.named (Refuses.bind (Refuses.scanned ?_))
    simp [same, single, double]
  refine Refuses.orElse_finds (Refuses.named (Refuses.bind (Refuses.scanned unnumbered))) ?_
  refine Refuses.orElse_finds unquoted.bind ?_
  refine Refuses.orElse_finds (Refuses.named (keyword "true" (by decide)).bind) ?_
  refine Refuses.orElse_finds (Refuses.named (keyword "false" (by decide)).bind) ?_
  refine Refuses.orElse_finds (Refuses.named (keyword "null" (by decide)).bind) ?_
  refine Refuses.orElse_finds (Refuses.named (keyword "undefined" (by decide)).bind) ?_
  refine Refuses.orElse_finds (Refuses.named (Finds.get.refuses fun _ _ => (word rfl).bind)) ?_
  refine Refuses.orElse_finds (Refuses.named (Finds.get.refuses fun _ _ => (word rfl).bind)) ?_
  refine Finds.orElse (identifier.bind fun found spells => Finds.pure ⟨found.2, ?_⟩) _
  rw [← spells]

end

end

section

variable {limit : Nat} {expression : Recogniser Phrase} {text rest : List Char} {good : Phrase → Prop}

theorem link_refuses (unlinked : ∀ expected ∈ linkWords, ¬ expected <+: rest) :
    Refuses (link limit expression) rest := by
  simp only [linkWords, List.forall_mem_cons] at unlinked
  obtain ⟨optionalIndex, optionalMember, member, index, call, _⟩ := unlinked
  apply Refuses.firstOf
  simp only [List.forall_mem_cons]
  refine ⟨?_, ?_, ?_, ?_, ?_, by simp⟩
  all_goals exact Refuses.named (Finds.get.refuses fun _ _ => Refuses.bind (Refuses.word (by assumption)))

theorem linked_finds (found : Finds (primary limit expression) text good rest)
    (unlinked : Refuses (link limit expression) rest) : Finds (linked limit expression) text good rest := by
  refine Finds.named (found.bind fun base holds => (unlinked.many limit).bind fun links none' => ?_)
  subst none'
  exact Finds.pure holds

theorem signed_finds (unsigned : Refuses unaryOperator text) (found : Finds (linked limit expression) text good rest) :
    Finds (signed limit expression) text good rest := by
  refine Finds.named ((unsigned.many limit).bind fun ops none' => ?_)
  subst none'
  exact found

theorem operators_refuse {level : List (String × InfixOp)} (absent : ∀ entry ∈ level, ¬ entry.1.toList <+: rest) :
    Refuses (firstOf (level.map fun entry => operator entry.1 entry.2)) rest := by
  refine Refuses.firstOf fun rule member => ?_
  obtain ⟨entry, one, rfl⟩ := List.mem_map.mp member
  exact Refuses.named (Refuses.bind (Refuses.word (absent entry one)))

/-- One operand of a level alone, if no operator of that level follows. -/
theorem chain_cons_finds {level : List (String × InfixOp)} {tighter : List (List (String × InfixOp))}
    (found : Finds (chain limit expression tighter) text good rest)
    (absent : ∀ entry ∈ level, ¬ entry.1.toList <+: rest) :
    Finds (chain limit expression (level :: tighter)) text good rest := by
  refine Finds.named (found.bind fun first holds => ?_)
  refine ((Refuses.bind (operators_refuse absent)).many limit).bind fun more none' => ?_
  subst none'
  exact Finds.pure holds

theorem chain_finds (found : Finds (signed limit expression) text good rest)
    {given : List (List (String × InfixOp))} (absent : ∀ level ∈ given, ∀ entry ∈ level, ¬ entry.1.toList <+: rest) :
    Finds (chain limit expression given) text good rest := by
  induction given with
  | nil => exact found
  | cons level tighter ih =>
    exact chain_cons_finds (ih fun _ member => absent _ (List.mem_cons_of_mem _ member))
      (absent level (List.mem_cons_self ..))

end

/-- No infix operator stands where none of them starts with the first character. -/
theorem symbols_absent {rest : List Char} (differs : ∀ c ∈ rest.head?, ∀ level ∈ levels, ∀ entry ∈ level,
    entry.1.toList.head? ≠ some c) : ∀ level ∈ levels, ∀ entry ∈ level, ¬ entry.1.toList <+: rest := by
  have symbols : ∀ level ∈ levels, ∀ entry ∈ level, entry.1.toList ≠ [] := by decide
  rintro level listed entry member ⟨behind, rfl⟩
  obtain ⟨c, more, spelled⟩ := List.exists_cons_of_ne_nil (symbols level listed entry member)
  exact differs c (by simp [spelled]) level listed entry member (by simp [spelled])

/-- Whether the question mark of a conditional stands at the front of a text. -/
def conditionalAhead : List Char → Bool
  | '?' :: '?' :: _ => false
  | '?' :: '.' :: rest => (rest.dropWhile Lexeme.isBlank).head?.any Char.isDigit
  | '?' :: _ => true
  | _ => false

theorem exists_cons_of_conditionalAhead {text : List Char} (ahead : conditionalAhead text = true) :
    ∃ rest, text = '?' :: rest := by
  unfold conditionalAhead at ahead
  split at ahead
  · cases ahead
  · exact ⟨_, rfl⟩
  · exact ⟨_, rfl⟩
  · cases ahead

theorem questionMark_apply (cursor : Cursor) (furthest : Place) : questionMark cursor furthest =
    (if conditionalAhead cursor.rest then do let _ ← taken 1 else failure) cursor furthest := by
  obtain ⟨text, place⟩ := cursor
  unfold questionMark
  show (match text with
    | '?' :: '?' :: _ => _ | '?' :: '.' :: _ => _ | '?' :: _ => _ | _ => _ : Recogniser Unit) _ _ = _
  split
  · rfl
  · rename_i rest
    have behind : ((Cursor.mk ('?' :: '.' :: rest) place).advance 2).skipBlanks.rest =
        rest.dropWhile Lexeme.isBlank := by
      rw [Cursor.skipBlanks_rest, Cursor.advance_rest]
      rfl
    simp only [behind, conditionalAhead]
    cases rest.dropWhile Lexeme.isBlank with
    | nil => rfl
    | cons c more => rfl
  · rename_i rest first second
    rw [conditionalAhead.eq_3 _ first second]
    rfl
  · rename_i first second third
    rw [conditionalAhead.eq_4 _ first second third]
    rfl

theorem taken_of_questionMark {cursor behind : Cursor} {furthest : Place} {u : Unit}
    (found : (questionMark cursor furthest).1 = some (u, behind)) : conditionalAhead cursor.rest = true ∧
      (∃ rest, cursor.rest = '?' :: rest) ∧ ∃ mark, (taken 1 cursor furthest).1 = some (mark, behind) := by
  rw [questionMark_apply] at found
  split at found
  · rename_i ahead
    obtain ⟨mark, between, later, front, given⟩ := found_of_bind found
    cases given
    exact ⟨ahead, exists_cons_of_conditionalAhead ahead, mark, front⟩
  · cases found

theorem questionMark_refuses {text : List Char} (absent : conditionalAhead text = false) :
    Refuses questionMark text := by
  intro place furthest
  rw [questionMark_apply, absent]
  rfl

theorem questionMark_finds {rest : List Char} (ahead : conditionalAhead ('?' :: rest) = true) :
    Finds questionMark ('?' :: rest) (fun _ => True) (rest.dropWhile Lexeme.isBlank) := by
  intro place furthest
  rw [questionMark_apply, ahead]
  have taken : Finds (taken 1) ('?' :: rest) _ _ := Finds.taken 1
  exact (taken.bind fun _ _ => Finds.pure trivial) place furthest

/-- Where no conditional goes on, what the loosest level finds is a whole expression. -/
theorem conditional_finds {limit : Nat} {expression : Recogniser Phrase} {text rest : List Char}
    {good : Phrase → Prop} (found : Finds (chain limit expression levels) text good rest)
    (absent : conditionalAhead rest = false) : Finds (conditional limit expression) text good rest := by
  refine Finds.named (Finds.get.bind fun _ _ => found.bind fun test holds => ?_)
  refine (Refuses.optional (Refuses.bind (questionMark_refuses absent))).bind fun branches none' => ?_
  subst none'
  exact Finds.pure holds

theorem Finds.optional {α : Type} {rule : Recogniser α} {text rest : List Char} {good : α → Prop}
    (finds : Finds rule text good rest) :
    Finds (Grammar.optional rule) text (fun found => ∃ a, good a ∧ found = some a) rest := by
  refine Finds.orElse ?_ _
  rw [map_eq_pure_bind]
  exact finds.bind fun a holds => Finds.pure ⟨a, holds, rfl⟩

section

variable {α β : Type} {rule : Recogniser α} {text between rest : List Char} {good : β → α → Prop} {limit : Nat}

theorem Refuses.many_nil (refuses : Refuses rule text) (limit : Nat) :
    Finds (Grammar.many limit rule) text (List.Forall₂ good []) text :=
  (refuses.many limit).mono fun _ none' => none' ▸ List.Forall₂.nil

theorem Finds.many_cons {x : β} {xs : List β} (first : Finds rule text (good x) between)
    (others : Finds (Grammar.many limit rule) between (List.Forall₂ good xs) rest) :
    Finds (Grammar.many (limit + 1) rule) text (List.Forall₂ good (x :: xs)) rest :=
  Finds.orElse (first.bind fun _ holds => others.bind fun _ all => Finds.pure (List.Forall₂.cons holds all)) _

end

/-- A conditional is found with its three parts. -/
theorem conditional_finds_choice {limit : Nat} {expression : Recogniser Phrase} {text behind between rest : List Char}
    {good fair fine : Phrase → Prop} (test : Finds (chain limit expression levels) text good ('?' :: behind))
    (ahead : conditionalAhead ('?' :: behind) = true)
    (consequent : Finds expression (behind.dropWhile Lexeme.isBlank) fair (':' :: between))
    (alternate : Finds expression (between.dropWhile Lexeme.isBlank) fine rest) :
    Finds (conditional limit expression) text
      (fun p => ∃ a b c span, good a ∧ fair b ∧ fine c ∧ p = .choice a b c span) rest := by
  have branches : Finds (do
      questionMark
      let consequent ← expression
      let _ ← word [':']
      return (consequent, ← expression)) ('?' :: behind) (fun found => fair found.1 ∧ fine found.2) rest := by
    refine (questionMark_finds ahead).bind fun _ _ => consequent.bind fun b fairB => ?_
    exact (Finds.word [':'] between).bind fun _ _ => alternate.bind fun c fineC => Finds.pure ⟨fairB, fineC⟩
  refine Finds.named (Finds.get.bind fun _ _ => test.bind fun a goodA => branches.optional.bind fun found parts => ?_)
  obtain ⟨⟨b, c⟩, ⟨fairB, fineC⟩, rfl⟩ := parts
  exact Finds.get.bind fun _ _ => Finds.pure ⟨a, b, c, _, goodA, fairB, fineC, rfl⟩

end Grammar

end StateScript
