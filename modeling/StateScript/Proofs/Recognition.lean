import StateScript.Proofs.WellNamed

/-!
Where the rules of the grammar fail and what they find. Both depend on the text ahead only, not on the
place where it stands or on earlier failures, so they can be followed rule by rule.
-/

namespace StateScript

namespace Cursor

theorem advance_rest (n : Nat) (cursor : Cursor) : (cursor.advance n).rest = cursor.rest.drop n := by
  induction n generalizing cursor with
  | zero => rfl
  | succ n ih =>
    obtain ⟨text, place⟩ := cursor
    cases text with
    | nil => rfl
    | cons c rest => exact ih ⟨rest, place.after c⟩

theorem skipBlanks_rest (cursor : Cursor) :
    cursor.skipBlanks.rest = cursor.rest.dropWhile Lexeme.isBlank := by
  rw [skipBlanks, advance_rest]
  nth_rewrite 2 [← List.takeWhile_append_dropWhile (p := Lexeme.isBlank) (l := cursor.rest)]
  exact List.drop_left

end Cursor

namespace Grammar

section

variable {α β : Type}

/-- A rule fails on a text. -/
def Refuses (rule : Recogniser α) (text : List Char) : Prop :=
  ∀ place furthest, (rule ⟨text, place⟩ furthest).1 = none

/-- A rule finds something of a kind at the front of a text and leaves the rest of it. -/
def Finds (rule : Recogniser α) (text : List Char) (good : α → Prop) (rest : List Char) : Prop :=
  ∀ place furthest, ∃ a behind, good a ∧ (rule ⟨text, place⟩ furthest).1 = some (a, ⟨rest, behind⟩)

variable {rule other : Recogniser α} {next : α → Recogniser β} {text between rest : List Char}
  {good : α → Prop} {fine : β → Prop}

theorem Refuses.failure : Refuses (failure : Recogniser α) text := fun _ _ => rfl

theorem Refuses.bind (refuses : Refuses rule text) : Refuses (rule >>= next) text := by
  intro place furthest
  have failed := refuses place furthest
  rw [bind_apply]
  revert failed
  rcases rule ⟨text, place⟩ furthest with ⟨_ | found, later⟩
  · exact fun _ => rfl
  · exact nofun

theorem Refuses.orElse (first : Refuses rule text) (second : Refuses other text) :
    Refuses (rule <|> other) text := by
  intro place furthest
  have failed := first place furthest
  rw [orElse_apply]
  revert failed
  rcases rule ⟨text, place⟩ furthest with ⟨_ | found, later⟩
  · exact fun _ => second place later
  · exact nofun

theorem Refuses.named (refuses : Refuses rule text) : Refuses (named rule) text := by
  intro place furthest
  have failed := refuses place furthest
  unfold Grammar.named
  revert failed
  rcases rule ⟨text, place⟩ furthest with ⟨_ | found, later⟩
  · exact fun _ => rfl
  · exact nofun

theorem Refuses.firstOf {rules : List (Recogniser α)} (each : ∀ rule ∈ rules, Refuses rule text) :
    Refuses (firstOf rules) text := by
  induction rules with
  | nil => exact Refuses.failure
  | cons rule rest ih =>
    exact Refuses.orElse (each rule (List.mem_cons_self ..))
      (ih fun other member => each other (List.mem_cons_of_mem _ member))

theorem Refuses.scanned {length? : List Char → Option Nat} (none' : length? text = none) :
    Refuses (scanned length?) text := by
  intro place furthest
  rw [scanned_apply]
  simp only [none']
  rfl

theorem word_apply (expected : List Char) (cursor : Cursor) (furthest : Place) :
    word expected cursor furthest = (if expected.isPrefixOf cursor.rest then
      Prod.snd <$> taken expected.length else failure) cursor furthest := by
  show (if expected.isPrefixOf cursor.rest then _ else failure : Recogniser Span) cursor furthest = _
  split <;> rfl

theorem taken_of_word {expected : List Char} {cursor behind : Cursor} {furthest : Place} {span : Span}
    (found : (word expected cursor furthest).1 = some (span, behind)) : expected <+: cursor.rest ∧
      ∃ cs, (taken expected.length cursor furthest).1 = some ((cs, span), behind) := by
  rw [word_apply] at found
  split at found
  · rename_i present
    rw [map_eq_pure_bind] at found
    obtain ⟨⟨cs, span⟩, between, later, front, given⟩ := found_of_bind found
    cases given
    exact ⟨List.isPrefixOf_iff_prefix.mp present, cs, front⟩
  · cases found

theorem Refuses.word {expected : List Char} (absent : ¬ expected <+: text) : Refuses (word expected) text := by
  intro place furthest
  rw [word_apply, if_neg (fun present => absent (List.isPrefixOf_iff_prefix.mp present))]
  rfl

theorem Finds.pure {a : α} (holds : good a) : Finds (Pure.pure a) text good text :=
  fun place _ => ⟨a, place, holds, rfl⟩

theorem Finds.mono {better : α → Prop} (finds : Finds rule text good rest) (weaker : ∀ a, good a → better a) :
    Finds rule text better rest := by
  intro place furthest
  obtain ⟨a, behind, holds, found⟩ := finds place furthest
  exact ⟨a, behind, weaker a holds, found⟩

theorem Finds.get : Finds (get : Recogniser Cursor) text (fun cursor => cursor.rest = text) text :=
  fun place _ => ⟨⟨text, place⟩, place, rfl, rfl⟩

theorem Finds.bind (first : Finds rule text good between) (second : ∀ a, good a → Finds (next a) between fine rest) :
    Finds (rule >>= next) text fine rest := by
  intro place furthest
  obtain ⟨a, behind, holds, found⟩ := first place furthest
  rw [bind_apply]
  rcases outcome : rule ⟨text, place⟩ furthest with ⟨result, later⟩
  rw [outcome] at found
  obtain rfl : result = some (a, ⟨between, behind⟩) := found
  exact second a holds behind later

theorem Finds.refuses (first : Finds rule text good between) (second : ∀ a, good a → Refuses (next a) between) :
    Refuses (rule >>= next) text := by
  intro place furthest
  obtain ⟨a, behind, holds, found⟩ := first place furthest
  rw [bind_apply]
  rcases outcome : rule ⟨text, place⟩ furthest with ⟨result, later⟩
  rw [outcome] at found
  obtain rfl : result = some (a, ⟨between, behind⟩) := found
  exact second a holds behind later

theorem Finds.orElse (first : Finds rule text good rest) (other : Recogniser α) :
    Finds (rule <|> other) text good rest := by
  intro place furthest
  obtain ⟨a, behind, holds, found⟩ := first place furthest
  refine ⟨a, behind, holds, ?_⟩
  rw [orElse_apply]
  rcases outcome : rule ⟨text, place⟩ furthest with ⟨result, later⟩
  rw [outcome] at found
  obtain rfl : result = some (a, ⟨rest, behind⟩) := found
  rfl

theorem Refuses.orElse_finds (first : Refuses rule text) (second : Finds other text good rest) :
    Finds (rule <|> other) text good rest := by
  intro place furthest
  have failed := first place furthest
  rw [orElse_apply]
  rcases outcome : rule ⟨text, place⟩ furthest with ⟨result, later⟩
  rw [outcome] at failed
  obtain rfl : result = none := failed
  exact second place later

theorem Finds.named (finds : Finds rule text good rest) : Finds (named rule) text good rest := by
  intro place furthest
  obtain ⟨a, behind, holds, found⟩ := finds place furthest
  refine ⟨a, behind, holds, ?_⟩
  unfold Grammar.named
  rcases outcome : rule ⟨text, place⟩ furthest with ⟨result, later⟩
  rw [outcome] at found
  obtain rfl : result = some (a, ⟨rest, behind⟩) := found
  rfl

theorem Finds.taken (n : Nat) : Finds (taken n) text (fun found => found.1 = text.take n)
    ((text.drop n).dropWhile Lexeme.isBlank) := by
  intro place furthest
  have left : ((Cursor.mk text place).advance n).skipBlanks.rest = (text.drop n).dropWhile Lexeme.isBlank := by
    rw [Cursor.skipBlanks_rest, Cursor.advance_rest]
  refine ⟨(text.take n, ⟨place, ((Cursor.mk text place).advance n).place.offset⟩),
    ((Cursor.mk text place).advance n).skipBlanks.place, rfl, ?_⟩
  rw [← left]
  rfl

theorem Finds.scanned {length? : List Char → Option Nat} {n : Nat} (some' : length? text = some n) :
    Finds (scanned length?) text (fun found => found.1 = text.take n)
      ((text.drop n).dropWhile Lexeme.isBlank) := by
  intro place furthest
  rw [scanned_apply]
  simp only [some']
  exact Finds.taken n place furthest

/-- A word is found if it stands there; the blanks behind it are passed too. -/
theorem Finds.word (expected rest : List Char) :
    Finds (word expected) (expected ++ rest) (fun _ => True) (rest.dropWhile Lexeme.isBlank) := by
  intro place furthest
  have taken : Finds (Grammar.taken expected.length) (expected ++ rest) _ _ := Finds.taken expected.length
  obtain ⟨found, behind, _, given⟩ := taken place furthest
  rw [List.drop_left] at given
  have present : expected.isPrefixOf (expected ++ rest) :=
    List.isPrefixOf_iff_prefix.mpr (List.prefix_append expected rest)
  rw [word_apply, if_pos present, map_eq_pure_bind, bind_apply]
  rcases outcome : Grammar.taken expected.length ⟨expected ++ rest, place⟩ furthest with ⟨result, later⟩
  rw [outcome] at given
  obtain rfl : result = some (found, ⟨_, behind⟩) := given
  exact ⟨found.2, behind, trivial, rfl⟩

theorem Refuses.optional (refuses : Refuses rule text) : Finds (optional rule) text (· = none) text := by
  refine Refuses.orElse_finds ?_ (Finds.pure rfl)
  rw [map_eq_pure_bind]
  exact refuses.bind

theorem Refuses.many (refuses : Refuses rule text) (limit : Nat) : Finds (many limit rule) text (· = []) text := by
  cases limit with
  | zero => exact Finds.pure rfl
  | succ limit => exact Refuses.orElse_finds refuses.bind (Finds.pure rfl)

theorem Refuses.separated (refuses : Refuses rule text) (limit : Nat) :
    Finds (separated limit rule) text (· = []) text := by
  refine refuses.optional.bind fun found absent => ?_
  subst absent
  exact Finds.pure rfl

theorem Refuses.nameSuchThat (accepts : String → Bool) (unnamed : Lexeme.nameLength? text = none) :
    Refuses (nameSuchThat accepts) text := (Refuses.scanned unnamed).bind

end

section

variable {limit : Nat} {expression : Recogniser Phrase} {text : List Char}

/-- Where neither an operand nor a sign stands, no expression starts. -/
theorem chain_refuses (unsigned : Refuses unaryOperator text) (none' : Refuses (primary limit expression) text)
    (levels : List (List (String × InfixOp))) : Refuses (chain limit expression levels) text := by
  induction levels with
  | nil =>
    refine Refuses.named ((unsigned.many limit).refuses fun ops absent => ?_)
    subst absent
    exact Refuses.named none'.bind
  | cons level tighter ih => exact Refuses.named ih.bind

theorem conditional_refuses (unsigned : Refuses unaryOperator text)
    (none' : Refuses (primary limit expression) text) : Refuses (conditional limit expression) text :=
  Refuses.named (Finds.get.refuses fun _ _ => (chain_refuses unsigned none' levels).bind)

/-- Behind an opening brace a key has to come, so no operand starts with two of them. -/
theorem primary_refuses_braces (rest : List Char) :
    Refuses (primary limit expression) ('\x7b' :: '\x7b' :: rest) := by
  have unnamed (behind : List Char) : Lexeme.nameLength? ('\x7b' :: behind) = none := rfl
  have unquoted (behind : List Char) : Refuses quoted ('\x7b' :: behind) :=
    Refuses.named (Refuses.bind (Refuses.scanned rfl))
  have word (expected : Char) (differs : expected ≠ '\x7b') (behind : List Char) :
      Refuses (Grammar.word [expected]) ('\x7b' :: behind) :=
    Refuses.word fun here => differs (List.cons_prefix_cons.mp here).1
  have property : Refuses (property expression) ('\x7b' :: rest) :=
    Refuses.named (Refuses.bind (Refuses.orElse
      (Refuses.bind (Refuses.named (Refuses.nameSuchThat _ (unnamed rest)))) (unquoted rest).bind))
  apply Refuses.firstOf
  simp only [List.forall_mem_cons]
  refine ⟨Refuses.named (Refuses.bind (Refuses.scanned rfl)), (unquoted _).bind, ?yes, ?no, ?null, ?undefined,
    ?list, ?record, ?name, (word '(' (by decide) _).bind, by simp⟩
  case list => exact Refuses.named (Finds.get.refuses fun _ _ => (word '[' (by decide) _).bind)
  case name => exact Refuses.bind (Refuses.named (Refuses.nameSuchThat _ (unnamed _)))
  case record =>
    refine Refuses.named (Finds.get.refuses fun _ _ => ?_)
    refine (Finds.word ['\x7b'] ('\x7b' :: rest)).refuses fun _ _ => ?_
    refine (property.separated limit).refuses fun _ _ => ?_
    refine (word ',' (by decide) rest).optional.refuses fun _ _ => ?_
    exact (word '\x7d' (by decide) rest).bind
  all_goals exact Refuses.named (Refuses.bind (Refuses.bind (Refuses.nameSuchThat _ (unnamed _))))

theorem unaryOperator_refuses_brace (rest : List Char) : Refuses unaryOperator ('\x7b' :: rest) := by
  have word (expected : Char) (differs : expected ≠ '\x7b') : Refuses (Grammar.word [expected]) ('\x7b' :: rest) :=
    Refuses.word fun here => differs (List.cons_prefix_cons.mp here).1
  apply Refuses.firstOf
  simp only [List.forall_mem_cons]
  refine ⟨Refuses.named (word '!' (by decide)).bind, Refuses.named (word '-' (by decide)).bind,
    Refuses.named (word '+' (by decide)).bind, ?_, by simp⟩
  exact Refuses.named (Refuses.bind (Refuses.bind (Refuses.nameSuchThat _ rfl)))

theorem expression_refuses_braces (limit allowance : Nat) (rest : List Char) :
    Refuses (Grammar.expression limit allowance) ('\x7b' :: '\x7b' :: rest) := by
  cases allowance with
  | zero => exact Refuses.failure
  | succ allowance =>
    exact conditional_refuses (unaryOperator_refuses_brace _) (primary_refuses_braces rest)

end

/-- What is recognised is an expression that takes up the whole text. -/
theorem expression_of_recognise {allowance : Nat} {cs : List Char} {p : Phrase}
    (recognised : recognise allowance cs = .ok p) : ∃ place,
      (expression (cs.length + 1) allowance (.ofText cs) .origin).1 = some (p, ⟨[], place⟩) := by
  unfold recognise at recognised
  simp only at recognised
  split at recognised
  · rename_i phrase last later found
    cases recognised
    rw [bind_apply] at found
    rcases outcome : expression (cs.length + 1) allowance (.ofText cs) .origin with ⟨_ | ⟨a, ⟨rest, place⟩⟩, between⟩
    · simp only [outcome] at found
      cases found
    · simp only [outcome] at found
      cases rest with
      | nil =>
        cases found
        exact ⟨place, rfl⟩
      | cons c more => cases found
  · cases recognised

theorem recognise_of_refuses {allowance : Nat} {cs : List Char}
    (refuses : Refuses (expression (cs.length + 1) allowance) cs) (p : Phrase) :
    recognise allowance cs ≠ .ok p := by
  intro recognised
  obtain ⟨place, found⟩ := expression_of_recognise recognised
  rw [Cursor.ofText, refuses] at found
  cases found

/-- An expression that takes up the whole text is recognised. -/
theorem recognise_of_finds {allowance : Nat} {cs : List Char} {good : Phrase → Prop}
    (finds : Finds (expression (cs.length + 1) allowance) cs good []) :
    ∃ p, recognise allowance cs = .ok p ∧ good p := by
  obtain ⟨p, behind, holds, found⟩ := finds .origin .origin
  refine ⟨p, ?_, holds⟩
  unfold recognise
  rcases outcome : expression (cs.length + 1) allowance (.ofText cs) .origin with ⟨result, later⟩
  rw [← Cursor.ofText, outcome] at found
  obtain rfl : result = some (p, ⟨[], behind⟩) := found
  simp only [bind_apply, outcome]
  rfl

theorem good_of_recognise {allowance : Nat} {cs rest : List Char} {good : Phrase → Prop}
    (finds : Finds (expression (cs.length + 1) allowance) cs good rest) {p : Phrase}
    (recognised : recognise allowance cs = .ok p) : good p := by
  obtain ⟨place, found⟩ := expression_of_recognise recognised
  obtain ⟨other, behind, holds, same⟩ := finds .origin .origin
  rw [Cursor.ofText, same] at found
  cases found
  exact holds

end Grammar

end StateScript
