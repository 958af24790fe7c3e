import StateScript.Proofs.Addresses
import StateScript.Proofs.Operands

/-!
Addresses as expressions. An address that parses is the chain of members and literal indices that its
steps spell, with nothing optional in it.
-/

namespace StateScript

namespace Lexeme

/-- What may stand behind a name or digits without being part of them: nothing, a point or a bracket. -/
def Apart (rest : List Char) : Prop := ∀ c ∈ rest.head?, c = '.' ∨ c = '[' ∨ c = ']'

section

variable {rest : List Char} (apart : Apart rest)

include apart

theorem Apart.takeWhile {p : Char → Bool} (differs : p '.' = false ∧ p '[' = false ∧ p ']' = false) :
    rest.takeWhile p = [] := by
  cases rest with
  | nil => rfl
  | cons c more => rcases apart c rfl with rfl | rfl | rfl <;> simp [differs]

theorem Apart.skipped : rest.dropWhile isBlank = rest := by
  cases rest with
  | nil => rfl
  | cons c more => rcases apart c rfl with rfl | rfl | rfl <;> rfl

theorem Apart.endsName : ∀ c ∈ rest.head?, isNameChar c = false := by
  intro c first
  rcases apart c first with rfl | rfl | rfl <;> rfl

theorem Apart.digitsLength {cs : List Char} (digits : ∀ c ∈ cs, c.isDigit = true) :
    digitsLength (cs ++ rest) = cs.length := by
  rw [Lexeme.digitsLength, List.takeWhile_append_of_pos digits, apart.takeWhile (by decide), List.append_nil]

end

theorem nameLength?_of_digits {cs rest : List Char} (spelled : IsDigits cs) : nameLength? (cs ++ rest) = none := by
  obtain ⟨c, more, rfl⟩ := List.exists_cons_of_ne_nil spelled.1
  have unnamed : isNameStart c = false := by
    rw [Bool.eq_false_iff]
    intro start
    have letter := isDigit_of_isNameStart start
    rw [spelled.2 c (List.mem_cons_self ..)] at letter
    cases letter
  simp [nameLength?, unnamed]

/-- Digits up to a closing bracket are a number. -/
theorem numberLength?_of_digits {cs : List Char} (spelled : IsDigits cs) (more : List Char) :
    numberLength? (cs ++ ']' :: more) = some cs.length := by
  have apart : Apart (']' :: more) := by
    intro c first
    cases first
    exact Or.inr (Or.inr rfl)
  have positive : 0 < cs.length := List.length_pos_iff.mpr spelled.1
  have mantissa : mantissaLength? (cs ++ ']' :: more) = some cs.length := by
    simp [mantissaLength?, apart.digitsLength spelled.2, positive]
  simp [numberLength?, mantissa, exponentLength]

theorem quotedLength?_of_plain {quote : Char} {cs : List Char} (plain : ∀ c ∈ cs, c ≠ quote ∧ c ≠ '\\')
    (protects : quote ≠ '\\') (rest : List Char) : quotedLength? quote (cs ++ quote :: rest) = some cs.length := by
  induction cs with
  | nil =>
    rw [List.nil_append, quotedLength?.eq_3 _ _ _ fun _ _ same _ => protects same, if_pos rfl]
    rfl
  | cons c more ih =>
    obtain ⟨differs, unescaped⟩ := plain c (List.mem_cons_self ..)
    rw [List.cons_append, quotedLength?.eq_3 _ _ _ fun _ _ same _ => unescaped same, if_neg differs,
      if_neg unescaped, ih fun d member => plain d (List.mem_cons_of_mem _ member)]
    rfl

end Lexeme

namespace Grammar

open Lexeme (Apart)

/-- A scanner finds what stands in front of such a rest. -/
theorem Finds.front {length? : List Char → Option Nat} {cs rest : List Char} (apart : Apart rest)
    (found : length? (cs ++ rest) = some cs.length) :
    Finds (Grammar.scanned length?) (cs ++ rest) (fun found => found.1 = cs) rest := by
  have scanned := Finds.scanned found
  rwa [List.drop_left, apart.skipped, List.take_left] at scanned

/-- Where an operand ends: at the end of the text or at a closing bracket. -/
def Ends (rest : List Char) : Prop := ∀ c ∈ rest.head?, c = ']'

theorem Ends.word_absent {rest : List Char} (ends : Ends rest) {c : Char} (differs : c ≠ ']') (more : List Char) :
    ¬ c :: more <+: rest := by
  rintro ⟨behind, rfl⟩
  exact differs (ends c rfl)

theorem Ends.unlinked {limit : Nat} {expression : Recogniser Phrase} {rest : List Char} (ends : Ends rest) :
    Refuses (link limit expression) rest := by
  apply link_refuses
  simp only [linkWords, List.forall_mem_cons]
  refine ⟨?_, ?_, ?_, ?_, ?_, by simp⟩ <;> exact ends.word_absent (by decide) _

/-- An operand up to its end is a whole expression. -/
theorem Ends.conditional_finds {limit : Nat} {expression : Recogniser Phrase} {text rest : List Char}
    {good : Phrase → Prop} (ends : Ends rest) (unsigned : Refuses unaryOperator text)
    (found : Finds (linked limit expression) text good rest) : Finds (conditional limit expression) text good rest := by
  refine Grammar.conditional_finds (chain_finds (signed_finds unsigned found) (symbols_absent ?_)) ?_
  · intro c first
    obtain rfl := ends c first
    decide
  · cases rest with
    | nil => rfl
    | cons c more =>
      obtain rfl := ends c rfl
      rfl

section

theorem apart_closing (rest : List Char) : Apart (']' :: rest) := by
  intro c first
  cases first
  exact Or.inr (Or.inr rfl)

theorem ends_closing (rest : List Char) : Ends (']' :: rest) := by
  intro c first
  cases first
  rfl

theorem unaryOperator_refuses {text : List Char} (unnamed : Lexeme.nameLength? text = none)
    (signs : ∀ c ∈ text.head?, c ≠ '!' ∧ c ≠ '-' ∧ c ≠ '+') : Refuses unaryOperator text := by
  have word (expected : Char) (differs : ∀ c ∈ text.head?, c ≠ expected) : Refuses (Grammar.word [expected]) text := by
    refine Refuses.word fun front => ?_
    obtain ⟨behind, rfl⟩ := front
    exact differs expected rfl rfl
  apply Refuses.firstOf
  simp only [List.forall_mem_cons]
  refine ⟨Refuses.named (word '!' fun c first => (signs c first).1).bind,
    Refuses.named (word '-' fun c first => (signs c first).2.1).bind,
    Refuses.named (word '+' fun c first => (signs c first).2.2).bind, ?_, by simp⟩
  exact Refuses.named (Refuses.bind (Refuses.bind (Refuses.nameSuchThat _ unnamed)))

/-- Digits up to a closing bracket are read as a number. -/
theorem number_finds (limit allowance : Nat) {cs : List Char} (spelled : IsDigits cs) (rest : List Char) :
    Finds (expression limit (allowance + 1)) (cs ++ ']' :: rest) (fun p => ∃ span, p = .number cs span)
      (']' :: rest) := by
  have signs : ∀ c ∈ (cs ++ ']' :: rest).head?, c ≠ '!' ∧ c ≠ '-' ∧ c ≠ '+' := by
    obtain ⟨d, more, rfl⟩ := List.exists_cons_of_ne_nil spelled.1
    intro c first
    cases first
    have digit := spelled.2 d (List.mem_cons_self ..)
    refine ⟨?_, ?_, ?_⟩ <;> rintro rfl <;> cases digit
  have scanned := Finds.front (apart_closing rest) (Lexeme.numberLength?_of_digits spelled rest)
  refine (ends_closing rest).conditional_finds
    (unaryOperator_refuses (Lexeme.nameLength?_of_digits spelled) signs)
    (linked_finds ?_ (ends_closing rest).unlinked)
  refine Finds.orElse (Finds.named (scanned.bind fun found same => ?_)) _
  exact Finds.pure ⟨found.2, by rw [← same]⟩

theorem quoted_finds {quote : Char} {cs : List Char} (quotes : quote = '\'' ∨ quote = '"')
    (plain : ∀ c ∈ cs, c ≠ '\'' ∧ c ≠ '"' ∧ c ≠ '\\') {rest : List Char} (apart : Apart rest) :
    Finds quoted (quote :: (cs ++ quote :: rest)) (fun found => found.1 = cs) rest := by
  have unquoted : ∀ c ∈ cs, c ≠ quote ∧ c ≠ '\\' := by
    intro c member
    obtain ⟨single, double, unescaped⟩ := plain c member
    exact ⟨by rcases quotes with rfl | rfl <;> assumption, unescaped⟩
  have protects : quote ≠ '\\' := by rcases quotes with rfl | rfl <;> decide
  have closed := Lexeme.quotedLength?_of_plain unquoted protects rest
  have text : quote :: (cs ++ quote :: rest) = quote :: (cs ++ [quote]) ++ rest := by simp
  rw [text]
  refine Finds.named ((Finds.front apart ?_).bind fun pair same => Finds.pure ?_)
  · simp [quotes, closed]
  · simp [same]

/-- A quoted text up to a closing bracket is read as that text. -/
theorem string_finds (limit allowance : Nat) {quote : Char} {cs : List Char} (quotes : quote = '\'' ∨ quote = '"')
    (plain : ∀ c ∈ cs, c ≠ '\'' ∧ c ≠ '"' ∧ c ≠ '\\') (rest : List Char) :
    Finds (expression limit (allowance + 1)) (quote :: (cs ++ quote :: ']' :: rest))
      (fun p => ∃ span, p = .string cs span) (']' :: rest) := by
  have unnamed : Lexeme.nameLength? (quote :: (cs ++ quote :: ']' :: rest)) = none := by
    rcases quotes with rfl | rfl <;> rfl
  have signs : ∀ c ∈ (quote :: (cs ++ quote :: ']' :: rest)).head?, c ≠ '!' ∧ c ≠ '-' ∧ c ≠ '+' := by
    intro c first
    cases first
    rcases quotes with rfl | rfl <;> decide
  have unnumbered : Lexeme.numberLength? (quote :: (cs ++ quote :: ']' :: rest)) = none := by
    rcases quotes with rfl | rfl <;> rfl
  refine (ends_closing rest).conditional_finds (unaryOperator_refuses unnamed signs)
    (linked_finds ?_ (ends_closing rest).unlinked)
  refine Refuses.orElse_finds (Refuses.named (Refuses.bind (Refuses.scanned unnumbered))) ?_
  refine Finds.orElse ((quoted_finds quotes plain (apart_closing rest)).bind fun found same => ?_) _
  exact Finds.pure ⟨found.2, by rw [← same]⟩

end

/-- What the grammar makes of a step of an address. -/
def Spells : AddressStep → PhraseLink → Prop
  | .name text _, l => ∃ span, l = .member text false span
  | .digits cs _, l => ∃ span, l = .member (String.ofList cs) false span
  | .index cs _, l => ∃ place span, l = .index (.number cs place) false span
  | .key _ cs _ _, l => ∃ place span, l = .index (.string cs place) false span

theorem propertyName_finds {text : String} (spelled : Lexeme.IsName text) {rest : List Char} (apart : Apart rest) :
    Finds propertyName (text.toList ++ rest) (fun found => found.1 = text) rest := by
  have found : Finds propertyName _ _ _ := Finds.named (nameSuchThat_finds spelled apart.endsName rfl)
  rwa [apart.skipped] at found

theorem indexDigits_finds {cs : List Char} (spelled : IsDigits cs) {rest : List Char} (apart : Apart rest) :
    Finds indexDigits (cs ++ rest) (fun found => found.1 = String.ofList cs) rest := by
  have positive : Lexeme.digitsLength (cs ++ rest) ≠ 0 := by
    rw [apart.digitsLength spelled.2]
    exact Nat.ne_of_gt (List.length_pos_iff.mpr spelled.1)
  refine Finds.named ((Finds.front apart ?_).bind fun found same => Finds.pure (by rw [same]))
  rw [if_neg positive, apart.digitsLength spelled.2]

section

variable {rest : List Char}

theorem member_finds {text : List Char} {property : String} (visible : text.dropWhile Lexeme.isBlank = text)
    (found : Finds (propertyName <|> indexDigits) text (fun found => found.1 = property) rest)
    (expression : Recogniser Phrase) :
    Finds (link limit expression) ('.' :: text) (fun l => ∃ span, l = .member property false span) rest := by
  have absent (expected : List Char) : Refuses (word ('?' :: expected)) ('.' :: text) :=
    Refuses.word fun front => absurd (List.cons_prefix_cons.mp front).1 (by decide)
  have point := Finds.word ['.'] text
  rw [visible] at point
  refine Refuses.orElse_finds (Refuses.named (Finds.get.refuses fun _ _ => (absent _).bind)) ?_
  refine Refuses.orElse_finds (Refuses.named (Finds.get.refuses fun _ _ => (absent _).bind)) ?_
  refine Finds.orElse (Finds.named (Finds.get.bind fun cursor _ => point.bind fun _ _ => ?_)) _
  refine found.bind fun pair same => Finds.pure ⟨⟨cursor.place, pair.2.stop⟩, ?_⟩
  rw [← same]

theorem index_finds (limit : Nat) {text : List Char} {key : Phrase → Prop} {expression : Recogniser Phrase}
    (visible : text.dropWhile Lexeme.isBlank = text) (apart : Apart rest)
    (found : Finds expression text key (']' :: rest)) :
    Finds (link limit expression) ('[' :: text) (fun l => ∃ p span, key p ∧ l = .index p false span) rest := by
  have absent (c : Char) (differs : c ≠ '[') (expected : List Char) : Refuses (word (c :: expected)) ('[' :: text) :=
    Refuses.word fun front => absurd (List.cons_prefix_cons.mp front).1 differs
  have opens := Finds.word ['['] text
  rw [visible] at opens
  have closes := Finds.word [']'] rest
  rw [apart.skipped] at closes
  refine Refuses.orElse_finds (Refuses.named (Finds.get.refuses fun _ _ => (absent '?' (by decide) _).bind)) ?_
  refine Refuses.orElse_finds (Refuses.named (Finds.get.refuses fun _ _ => (absent '?' (by decide) _).bind)) ?_
  refine Refuses.orElse_finds (Refuses.named (Finds.get.refuses fun _ _ => (absent '.' (by decide) _).bind)) ?_
  refine Finds.orElse (Finds.named (Finds.get.bind fun cursor _ => opens.bind fun _ _ => ?_)) _
  refine found.bind fun p holds => closes.bind fun close _ => ?_
  exact Finds.pure ⟨p, ⟨cursor.place, close.stop⟩, holds, rfl⟩

theorem visible_of_isNameChar {c : Char} (char : Lexeme.isNameChar c = true) (more : List Char) :
    (c :: more).dropWhile Lexeme.isBlank = c :: more := by
  have visible : Lexeme.isBlank c = false := by
    rw [Bool.eq_false_iff]
    intro blank
    simp only [Lexeme.isBlank, Bool.or_eq_true, beq_iff_eq] at blank
    rcases blank with ((rfl | rfl) | rfl) | rfl <;> cases char
  simp [visible]

theorem visible_of_digits {cs : List Char} (spelled : IsDigits cs) (more : List Char) :
    (cs ++ more).dropWhile Lexeme.isBlank = cs ++ more := by
  obtain ⟨c, behind, rfl⟩ := List.exists_cons_of_ne_nil spelled.1
  refine visible_of_isNameChar ?_ _
  simp [Lexeme.isNameChar, Char.isAlphanum, spelled.2 c (List.mem_cons_self ..)]

/-- A step of an address is one link. -/
theorem link_finds (limit outer allowance : Nat) (step : AddressStep) (apart : Apart rest) :
    Finds (link limit (expression outer (allowance + 1))) (step.text ++ rest) (Spells step) rest := by
  cases step with
  | name text spelled =>
    obtain ⟨c, more, same, start, _⟩ := spelled
    have visible : (text.toList ++ rest).dropWhile Lexeme.isBlank = text.toList ++ rest := by
      rw [same]
      exact visible_of_isNameChar (Lexeme.isNameChar_of_isNameStart start) _
    exact member_finds visible ((propertyName_finds ⟨c, more, same, start, by assumption⟩ apart).orElse _) _
  | digits cs spelled =>
    have unnamed : Refuses propertyName (cs ++ rest) :=
      Refuses.named (Refuses.nameSuchThat _ (Lexeme.nameLength?_of_digits spelled))
    exact member_finds (visible_of_digits spelled rest) (unnamed.orElse_finds (indexDigits_finds spelled apart)) _
  | index cs spelled =>
    have found := index_finds limit (visible_of_digits spelled (']' :: rest)) apart
      (number_finds outer allowance spelled rest)
    rw [AddressStep.text, List.cons_append, List.append_assoc]
    refine found.mono ?_
    rintro l ⟨p, span, ⟨place, rfl⟩, rfl⟩
    exact ⟨place, span, rfl⟩
  | key quote cs quotes plain =>
    have visible : (quote :: (cs ++ quote :: ']' :: rest)).dropWhile Lexeme.isBlank =
        quote :: (cs ++ quote :: ']' :: rest) := by
      rcases quotes with rfl | rfl <;> rfl
    have found := index_finds limit visible apart (string_finds outer allowance quotes plain rest)
    rw [AddressStep.text, List.cons_append, List.cons_append, List.append_assoc]
    refine found.mono ?_
    rintro l ⟨p, span, ⟨place, rfl⟩, rfl⟩
    exact ⟨place, span, rfl⟩

theorem apart_steps (steps : List AddressStep) : Apart (Address.textOf steps) := by
  intro c first
  cases steps with
  | nil => cases first
  | cons step rest =>
    cases step <;> cases first
    · exact Or.inl rfl
    · exact Or.inl rfl
    · exact Or.inr (Or.inl rfl)
    · exact Or.inr (Or.inl rfl)

theorem length_le_textOf (steps : List AddressStep) : steps.length ≤ (Address.textOf steps).length := by
  induction steps with
  | nil => exact Nat.le_refl _
  | cons step rest ih =>
    have positive : 0 < step.text.length := by cases step <;> simp [AddressStep.text]
    rw [Address.textOf_cons, List.length_append, List.length_cons]
    omega

theorem links_find (limit outer allowance : Nat) (steps : List AddressStep) {room : Nat}
    (enough : steps.length ≤ room) :
    Finds (many room (link limit (expression outer (allowance + 1)))) (Address.textOf steps)
      (List.Forall₂ Spells steps) [] := by
  induction steps generalizing room with
  | nil =>
    have ends : Ends [] := fun c first => by cases first
    exact ends.unlinked.many_nil room
  | cons step rest ih =>
    obtain ⟨room, rfl⟩ := Nat.exists_eq_add_of_le' (Nat.lt_of_lt_of_le (Nat.succ_pos _) enough)
    exact (link_finds limit outer allowance step (apart_steps rest)).many_cons (ih (by simpa using enough))

end

/-- What the grammar makes of an address. -/
def SpellsAddress (a : Address) (p : Phrase) : Prop :=
  ∃ span, (a.steps = [] ∧ p = .name a.root span) ∨
    ∃ links, List.Forall₂ Spells a.steps links ∧ links ≠ [] ∧ p = .linked (.name a.root span) links

section

variable {limit : Nat} (a : Address)

/-- The grammar finds an address as its name with its steps as links. -/
theorem address_finds (allowance : Nat) (enough : a.steps.length ≤ limit) :
    Finds (expression limit (allowance + 2)) (a.root.toList ++ Address.textOf a.steps) (SpellsAddress a) [] := by
  have ends : Ends [] := fun c first => by cases first
  have apart := apart_steps a.steps
  refine ends.conditional_finds (unaryOperator_refuses_name a.spelled apart.endsName a.free) (Finds.named ?_)
  have root := primary_finds_name a.spelled apart.endsName a.free limit (expression limit (allowance + 1))
  rw [apart.skipped] at root
  refine root.bind fun base named => ?_
  refine (links_find _ _ _ a.steps enough).bind fun links spells => ?_
  obtain ⟨span, rfl⟩ := named
  cases links with
  | nil => exact Finds.pure ⟨span, Or.inl ⟨List.forall₂_nil_right_iff.mp spells, rfl⟩⟩
  | cons first more => exact Finds.pure ⟨span, Or.inr ⟨first :: more, spells, by simp, rfl⟩⟩

end

end Grammar

namespace Escape

/-- A text without backslashes stands for itself. -/
theorem decode?_of_plain {cs : List Char} (plain : ∀ c ∈ cs, c ≠ '\\') : decode? cs = some cs := by
  induction cs with
  | nil => rfl
  | cons c rest ih =>
    have unescaped := plain c (List.mem_cons_self ..)
    rw [decode?.eq_10]
    · rw [ih fun d member => plain d (List.mem_cons_of_mem _ member)]
      rfl
    all_goals
      intros
      simp_all

end Escape

/-- A step hangs a member or a literal index onto a tree. -/
def AddressStep.Extends (object : Expr) : AddressStep → Expr → Prop
  | name text _, e => ∃ span, e = .member object text false span
  | digits cs _, e => ∃ span, e = .member object (String.ofList cs) false span
  | index cs _, e => ∃ place span,
      e = .index object (.number (Binary64.nearest false (Decimal.naturalOf cs) 1) place) false span
  | key _ cs _ _, e => ∃ place span, e = .index object (.string (String.ofList cs) place) false span

/-- A tree is a name with members and literal indices that steps spell, the first one innermost. -/
inductive Chain (root : String) : List AddressStep → Expr → Prop
  | root (span : Span) : Chain root [] (.name root span)
  | step {steps : List AddressStep} {step : AddressStep} {object e : Expr} :
      Chain root steps object → step.Extends object e → Chain root (steps ++ [step]) e

namespace Phrase

open Grammar (Spells SpellsAddress)

theorem buildLink_extends {depth : Nat} {base e : Expr} {step : AddressStep} {l : PhraseLink}
    (spells : Spells step l) (built : buildLink depth base l = .ok e) : step.Extends base e := by
  cases step with
  | name text spelled =>
    obtain ⟨span, rfl⟩ := spells
    cases built
    exact ⟨_, rfl⟩
  | digits cs spelled =>
    obtain ⟨span, rfl⟩ := spells
    cases built
    exact ⟨_, rfl⟩
  | index cs spelled =>
    obtain ⟨place, span, rfl⟩ := spells
    simp only [buildLink, build, Decimal.read?_digits spelled.1 spelled.2, Option.getD_some] at built
    cases built
    exact ⟨_, _, rfl⟩
  | key quote cs quotes plain =>
    obtain ⟨place, span, rfl⟩ := spells
    have decodes := Escape.decode?_of_plain fun c member => (plain c member).2.2
    simp only [buildLink, build, decoded, decodes] at built
    cases built
    exact ⟨_, _, rfl⟩

theorem buildLinks_chain {depth : Nat} {root : String} {steps : List AddressStep} {links : List PhraseLink}
    (spells : List.Forall₂ Spells steps links) {front : List AddressStep} {base e : Expr}
    (chain : Chain root front base) (built : buildLinks depth base links = .ok e) :
    Chain root (front ++ steps) e := by
  induction spells generalizing front base with
  | nil =>
    cases built
    rw [List.append_nil]
    exact chain
  | cons first _ ih =>
    rw [buildLinks] at built
    obtain ⟨next, linked, rest⟩ := bind_eq_ok.mp built
    rw [List.append_cons]
    exact ih (chain.step (buildLink_extends first linked)) rest

theorem build_chain {a : Address} {p : Phrase} (spells : SpellsAddress a p) {depth : Nat} {e : Expr}
    (built : build depth p = .ok e) : Chain a.root a.steps e := by
  obtain ⟨span, ⟨none', rfl⟩ | ⟨links, linked, _, rfl⟩⟩ := spells
  · cases built
    rw [none']
    exact .root span
  · rw [build] at built
    obtain ⟨below, _, rest⟩ := bind_eq_ok.mp built
    exact buildLinks_chain linked (.root span) rest

end Phrase

/-- An address that parses is the chain that its steps spell. -/
theorem Address.parse_chain (a : Address) {tree : Expr} (parsed : Expr.parse a.text = .ok tree) :
    Chain a.root a.steps tree := by
  have read := Expr.parse_eq_ok parsed
  rw [a.trim_text] at read
  obtain ⟨p, recognised, built⟩ := Expr.recognised_of_read read
  have enough : a.steps.length ≤ a.text.toList.length + 1 := by
    have bound := Grammar.length_le_textOf a.steps
    rw [a.toList_text, List.length_append]
    omega
  have room : ∃ allowance, a.text.toList.length + 1 = allowance + 2 := by
    have named := List.length_pos_iff.mpr a.spelled.ne_nil
    rw [a.toList_text, List.length_append]
    exact ⟨a.root.toList.length + (textOf a.steps).length - 1, by omega⟩
  obtain ⟨allowance, same⟩ := room
  have finds := Grammar.address_finds a allowance enough
  rw [← same, ← a.toList_text] at finds
  exact Phrase.build_chain (Grammar.good_of_recognise finds recognised) built

end StateScript
