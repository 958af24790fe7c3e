import StateScript.Proofs.Operands

/-!
Braces in expressions. Outside of quoted texts every closing brace of an expression has its opening brace
before it, so no expression ends where another one has a brace to close.
-/

namespace StateScript

/-- Where a scan for braces is: outside of quotes, between quotes, or behind a backslash there, with a
number of braces open. -/
inductive BraceScan where
  | outside (depth : Nat)
  | inside (quote : Char) (depth : Nat)
  | escaped (quote : Char) (depth : Nat)
  deriving DecidableEq, Repr

namespace BraceScan

/-- Whether a character means nothing to the scan. -/
def isPlain (c : Char) : Bool := c != '\'' && c != '"' && c != '\x7b' && c != '\x7d'

/-- One more character. A brace that closes nothing stops the scan. -/
def step : BraceScan → Char → Option BraceScan
  | escaped quote depth, _ => some (inside quote depth)
  | inside quote depth, c =>
    if c = quote then some (outside depth)
    else if c = '\\' then some (escaped quote depth)
    else some (inside quote depth)
  | outside depth, c =>
    if c = '\'' ∨ c = '"' then some (inside c depth)
    else if c = '\x7b' then some (outside (depth + 1))
    else if c = '\x7d' then
      match depth with
      | 0 => none
      | depth + 1 => some (outside depth)
    else some (outside depth)

def run (s : BraceScan) (cs : List Char) : Option BraceScan := cs.foldlM step s

@[simp] theorem run_nil (s : BraceScan) : s.run [] = some s := rfl

theorem run_cons (s : BraceScan) (c : Char) (cs : List Char) : s.run (c :: cs) = (s.step c).bind (run · cs) := rfl

theorem run_append (s : BraceScan) (a b : List Char) : s.run (a ++ b) = (s.run a).bind (run · b) :=
  List.foldlM_append

theorem step_plain (depth : Nat) {c : Char} (plain : isPlain c = true) :
    (outside depth).step c = some (outside depth) := by
  simp only [isPlain, Bool.and_eq_true, bne_iff_ne] at plain
  obtain ⟨⟨⟨single, double⟩, opens⟩, closes⟩ := plain
  simp [step, single, double, opens, closes]

/-- A quoted text ends at the quote that the scanner for quoted texts finds. -/
theorem run_inside {quote : Char} (protects : quote ≠ '\\') (depth : Nat) {cs : List Char} {n : Nat}
    (scan : Lexeme.quotedLength? quote cs = some n) :
    (inside quote depth).run (cs.take (n + 1)) = some (outside depth) := by
  induction cs using Lexeme.quotedLength?.induct quote generalizing n with
  | case1 => cases scan
  | case2 c rest ih =>
    simp only [Lexeme.quotedLength?] at scan
    obtain ⟨m, found, rfl⟩ := Option.map_eq_some_iff.mp scan
    have backslash : (inside quote depth).step '\\' = some (escaped quote depth) := by
      simp [step, protects.symm]
    rw [List.take_succ_cons, List.take_succ_cons, run_cons, backslash]
    exact ih found
  | case3 rest alone =>
    rw [Lexeme.quotedLength?.eq_3 _ _ _ alone, if_pos rfl] at scan
    cases scan
    simp [run_cons, step]
  | case4 rest alone differs =>
    rw [Lexeme.quotedLength?.eq_3 _ _ _ alone, if_neg differs, if_pos rfl] at scan
    cases scan
  | case5 c rest alone differs unescaped ih =>
    rw [Lexeme.quotedLength?.eq_3 _ _ _ alone, if_neg differs, if_neg unescaped] at scan
    obtain ⟨m, found, rfl⟩ := Option.map_eq_some_iff.mp scan
    have passed : (inside quote depth).step c = some (inside quote depth) := by
      simp [step, differs, unescaped]
    rw [List.take_succ_cons, run_cons, passed]
    exact ih found

end BraceScan

/-- A text takes a scan from some open braces to others, whatever is open around them. -/
def Shifts (before after : Nat) (cs : List Char) : Prop :=
  ∀ n, (BraceScan.outside (n + before)).run cs = some (.outside (n + after))

/-- A text that closes every brace that it opens, and no other. -/
def Balanced (cs : List Char) : Prop := Shifts 0 0 cs

section

variable {before between after : Nat} {a b cs : List Char}

theorem Shifts.append (first : Shifts before between a) (second : Shifts between after b) :
    Shifts before after (a ++ b) := by
  intro n
  rw [BraceScan.run_append, first n]
  exact second n

theorem Balanced.shifts (balanced : Balanced cs) (depth : Nat) : Shifts depth depth cs :=
  fun n => balanced (n + depth)

theorem Balanced.nil : Balanced [] := fun _ => rfl

theorem balanced_of_plain (plain : ∀ c ∈ cs, BraceScan.isPlain c = true) : Balanced cs := by
  induction cs with
  | nil => exact Balanced.nil
  | cons c rest ih =>
    intro n
    rw [BraceScan.run_cons, BraceScan.step_plain _ (plain c (List.mem_cons_self ..))]
    exact ih (fun d member => plain d (List.mem_cons_of_mem _ member)) n

theorem shifts_opening : Shifts 0 1 ['\x7b'] := fun _ => rfl

theorem shifts_closing : Shifts 1 0 ['\x7d'] := fun _ => rfl

/-- What stands before a brace that a balanced text has to close is not balanced. -/
theorem Balanced.not_before_closing (whole : Balanced (a ++ '\x7d' :: b)) : ¬ Balanced a := by
  intro front
  have stopped : (BraceScan.outside 0).run (a ++ '\x7d' :: b) = none := by
    rw [BraceScan.run_append, front 0]
    rfl
  rw [whole 0] at stopped
  cases stopped

end

namespace Lexeme

theorem isPlain_of_isNameChar {c : Char} (char : isNameChar c = true) : BraceScan.isPlain c = true := by
  have range := isNameChar_range char
  simp only [BraceScan.isPlain, Bool.and_eq_true, bne_iff_ne]
  refine ⟨⟨⟨?_, ?_⟩, ?_⟩, ?_⟩ <;> rintro rfl <;> simp at range

theorem isPlain_of_isNumberChar {c : Char} (char : isNumberChar c = true) : BraceScan.isPlain c = true := by
  simp only [isNumberChar, Bool.or_eq_true, beq_iff_eq] at char
  rcases char with ((((digit | rfl) | rfl) | rfl) | rfl) | rfl
  · exact isPlain_of_isNameChar (by simp [isNameChar, Char.isAlphanum, digit])
  all_goals rfl

theorem isPlain_of_isBlank {c : Char} (blank : isBlank c = true) : BraceScan.isPlain c = true := by
  simp only [isBlank, Bool.or_eq_true, beq_iff_eq] at blank
  rcases blank with ((rfl | rfl) | rfl) | rfl <;> rfl

theorem balanced_name {cs : List Char} {n : Nat} (scan : nameLength? cs = some n) : Balanced (cs.take n) := by
  apply balanced_of_plain
  intro c member
  have name := isName_of_nameLength? scan
  exact isPlain_of_isNameChar (name.chars c (by simpa using member))

theorem balanced_of_isNumberChar {cs : List Char} (chars : cs.all isNumberChar = true) : Balanced cs :=
  balanced_of_plain fun c member => isPlain_of_isNumberChar (List.all_eq_true.mp chars c member)

end Lexeme

namespace Grammar

section

variable {α β : Type} {rule other : Recogniser α} {next : α → Recogniser β} {before between after : Nat}

/-- Whatever a rule passes takes a scan from some open braces to others. -/
def Carries (before after : Nat) (rule : Recogniser α) : Prop :=
  ∀ cursor furthest found behind, (rule cursor furthest).1 = some (found, behind) →
    ∃ text, cursor.rest = text ++ behind.rest ∧ Shifts before after text

theorem Carries.level (carries : Carries 0 0 rule) (depth : Nat) : Carries depth depth rule := by
  intro cursor furthest found behind given
  obtain ⟨text, split, balanced⟩ := carries cursor furthest found behind given
  exact ⟨text, split, Balanced.shifts balanced depth⟩

theorem Carries.pure (a : α) : Carries before before (Pure.pure a) := by
  intro cursor furthest found behind given
  cases given
  exact ⟨[], rfl, Balanced.shifts Balanced.nil before⟩

theorem Carries.get : Carries before before (get : Recogniser Cursor) := by
  intro cursor furthest found behind given
  cases given
  exact ⟨[], rfl, Balanced.shifts Balanced.nil before⟩

theorem Carries.failure : Carries before after (failure : Recogniser α) := by
  intro cursor furthest found behind given
  cases given

theorem Carries.bind (first : Carries before between rule) (rest : ∀ a, Carries between after (next a)) :
    Carries before after (rule >>= next) := by
  intro cursor furthest b behind given
  obtain ⟨a, middle, later, here, there⟩ := found_of_bind given
  obtain ⟨front, passed, shifts⟩ := first cursor furthest a middle here
  obtain ⟨back, left, shifts'⟩ := rest a middle later b behind there
  exact ⟨front ++ back, by rw [passed, left, List.append_assoc], shifts.append shifts'⟩

theorem Carries.orElse (first : Carries before after rule) (second : Carries before after other) :
    Carries before after (rule <|> other) := by
  intro cursor furthest a behind given
  rcases found_of_orElse given with here | ⟨later, there⟩
  · exact first cursor furthest a behind here
  · exact second cursor later a behind there

theorem Carries.named (inner : Carries before after rule) : Carries before after (named rule) :=
  fun cursor furthest a behind given => inner cursor furthest a behind (found_of_named given)

theorem Carries.firstOf {rules : List (Recogniser α)} (each : ∀ rule ∈ rules, Carries before after rule) :
    Carries before after (firstOf rules) := by
  induction rules with
  | nil => exact Carries.failure
  | cons rule rest ih =>
    exact Carries.orElse (each rule (List.mem_cons_self ..))
      (ih fun other member => each other (List.mem_cons_of_mem _ member))

theorem Carries.optional (inner : Carries 0 0 rule) : Carries 0 0 (optional rule) := by
  apply Carries.orElse
  · rw [map_eq_pure_bind]
    exact inner.bind fun _ => Carries.pure _
  · exact Carries.pure _

theorem Carries.many (each : Carries 0 0 rule) (limit : Nat) : Carries 0 0 (many limit rule) := by
  induction limit with
  | zero => exact Carries.pure _
  | succ limit ih =>
    exact Carries.orElse (each.bind fun _ => ih.bind fun _ => Carries.pure _) (Carries.pure _)

/-- Blanks behind a word change nothing. -/
theorem Carries.taken {n : Nat} {cursor behind : Cursor} {furthest : Place} {found : List Char × Span}
    (shifts : Shifts before after (cursor.rest.take n))
    (given : (taken n cursor furthest).1 = some (found, behind)) :
    ∃ text, cursor.rest = text ++ behind.rest ∧ Shifts before after text := by
  have left : behind.rest = (cursor.rest.drop n).dropWhile Lexeme.isBlank := by
    cases given
    rw [Cursor.skipBlanks_rest, Cursor.advance_rest]
  refine ⟨cursor.rest.take n ++ (cursor.rest.drop n).takeWhile Lexeme.isBlank, ?_, shifts.append ?_⟩
  · rw [left, List.append_assoc, List.takeWhile_append_dropWhile, List.take_append_drop]
  · refine Balanced.shifts (balanced_of_plain fun c member => ?_) after
    exact Lexeme.isPlain_of_isBlank (List.all_eq_true.mp List.all_takeWhile c member)

theorem Carries.word {expected : List Char} (shifts : Shifts before after expected) :
    Carries before after (word expected) := by
  intro cursor furthest found behind given
  obtain ⟨present, cs, front⟩ := taken_of_word given
  exact Carries.taken (List.prefix_iff_eq_take.mp present ▸ shifts) front

theorem Carries.plainWord {expected : List Char} (plain : expected.all BraceScan.isPlain = true) :
    Carries before before (Grammar.word expected) :=
  Carries.word (Balanced.shifts (balanced_of_plain (List.all_eq_true.mp plain)) before)

theorem Carries.scanned {length? : List Char → Option Nat}
    (balanced : ∀ cs n, length? cs = some n → Balanced (cs.take n)) : Carries 0 0 (scanned length?) := by
  intro cursor furthest found behind given
  obtain ⟨n, scan, front⟩ := taken_of_scanned given
  exact Carries.taken (balanced cursor.rest n scan) front

theorem Carries.separated (each : Carries 0 0 rule) (limit : Nat) : Carries 0 0 (separated limit rule) := by
  refine each.optional.bind fun first => ?_
  cases first with
  | none => exact Carries.pure _
  | some a =>
    have comma : Carries 0 0 (Grammar.word [',']) := Carries.plainWord rfl
    exact ((comma.bind fun _ => each).many limit).bind fun _ => Carries.pure _

end

theorem nameSuchThat_carries (accepts : String → Bool) : Carries 0 0 (nameSuchThat accepts) := by
  refine (Carries.scanned fun _ _ => Lexeme.balanced_name).bind fun found => ?_
  show Carries 0 0 (if accepts (String.ofList found.1) then _ else _)
  split
  · exact Carries.pure _
  · exact Carries.failure

theorem keyword_carries (expected : String) : Carries 0 0 (keyword expected) :=
  (nameSuchThat_carries _).bind fun _ => Carries.pure _

theorem propertyName_carries : Carries 0 0 propertyName := (nameSuchThat_carries _).named

theorem indexDigits_carries : Carries 0 0 indexDigits := by
  refine Carries.named ((Carries.scanned fun cs n scan => ?_).bind fun _ => Carries.pure _)
  split at scan
  · cases scan
  · cases scan
    exact Lexeme.balanced_of_isNumberChar (Lexeme.all_take_digitsLength cs)

theorem quoted_carries : Carries 0 0 quoted := by
  refine Carries.named ((Carries.scanned fun cs n scan => ?_).bind fun _ => Carries.pure _)
  split at scan
  · rename_i quote rest
    split at scan
    · rename_i quotes
      obtain ⟨m, found, rfl⟩ := Option.map_eq_some_iff.mp scan
      have protects : quote ≠ '\\' := by rcases quotes with rfl | rfl <;> decide
      have opens (depth : Nat) : (BraceScan.outside depth).step quote = some (.inside quote depth) := by
        simp [BraceScan.step, quotes]
      intro depth
      rw [List.take_succ_cons, BraceScan.run_cons, opens]
      exact BraceScan.run_inside protects _ found
    · cases scan
  · cases scan

theorem unaryOperator_carries : Carries 0 0 unaryOperator := by
  apply Carries.firstOf
  simp only [List.forall_mem_cons]
  refine ⟨?_, ?_, ?_, ((keyword_carries _).bind fun _ => Carries.pure _).named, by simp⟩
  all_goals exact ((Carries.plainWord rfl).bind fun _ => Carries.pure _).named

theorem questionMark_carries : Carries 0 0 questionMark := by
  intro cursor furthest found behind given
  obtain ⟨_, ⟨rest, stands⟩, mark, front⟩ := taken_of_questionMark given
  refine Carries.taken (balanced_of_plain ?_) front
  simp [stands, BraceScan.isPlain]

section

variable {limit : Nat} {expression : Recogniser Phrase} (inner : Carries 0 0 expression)

include inner

theorem listLiteral_carries : Carries 0 0 (listLiteral limit expression) := by
  refine Carries.named (Carries.get.bind fun _ => (Carries.plainWord rfl).bind fun _ => ?_)
  refine (inner.separated limit).bind fun _ => (Carries.plainWord rfl).optional.bind fun _ => ?_
  exact (Carries.plainWord rfl).bind fun _ => Carries.pure _

theorem property_carries : Carries 0 0 (property expression) := by
  refine Carries.named (Carries.bind (?key : Carries 0 0 _) fun found => ?value)
  case key =>
    have bare := propertyName_carries.bind fun found => Carries.pure (PhraseKey.plain found.1)
    exact bare.orElse (quoted_carries.bind fun _ => Carries.pure _)
  case value => exact (Carries.plainWord rfl).bind fun _ => inner.bind fun _ => Carries.pure _

/-- The one place where braces stand outside of quotes. -/
theorem recordLiteral_carries : Carries 0 0 (recordLiteral limit expression) := by
  refine Carries.named (Carries.get.bind fun _ => (Carries.word shifts_opening).bind fun _ => ?_)
  refine (((property_carries inner).separated limit).level 1).bind fun _ => ?_
  refine ((Carries.plainWord rfl).optional.level 1).bind fun _ => ?_
  exact (Carries.word shifts_closing).bind fun _ => Carries.pure _

theorem primary_carries : Carries 0 0 (primary limit expression) := by
  have parenthesised : Carries 0 0 (do
      let _ ← word ['(']
      let inner ← expression
      let _ ← word [')']
      return inner) :=
    (Carries.plainWord rfl).bind fun _ => inner.bind fun _ => (Carries.plainWord rfl).bind fun _ =>
      Carries.pure _
  apply Carries.firstOf
  simp only [List.forall_mem_cons]
  refine ⟨?number, quoted_carries.bind fun _ => Carries.pure _, ?yes, ?no, ?null, ?undefined,
    listLiteral_carries inner, recordLiteral_carries inner, ?name, parenthesised, by simp⟩
  case number =>
    refine Carries.named ((Carries.scanned fun cs n scan => ?_).bind fun _ => Carries.pure _)
    exact Lexeme.balanced_of_isNumberChar (Lexeme.all_take_numberLength scan)
  case name => exact (nameSuchThat_carries _).named.bind fun _ => Carries.pure _
  all_goals exact Carries.named ((keyword_carries _).bind fun _ => Carries.pure _)

theorem link_carries : Carries 0 0 (link limit expression) := by
  have index (opening : List Char) (plain : opening.all BraceScan.isPlain = true) (optional : Bool) :
      Carries 0 0 (named do
        let start := (← get).place
        let _ ← word opening
        let key ← expression
        let close ← word [']']
        return PhraseLink.index key optional ⟨start, close.stop⟩) :=
    Carries.named (Carries.get.bind fun _ => (Carries.plainWord plain).bind fun _ => inner.bind fun _ =>
      (Carries.plainWord rfl).bind fun _ => Carries.pure _)
  apply Carries.firstOf
  simp only [List.forall_mem_cons]
  refine ⟨index _ rfl _, ?optionalMember, ?member, index _ rfl _, ?call, by simp⟩
  case optionalMember =>
    exact Carries.named (Carries.get.bind fun _ => (Carries.plainWord rfl).bind fun _ =>
      propertyName_carries.bind fun _ => Carries.pure _)
  case member =>
    exact Carries.named (Carries.get.bind fun _ => (Carries.plainWord rfl).bind fun _ =>
      (propertyName_carries.orElse indexDigits_carries).bind fun _ => Carries.pure _)
  case call =>
    exact Carries.named (Carries.get.bind fun _ => (Carries.plainWord rfl).bind fun _ =>
      (inner.separated limit).bind fun _ => (Carries.plainWord rfl).bind fun _ => Carries.pure _)

theorem linked_carries : Carries 0 0 (linked limit expression) := by
  refine Carries.named ((primary_carries inner).bind fun _ => ((link_carries inner).many limit).bind fun _ => ?_)
  split <;> exact Carries.pure _

theorem signed_carries : Carries 0 0 (signed limit expression) := by
  refine Carries.named ((unaryOperator_carries.many limit).bind fun _ => ?_)
  split
  · exact linked_carries inner
  · exact (linked_carries inner).bind fun _ => Carries.pure _

theorem chain_carries (given : List (List (String × InfixOp))) (listed : given ⊆ levels) :
    Carries 0 0 (chain limit expression given) := by
  induction given with
  | nil => exact signed_carries inner
  | cons level tighter ih =>
    have tight := ih fun _ member => listed (List.mem_cons_of_mem _ member)
    have symbols : ∀ level ∈ levels, ∀ entry ∈ level, entry.1.toList.all BraceScan.isPlain = true := by decide
    have operators : ∀ rule ∈ level.map fun entry => operator entry.1 entry.2, Carries 0 0 rule := by
      intro rule member
      obtain ⟨entry, one, rfl⟩ := List.mem_map.mp member
      have plain := symbols level (listed (List.mem_cons_self ..)) entry one
      exact Carries.named ((Carries.plainWord plain).bind fun _ => Carries.pure _)
    refine Carries.named (tight.bind fun _ => ?_)
    refine (((Carries.firstOf operators).bind fun _ => tight.bind fun _ => Carries.pure _).many limit).bind
      fun _ => ?_
    split <;> exact Carries.pure _

theorem conditional_carries : Carries 0 0 (conditional limit expression) := by
  refine Carries.named (Carries.get.bind fun _ => (chain_carries inner levels (List.Subset.refl _)).bind fun _ => ?_)
  refine (Carries.optional (questionMark_carries.bind fun _ => inner.bind fun _ =>
    (Carries.plainWord rfl).bind fun _ => inner.bind fun _ => Carries.pure _)).bind fun branches => ?_
  split
  · exact Carries.pure _
  · exact Carries.get.bind fun _ => Carries.pure _

end

theorem expression_carries (limit allowance : Nat) : Carries 0 0 (expression limit allowance) := by
  induction allowance with
  | zero => exact Carries.failure
  | succ allowance ih => exact conditional_carries ih

/-- The grammar recognises balanced texts only. -/
theorem recognise_balanced {allowance : Nat} {cs : List Char} {p : Phrase}
    (recognised : recognise allowance cs = .ok p) : Balanced cs := by
  obtain ⟨place, found⟩ := expression_of_recognise recognised
  obtain ⟨text, passed, balanced⟩ := expression_carries _ _ _ _ _ _ found
  obtain rfl : cs = text := by simpa [Cursor.ofText] using passed
  exact balanced

end Grammar

namespace Expr

theorem read_balanced {cs : List Char} {tree : Expr} (parsed : read cs = .ok tree) : Balanced cs := by
  obtain ⟨phrase, recognised, _⟩ := recognised_of_read parsed
  exact Grammar.recognise_balanced recognised

end Expr

end StateScript
