import StateScript.Expr.Reader
import StateScript.Proofs.Formulas

/-!
Formulas are read as they were written. Each rule of the grammar finds a formula of its level up to a token that it
does not continue with, and the phrases that it finds are built into the tree of the formula.
-/

namespace StateScript

namespace Formula

/-- A phrase is built into the tree of a formula, wherever there is room for the nodes of the formula. -/
def Builds (t : Formula) (p : Phrase) : Prop :=
  ∀ depth, depth + t.size ≤ maxNesting + 1 → ∃ e, p.build depth = .ok e ∧ t.Shapes e

/-- Operands joined one after the other, the first ones innermost. -/
def joinAll (first : Formula) (links : List (InfixOp × Formula)) : Formula :=
  links.foldl (fun left link => joined link.1 left link.2) first

theorem deeper_eq_ok {depth levels : Nat} (within : depth + levels ≤ maxNesting) :
    Phrase.deeper depth levels = .ok (depth + levels) := if_neg (Nat.not_lt.mpr within)

theorem builds_choice {test consequent alternate : Formula} {p q r : Phrase} (first : test.Builds p)
    (second : consequent.Builds q) (third : alternate.Builds r) (span : Span) :
    (choice test consequent alternate).Builds (.choice p q r span) := by
  intro depth within
  have positive := test.size_pos
  simp only [size] at within
  obtain ⟨a, builtA, shapesA⟩ := first (depth + 1) (by omega)
  obtain ⟨b, builtB, shapesB⟩ := second (depth + 1) (by omega)
  obtain ⟨c, builtC, shapesC⟩ := third (depth + 1) (by omega)
  refine ⟨.ternary a b c span, ?_, shapesA, shapesB, shapesC⟩
  rw [Phrase.build, deeper_eq_ok (by omega)]
  simp only [bind, Except.bind, builtA, builtB, builtC]
  rfl

theorem shapes_signedNode {core : Formula} {e : Expr} (shapes : core.Shapes e) {signs : List UnaryOp}
    {ops : List (UnaryOp × Span)} (same : List.Forall₂ (fun op found => found.1 = op) signs ops) :
    (signs.foldr signed core).Shapes (Phrase.signedNode ops e) := by
  induction same with
  | nil => exact shapes
  | cons first _ ih => exact ⟨first, ih⟩

theorem size_foldr_signed (signs : List UnaryOp) (core : Formula) :
    (signs.foldr signed core).size = signs.length + core.size := by
  induction signs with
  | nil => exact (Nat.zero_add _).symm
  | cons op more ih =>
    rw [List.foldr_cons, size, ih, List.length_cons]
    omega

theorem builds_signed {core : Formula} {p : Phrase} (operand : core.Builds p) {signs : List UnaryOp}
    {ops : List (UnaryOp × Span)} (same : List.Forall₂ (fun op found => found.1 = op) signs ops) :
    (signs.foldr signed core).Builds (.signed ops p) := by
  intro depth within
  have positive := core.size_pos
  rw [size_foldr_signed, same.length_eq] at within
  obtain ⟨e, built, shapes⟩ := operand (depth + ops.length) (by omega)
  refine ⟨Phrase.signedNode ops e, ?_, shapes_signedNode shapes same⟩
  rw [Phrase.build, deeper_eq_ok (by omega)]
  simp only [bind, Except.bind, built]
  rfl

theorem shapes_infixNode (op : InfixOp) {left right : Formula} {a b : Expr} (first : left.Shapes a)
    (second : right.Shapes b) : (joined op left right).Shapes (Phrase.infixNode op a b) := by
  cases op <;> exact ⟨rfl, first, second⟩

/-- What the grammar makes of an operator with the operand behind it. -/
def LinkBuilds (link : InfixOp × Formula) (found : InfixOp × Phrase) : Prop :=
  found.1 = link.1 ∧ link.2.Builds found.2

theorem size_joinAll (first : Formula) (links : List (InfixOp × Formula)) :
    (joinAll first links).size = first.size + links.length + (links.map fun link => link.2.size).sum := by
  induction links generalizing first with
  | nil => rfl
  | cons link more ih =>
    show (joinAll (joined link.1 first link.2) more).size = _
    rw [ih, List.map_cons, List.sum_cons, List.length_cons, size]
    omega

theorem buildChain_shapes {links : List (InfixOp × Formula)} {found : List (InfixOp × Phrase)}
    (each : List.Forall₂ LinkBuilds links found) {depth : Nat}
    (within : ∀ link ∈ links, depth + link.2.size ≤ maxNesting + 1) {left : Formula} {e : Expr}
    (shapes : left.Shapes e) : ∃ e', Phrase.buildChain depth e found = .ok e' ∧ (joinAll left links).Shapes e' := by
  induction each generalizing left e with
  | nil => exact ⟨e, rfl, shapes⟩
  | @cons link entry links found first _ ih =>
    obtain ⟨op, p⟩ := entry
    obtain ⟨rfl, builds⟩ := first
    obtain ⟨right, built, shapesRight⟩ := builds depth (within link (List.mem_cons_self ..))
    obtain ⟨e', rest, done⟩ := ih (fun other member => within other (List.mem_cons_of_mem _ member))
      (shapes_infixNode link.1 shapes shapesRight)
    refine ⟨e', ?_, done⟩
    rw [Phrase.buildChain, built]
    exact rest

theorem builds_chain {first : Formula} {p : Phrase} (operand : first.Builds p) {links : List (InfixOp × Formula)}
    {found : List (InfixOp × Phrase)} (each : List.Forall₂ LinkBuilds links found) :
    (joinAll first links).Builds (.chain p found) := by
  intro depth within
  have positive := first.size_pos
  have same := each.length_eq
  have part : ∀ link ∈ links, link.2.size ≤ (links.map fun link => link.2.size).sum := fun link member =>
    List.single_le_sum (fun _ _ => Nat.zero_le _) _ (List.mem_map_of_mem member)
  rw [size_joinAll, same] at within
  obtain ⟨e, built, shapes⟩ := operand (depth + found.length) (by omega)
  have deep : ∀ link ∈ links, depth + found.length + link.2.size ≤ maxNesting + 1 := by
    intro link member
    have bound := part link member
    omega
  obtain ⟨e', rest, done⟩ := buildChain_shapes each deep shapes
  refine ⟨e', ?_, done⟩
  rw [Phrase.build, deeper_eq_ok (by omega)]
  simp only [bind, Except.bind, built]
  exact rest

end Formula

namespace Grammar

open Formula (Builds joinAll LinkBuilds)

section

variable {t : Token} {more : List Token} {gaps : Stream' Gap}

theorem endsName_behind (more : List Token) (gaps : Stream' Gap) :
    ∀ c ∈ (behind more gaps).head?, Lexeme.isNameChar c = false := by
  intro c first
  have blank := isBlank_of_behind more gaps c first
  simp only [Lexeme.isBlank, Bool.or_eq_true, beq_iff_eq] at blank
  rcases blank with ((rfl | rfl) | rfl) | rfl <;> rfl

theorem token_finds (t : Token) (more : List Token) (gaps : Stream' Gap) :
    Finds (word t.chars) (spell (t :: more) gaps) (fun _ => True) (spell more gaps.tail) := by
  have found := Finds.word t.chars (behind more gaps)
  rwa [dropWhile_behind, ← spell_cons] at found

/-- A word that is not the front of a token is not found where the token stands. -/
theorem token_refuses {expected : List Char} (visible : expected.all (!Lexeme.isBlank ·) = true)
    (absent : ¬ expected <+: t.chars) : Refuses (word expected) (spell (t :: more) gaps) := by
  refine Refuses.word fun here => absent (front_of_spell (fun c member => ?_) here)
  simpa using List.all_eq_true.mp visible c member

theorem unaryOperator_finds (op : UnaryOp) (more : List Token) (gaps : Stream' Gap) :
    Finds unaryOperator (spell (.sign op :: more) gaps) (fun found => found.1 = op) (spell more gaps.tail) := by
  have refuses {expected : List Char} (visible : expected.all (!Lexeme.isBlank ·) = true)
      (absent : ¬ expected <+: (Token.sign op).chars) : Refuses (word expected) (spell (.sign op :: more) gaps) :=
    token_refuses visible absent
  have found := token_finds (.sign op) more gaps
  cases op with
  | not =>
    refine Finds.orElse (Finds.named (found.bind fun _ _ => ?_)) _
    exact Finds.pure rfl
  | neg =>
    refine Refuses.orElse_finds (Refuses.named (refuses rfl (by decide)).bind) ?_
    refine Finds.orElse (Finds.named (found.bind fun _ _ => ?_)) _
    exact Finds.pure rfl
  | plus =>
    refine Refuses.orElse_finds (Refuses.named (refuses rfl (by decide)).bind) ?_
    refine Refuses.orElse_finds (Refuses.named (refuses rfl (by decide)).bind) ?_
    refine Finds.orElse (Finds.named (found.bind fun _ _ => ?_)) _
    exact Finds.pure rfl
  | typeof =>
    have spelled : Lexeme.IsName "typeof" := ⟨'t', ['y', 'p', 'e', 'o', 'f'], rfl, rfl, by simp [Lexeme.isNameChar]⟩
    have name : Finds (nameSuchThat (· == "typeof")) _ _ _ := nameSuchThat_finds spelled
      (endsName_behind more gaps) rfl
    refine Refuses.orElse_finds (Refuses.named (refuses rfl (by decide)).bind) ?_
    refine Refuses.orElse_finds (Refuses.named (refuses rfl (by decide)).bind) ?_
    refine Refuses.orElse_finds (Refuses.named (refuses rfl (by decide)).bind) ?_
    rw [dropWhile_behind] at name
    rw [spell_cons]
    have keyword : Finds (keyword "typeof") _ (fun _ => True) _ := name.bind fun _ _ => Finds.pure trivial
    refine Finds.orElse (Finds.named (keyword.bind fun _ _ => ?_)) _
    exact Finds.pure rfl

theorem unaryOperator_refuses_opening : Refuses unaryOperator (spell (.opening :: more) gaps) := by
  have refuses {expected : List Char} (visible : expected.all (!Lexeme.isBlank ·) = true)
      (absent : ¬ expected <+: Token.opening.chars) : Refuses (word expected) (spell (.opening :: more) gaps) :=
    token_refuses visible absent
  apply Refuses.firstOf
  simp only [List.forall_mem_cons]
  refine ⟨Refuses.named (refuses rfl (by decide)).bind, Refuses.named (refuses rfl (by decide)).bind,
    Refuses.named (refuses rfl (by decide)).bind, ?_, by simp⟩
  rw [spell_cons]
  exact Refuses.named (Refuses.nameSuchThat _ rfl).bind.bind

/-- An expression in parentheses is an operand. -/
theorem primary_finds_opening (limit : Nat) {expression : Recogniser Phrase} {good : Phrase → Prop}
    {inner : List Token} {ahead : Stream' Gap}
    (found : Finds expression (spell inner gaps.tail) good (spell (.closing :: more) ahead)) :
    Finds (primary limit expression) (spell (.opening :: inner) gaps) good (spell more ahead.tail) := by
  have refuses {expected : List Char} (visible : expected.all (!Lexeme.isBlank ·) = true)
      (absent : ¬ expected <+: Token.opening.chars) : Refuses (word expected) (spell (.opening :: inner) gaps) :=
    token_refuses visible absent
  have unnamed : Lexeme.nameLength? (spell (.opening :: inner) gaps) = none := by rw [spell_cons]; rfl
  have unnumbered : Lexeme.numberLength? (spell (.opening :: inner) gaps) = none := by rw [spell_cons]; rfl
  have unquoted : Refuses quoted (spell (.opening :: inner) gaps) := by
    rw [spell_cons]
    exact Refuses.named (Refuses.scanned rfl).bind
  have keyword (expected : String) : Refuses (keyword expected) (spell (.opening :: inner) gaps) :=
    (Refuses.nameSuchThat _ unnamed).bind
  refine Refuses.orElse_finds (Refuses.named (Refuses.bind (Refuses.scanned unnumbered))) ?_
  refine Refuses.orElse_finds unquoted.bind ?_
  refine Refuses.orElse_finds (Refuses.named (keyword "true").bind) ?_
  refine Refuses.orElse_finds (Refuses.named (keyword "false").bind) ?_
  refine Refuses.orElse_finds (Refuses.named (keyword "null").bind) ?_
  refine Refuses.orElse_finds (Refuses.named (keyword "undefined").bind) ?_
  refine Refuses.orElse_finds (Refuses.named (Finds.get.refuses fun _ _ => (refuses rfl (by decide)).bind)) ?_
  refine Refuses.orElse_finds (Refuses.named (Finds.get.refuses fun _ _ => (refuses rfl (by decide)).bind)) ?_
  refine Refuses.orElse_finds (Refuses.named (Refuses.nameSuchThat _ unnamed)).bind ?_
  refine Finds.orElse ((token_finds .opening inner gaps).bind fun _ _ => found.bind fun p holds => ?_) _
  exact (token_finds .closing more ahead).bind fun _ _ => Finds.pure holds

/-- Where a formula of a level ends: no token that continues it follows. -/
def Stops (k : Nat) : List Token → Prop
  | [] | .closing :: _ | .colon :: _ => True
  | .question :: _ => 0 < k
  | .operator op :: _ => op.level < k
  | _ => False

theorem Stops.mono {k m : Nat} (stops : Stops k more) (tighter : k ≤ m) : Stops m more := by
  unfold Stops at stops ⊢
  split at stops <;> first | trivial | exact Nat.lt_of_lt_of_le stops tighter

theorem Stops.link_refuses {limit : Nat} {expression : Recogniser Phrase} (stops : Stops 8 more) :
    Refuses (link limit expression) (spell more gaps) := by
  refine Grammar.link_refuses fun expected member here => ?_
  have visible : ∀ expected ∈ linkWords, ∀ c ∈ expected, Lexeme.isBlank c = false := by
    simp [linkWords, Lexeme.isBlank]
  cases more with
  | nil =>
    obtain rfl := List.prefix_nil.mp here
    exact absurd member (by decide)
  | cons t rest =>
    have front := front_of_spell (visible expected member) here
    have absent : ∀ t : Token, Stops 8 (t :: rest) → ∀ expected ∈ linkWords, ¬ expected <+: t.chars := by
      intro t stops
      cases t with
      | name => cases stops
      | sign => cases stops
      | opening => cases stops
      | operator op => rcases op with op | op <;> cases op <;> decide
      | _ => decide
    exact absent t stops expected member front

/-- The operators of a level, as they are written. -/
def Level (k : Nat) (level : List (String × InfixOp)) : Prop :=
  (∀ entry ∈ level, entry.2.level = k ∧ entry.1 = entry.2.symbol) ∧
    ∀ op : InfixOp, op.level = k →
      level.find? (fun entry => entry.1.toList.isPrefixOf op.symbol.toList) = some (op.symbol, op)

theorem symbol_not_front {op other : InfixOp} (looser : other.level < op.level) :
    ¬ op.symbol.toList <+: other.symbol.toList := by
  rcases op with op | op <;> rcases other with other | other <;> cases op <;> cases other <;>
    first | exact absurd looser (by decide) | decide

theorem visible_symbol (op : InfixOp) : ∀ c ∈ op.symbol.toList, Lexeme.isBlank c = false :=
  fun _ member => Token.not_isBlank (t := .operator op) member

theorem Stops.operators_absent {k : Nat} {level : List (String × InfixOp)} (own : Level k level)
    (stops : Stops k more) : ∀ entry ∈ level, ¬ entry.1.toList <+: spell more gaps := by
  intro entry member here
  obtain ⟨leveled, spelled⟩ := own.1 entry member
  rw [spelled] at here
  clear spelled
  obtain ⟨_, op⟩ := entry
  cases more with
  | nil => exact (Token.operator op).chars_ne_nil (List.prefix_nil.mp here)
  | cons t rest =>
    have front := front_of_spell (visible_symbol op) here
    cases t with
    | name => cases stops
    | sign => cases stops
    | opening => cases stops
    | operator other => exact symbol_not_front (Nat.lt_of_lt_of_eq stops leveled.symm) front
    | _ =>
      revert front
      rcases op with op | op <;> cases op <;> decide

/-- The longer operators of a level come first, so the one that stands there is found. -/
theorem operator_finds {level : List (String × InfixOp)} (own : ∀ entry ∈ level, entry.1 = entry.2.symbol)
    (op : InfixOp) (more : List Token) (gaps : Stream' Gap)
    (first : level.find? (fun entry => entry.1.toList.isPrefixOf op.symbol.toList) = some (op.symbol, op)) :
    Finds (firstOf (level.map fun entry => operator entry.1 entry.2)) (spell (.operator op :: more) gaps) (· = op)
      (spell more gaps.tail) := by
  induction level with
  | nil => cases first
  | cons entry rest ih =>
    rw [List.find?_cons] at first
    split at first
    · cases first
      refine Finds.orElse (Finds.named ((token_finds (.operator op) more gaps).bind fun _ _ => ?_)) _
      exact Finds.pure rfl
    · rename_i elsewhere
      have here : ¬ entry.1.toList.isPrefixOf op.symbol.toList = true := by simp [elsewhere]
      refine Refuses.orElse_finds (Refuses.named (Refuses.bind (Refuses.word fun stands => here ?_)))
        (ih (fun other member => own other (List.mem_cons_of_mem _ member)) first)
      have visible : ∀ c ∈ entry.1.toList, Lexeme.isBlank c = false := by
        rw [own entry (List.mem_cons_self ..)]
        exact visible_symbol entry.2
      exact List.isPrefixOf_iff_prefix.mpr (front_of_spell visible stands)

end

/-- A rule finds every formula of a level and of a bounded number of tokens, up to where it ends. -/
def Reads (bound : Nat) (rule : Recogniser Phrase) (k : Nat) : Prop :=
  ∀ (t : Formula) (more : List Token) (gaps : Stream' Gap), (t.tokensAt k).length ≤ bound → Stops k more →
    Finds rule (spell (t.tokensAt k ++ more) gaps) t.Builds (spell more (gaps.drop (t.tokensAt k).length))

section

variable {bound limit : Nat} {expression : Recogniser Phrase}

theorem linked_reads (limit : Nat) (inner : Reads bound expression 0) :
    Reads (bound + 2) (linked limit expression) 8 := by
  intro t more gaps short stops
  refine linked_finds ?_ stops.link_refuses
  have enclosed (tight : t.level < 8) : Finds (primary limit expression) (spell (t.tokensAt 8 ++ more) gaps)
      t.Builds (spell more (gaps.drop (t.tokensAt 8).length)) := by
    rw [t.tokensAt_of_lt tight (Nat.le_refl 8)] at short ⊢
    have length : t.tokens.length ≤ bound := by simpa using short
    have found := primary_finds_opening limit (inner t (.closing :: more) gaps.tail length trivial)
    simpa [Formula.tokens] using found
  cases t with
  | name id =>
    have found := primary_finds_name id.spelled (endsName_behind more gaps) id.free limit expression
    have front : spell (.name id :: more) gaps = id.text.toList ++ behind more gaps := spell_cons ..
    rw [dropWhile_behind, ← front] at found
    refine found.mono ?_
    rintro p ⟨span, rfl⟩ depth _
    exact ⟨.name id.text span, rfl, rfl⟩
  | signed op operand => exact enclosed (Nat.lt_succ_self 7)
  | joined op left right => exact enclosed (Nat.lt_of_le_of_lt op.level_range.2 (by decide))
  | choice test consequent alternate => exact enclosed (Nat.succ_pos 7)

theorem operand_unsigned (t : Formula) (more : List Token) (gaps : Stream' Gap) :
    Refuses unaryOperator (spell (t.tokensAt 8 ++ more) gaps) := by
  have enclosed (tight : t.level < 8) : Refuses unaryOperator (spell (t.tokensAt 8 ++ more) gaps) := by
    rw [t.tokensAt_of_lt tight (Nat.le_refl 8)]
    exact unaryOperator_refuses_opening
  cases t with
  | name id =>
    have front : spell (.name id :: more) gaps = id.text.toList ++ behind more gaps := spell_cons ..
    have unsigned := unaryOperator_refuses_name id.spelled (endsName_behind more gaps) id.free
    rwa [← front] at unsigned
  | signed op operand => exact enclosed (Nat.lt_succ_self 7)
  | joined op left right => exact enclosed (Nat.lt_of_le_of_lt op.level_range.2 (by decide))
  | choice test consequent alternate => exact enclosed (Nat.succ_pos 7)

theorem signs_find (signs : List UnaryOp) {more : List Token} (gaps : Stream' Gap) (room : Nat)
    (enough : signs.length ≤ room) (unsigned : ∀ gaps, Refuses unaryOperator (spell more gaps)) :
    Finds (many room unaryOperator) (spell (signs.map .sign ++ more) gaps)
      (List.Forall₂ (fun op found => found.1 = op) signs) (spell more (gaps.drop signs.length)) := by
  induction signs generalizing gaps room with
  | nil => exact (unsigned gaps).many_nil room
  | cons op rest ih =>
    obtain ⟨room, rfl⟩ := Nat.exists_eq_add_of_le' (Nat.lt_of_lt_of_le (Nat.succ_pos _) enough)
    exact (unaryOperator_finds op _ gaps).many_cons (ih gaps.tail room (by simpa using enough))

theorem signed_reads (enough : bound ≤ limit) (operand : Reads bound (linked limit expression) 8) :
    Reads bound (signed limit expression) 7 := by
  intro t more gaps short stops
  obtain ⟨signs, core, rfl, written⟩ := t.exists_signs
  rw [written] at short ⊢
  rw [List.length_append, List.length_map] at short
  have signs' := signs_find signs gaps limit (by omega) (operand_unsigned core more)
  have found := operand core more (gaps.drop signs.length) (by omega) (stops.mono (by decide))
  rw [Stream'.drop_drop] at found
  rw [List.append_assoc, List.length_append, List.length_map]
  refine Finds.named (signs'.bind fun ops same => ?_)
  cases ops with
  | nil =>
    obtain rfl := List.forall₂_nil_right_iff.mp same
    exact found
  | cons op rest => exact found.bind fun p builds => Finds.pure (Formula.builds_signed builds same)

/-- Operators of a level with the operands behind them. -/
def linkTokens (k : Nat) (links : List (InfixOp × Formula)) : List Token :=
  links.flatMap fun link => .operator link.1 :: link.2.tokensAt (k + 1)

theorem linkTokens_cons (k : Nat) (link : InfixOp × Formula) (links : List (InfixOp × Formula)) :
    linkTokens k (link :: links) = .operator link.1 :: (link.2.tokensAt (k + 1) ++ linkTokens k links) := rfl

theorem length_le_linkTokens (k : Nat) (links : List (InfixOp × Formula)) :
    links.length ≤ (linkTokens k links).length := by
  induction links with
  | nil => exact Nat.le_refl _
  | cons link rest ih =>
    rw [linkTokens_cons, List.length_cons, List.length_cons, List.length_append]
    omega

theorem Stops.linkTokens {k : Nat} {more : List Token} (stops : Stops k more) {links : List (InfixOp × Formula)}
    (leveled : ∀ link ∈ links, link.1.level = k) : Stops (k + 1) (linkTokens k links ++ more) := by
  cases links with
  | nil => exact stops.mono (Nat.le_succ k)
  | cons link rest => exact Nat.lt_succ_of_le (Nat.le_of_eq (leveled link (List.mem_cons_self ..)))

section

variable {k : Nat} {level : List (String × InfixOp)} {tighter : List (List (String × InfixOp))}
  (own : Level k level) (tight : Reads bound (chain limit expression tighter) (k + 1))

include own tight

theorem operations_find {links : List (InfixOp × Formula)} (leveled : ∀ link ∈ links, link.1.level = k)
    {more : List Token} (stops : Stops k more) (gaps : Stream' Gap) {room : Nat} (enough : links.length ≤ room)
    (short : (linkTokens k links).length ≤ bound) :
    Finds (many room do
        let op ← firstOf (level.map fun entry => operator entry.1 entry.2)
        return (op, ← chain limit expression tighter))
      (spell (linkTokens k links ++ more) gaps) (List.Forall₂ LinkBuilds links)
      (spell more (gaps.drop (linkTokens k links).length)) := by
  induction links generalizing gaps room with
  | nil =>
    have refuses : Refuses (firstOf (level.map fun entry => operator entry.1 entry.2)) (spell more gaps) :=
      operators_refuse (stops.operators_absent own)
    exact refuses.bind.many_nil room
  | cons link rest ih =>
    obtain ⟨room, rfl⟩ := Nat.exists_eq_add_of_le' (Nat.lt_of_lt_of_le (Nat.succ_pos _) enough)
    have leveledRest : ∀ link ∈ rest, link.1.level = k := fun other member =>
      leveled other (List.mem_cons_of_mem _ member)
    rw [linkTokens_cons, List.length_cons, List.length_append] at short
    have operator := operator_finds (fun entry member => (own.1 entry member).2) link.1
      (link.2.tokensAt (k + 1) ++ (linkTokens k rest ++ more)) gaps
      (own.2 link.1 (leveled link (List.mem_cons_self ..)))
    have operand := tight link.2 (linkTokens k rest ++ more) gaps.tail (by omega) (stops.linkTokens leveledRest)
    have others := ih leveledRest (gaps.tail.drop (link.2.tokensAt (k + 1)).length) (by simpa using enough)
      (by omega)
    rw [Stream'.drop_drop] at others
    rw [linkTokens_cons, List.cons_append, List.append_assoc, List.length_cons, List.length_append]
    have entry := operator.bind fun op same => operand.bind fun p builds =>
      Finds.pure (show LinkBuilds link (op, p) from ⟨same, builds⟩)
    exact entry.many_cons others

variable (enough : bound ≤ limit) (range : 0 < k ∧ k < 7) {more : List Token} (stops : Stops k more)
  {links : List (InfixOp × Formula)}

include enough range stops

theorem chain_finds_first {t : Formula} (other : t.level ≠ k) (leveled : ∀ link ∈ links, link.1.level = k)
    (gaps : Stream' Gap) (short : (t.tokensAt k ++ linkTokens k links).length ≤ bound) :
    Finds (chain limit expression (level :: tighter)) (spell (t.tokensAt k ++ linkTokens k links ++ more) gaps)
      (joinAll t links).Builds (spell more (gaps.drop (t.tokensAt k ++ linkTokens k links).length)) := by
  rw [← t.tokensAt_succ other (Nat.lt_succ_of_lt range.2)] at short ⊢
  rw [List.length_append] at short
  have few := length_le_linkTokens k links
  have first := tight t (linkTokens k links ++ more) gaps (by omega) (stops.linkTokens leveled)
  have rest : Finds (many limit _) _ _ _ := operations_find own tight leveled stops
    (gaps.drop (t.tokensAt (k + 1)).length) (Nat.le_trans few (by omega)) (by omega)
  rw [Stream'.drop_drop, ← List.length_append] at rest
  rw [List.append_assoc]
  refine Finds.named (first.bind fun p builds => rest.bind fun found all => ?_)
  cases found with
  | nil =>
    obtain rfl := List.forall₂_nil_right_iff.mp all
    exact Finds.pure builds
  | cons entry others => exact Finds.pure (Formula.builds_chain builds all)

/-- Links behind a formula of the same level hang onto it from the left, so its left operands are taken apart. -/
theorem chain_finds_links (t : Formula) (leveled : ∀ link ∈ links, link.1.level = k) (gaps : Stream' Gap)
    (short : (t.tokensAt k ++ linkTokens k links).length ≤ bound) :
    Finds (chain limit expression (level :: tighter)) (spell (t.tokensAt k ++ linkTokens k links ++ more) gaps)
      (joinAll t links).Builds (spell more (gaps.drop (t.tokensAt k ++ linkTokens k links).length)) := by
  induction t generalizing links with
  | joined op left right ih _ =>
    rcases Decidable.em (op.level = k) with rfl | other
    · have written : (Formula.joined op left right).tokensAt op.level ++ linkTokens op.level links =
          left.tokensAt op.level ++ linkTokens op.level ((op, right) :: links) := by
        simp [Formula.tokensAt, Formula.enclosed, linkTokens_cons]
      rw [written] at short ⊢
      refine ih (fun link member => ?_) short
      rcases List.mem_cons.mp member with rfl | behind
      · rfl
      · exact leveled link behind
    · have differs : (Formula.joined op left right).level ≠ k := other
      exact chain_finds_first own tight enough range stops differs leveled gaps short
  | name id =>
    have differs : (Formula.name id).level ≠ k := Nat.ne_of_gt (Nat.lt_succ_of_lt range.2)
    exact chain_finds_first own tight enough range stops differs leveled gaps short
  | signed op operand =>
    have differs : (Formula.signed op operand).level ≠ k := Nat.ne_of_gt range.2
    exact chain_finds_first own tight enough range stops differs leveled gaps short
  | choice test consequent alternate =>
    have differs : (Formula.choice test consequent alternate).level ≠ k := Nat.ne_of_lt range.1
    exact chain_finds_first own tight enough range stops differs leveled gaps short

omit stops in
theorem chain_reads : Reads bound (chain limit expression (level :: tighter)) k := by
  intro t more gaps short stops
  have unlinked : ∀ link ∈ ([] : List (InfixOp × Formula)), link.1.level = k := nofun
  have found := chain_finds_links own tight enough range stops t unlinked gaps (by simpa [linkTokens])
  simpa [linkTokens, joinAll] using found

end

theorem level_levels (i : Nat) (within : i < levels.length) : Level (i + 1) levels[i] := by
  have own : ∀ i (within : i < levels.length), ∀ entry ∈ levels[i], entry.2.level = i + 1 ∧
      entry.1 = entry.2.symbol := by decide
  refine ⟨own i within, fun op leveled => ?_⟩
  obtain rfl : i = op.level - 1 := by omega
  rcases op with op | op <;> cases op <;> rfl

/-- From the signs on, each level of the grammar makes the next looser one. -/
theorem chain_levels_reads (enough : bound ≤ limit) (signs : Reads bound (signed limit expression) 7) :
    Reads bound (chain limit expression levels) 1 := by
  have reads (n : Nat) (within : n ≤ 6) : Reads bound (chain limit expression (levels.drop (6 - n))) (7 - n) := by
    induction n with
    | zero => exact signs
    | succ n ih =>
      have inside : 6 - (n + 1) < levels.length := Nat.lt_of_lt_of_le (by omega) (Nat.le_refl 6)
      have tight := ih (by omega)
      have level := level_levels _ inside
      rw [List.drop_eq_getElem_cons inside]
      rw [show 6 - n = 6 - (n + 1) + 1 by omega, show 7 - n = 7 - (n + 1) + 1 by omega] at tight
      rw [show 6 - (n + 1) + 1 = 7 - (n + 1) by omega] at level
      exact chain_reads level tight enough (by omega)
  exact reads 6 (Nat.le_refl 6)

theorem Stops.conditional_absent {more : List Token} (stops : Stops 0 more) (gaps : Stream' Gap) :
    conditionalAhead (spell more gaps) = false := by
  cases more with
  | nil => rfl
  | cons t rest =>
    rw [spell_cons]
    cases t <;> first | rfl | cases stops

theorem conditionalAhead_question (more : List Token) (gaps : Stream' Gap) :
    conditionalAhead ('?' :: behind more gaps) = true := by
  have blank := isBlank_of_behind more gaps
  revert blank
  cases behind more gaps with
  | nil => exact fun _ => rfl
  | cons c rest =>
    intro blank
    have visible := blank c rfl
    refine conditionalAhead.eq_3 _ ?_ ?_ <;> intro _ same <;> cases same <;> cases visible

theorem choice_finds (loosest : Reads (bound + 1) (chain limit expression levels) 1)
    (inner : Reads bound expression 0) {test consequent alternate : Formula} {more : List Token} {gaps : Stream' Gap}
    (short : ((Formula.choice test consequent alternate).tokensAt 0).length ≤ bound + 1) (stops : Stops 0 more) :
    Finds (conditional limit expression) (spell ((Formula.choice test consequent alternate).tokensAt 0 ++ more) gaps)
      (Formula.choice test consequent alternate).Builds
      (spell more (gaps.drop ((Formula.choice test consequent alternate).tokensAt 0).length)) := by
  have written : (Formula.choice test consequent alternate).tokensAt 0 = test.tokensAt 1 ++ .question ::
      (consequent.tokensAt 0 ++ .colon :: alternate.tokensAt 0) := rfl
  rw [written] at short ⊢
  simp only [List.length_append, List.length_cons] at short
  have first := loosest test (.question :: (consequent.tokensAt 0 ++ .colon :: (alternate.tokensAt 0 ++ more))) gaps
    (by omega) Nat.one_pos
  have second := inner consequent (.colon :: (alternate.tokensAt 0 ++ more)) (gaps.drop (test.tokensAt 1).length).tail
    (by omega) trivial
  have third := inner alternate more
    ((gaps.drop (test.tokensAt 1).length).tail.drop (consequent.tokensAt 0).length).tail (by omega) stops
  rw [spell_cons] at first
  rw [← dropWhile_behind, spell_cons] at second
  rw [← dropWhile_behind] at third
  have found := conditional_finds_choice first (conditionalAhead_question _ _) second third
  simp only [Stream'.tail_drop', Stream'.drop_drop] at found
  simp only [List.append_assoc, List.cons_append, List.length_append, List.length_cons]
  have length : (test.tokensAt 1).length + ((consequent.tokensAt 0).length + ((alternate.tokensAt 0).length + 1) + 1) =
      (test.tokensAt 1).length + 1 + (consequent.tokensAt 0).length + 1 + (alternate.tokensAt 0).length := by omega
  rw [length]
  refine found.mono ?_
  rintro p ⟨a, b, c, span, buildsA, buildsB, buildsC, rfl⟩
  exact Formula.builds_choice buildsA buildsB buildsC span

theorem conditional_reads (loosest : Reads (bound + 1) (chain limit expression levels) 1)
    (inner : Reads bound expression 0) : Reads (bound + 1) (conditional limit expression) 0 := by
  intro t more gaps short stops
  have unbranched {t : Formula} (other : t.level ≠ 0) (short : (t.tokensAt 0).length ≤ bound + 1) :
      Finds (conditional limit expression) (spell (t.tokensAt 0 ++ more) gaps) t.Builds
        (spell more (gaps.drop (t.tokensAt 0).length)) := by
    rw [← t.tokensAt_succ other (by decide)] at short ⊢
    exact conditional_finds (loosest t more gaps short (stops.mono (by decide))) (stops.conditional_absent _)
  cases t with
  | choice test consequent alternate => exact choice_finds loosest inner short stops
  | name id => exact unbranched (Nat.succ_ne_zero 7) short
  | signed op operand => exact unbranched (Nat.succ_ne_zero 6) short
  | joined op left right => exact unbranched (Nat.ne_of_gt op.level_range.1) short

theorem Reads.mono {rule : Recogniser Phrase} {k fewer : Nat} (reads : Reads bound rule k) (less : fewer ≤ bound) :
    Reads fewer rule k :=
  fun t more gaps short stops => reads t more gaps (Nat.le_trans short less) stops

/-- A pair of parentheses takes two tokens and opens one expression more. -/
theorem expression_reads (enough : bound ≤ limit) : Reads bound (Grammar.expression limit bound) 0 := by
  induction bound with
  | zero =>
    intro t more gaps short _
    exact absurd (List.length_eq_zero_iff.mp (Nat.le_zero.mp short)) t.tokens_ne_nil
  | succ bound ih =>
    have inner := ih (Nat.le_of_succ_le enough)
    have operands := (linked_reads limit inner).mono (Nat.le_succ (bound + 1))
    exact conditional_reads (chain_levels_reads enough (signed_reads enough operands)) inner

end

end Grammar

/-- A formula of at most one node more than the bound on nesting is read as its tree, whatever blanks stand between
its words. -/
theorem Formula.parse_spell (t : Formula) (small : t.size ≤ maxNesting + 1) (gaps : Stream' Gap) :
    ∃ e, Expr.parse (String.ofList (spell t.tokens gaps)) = .ok e ∧ t.Shapes e := by
  have long := length_le_spell t.tokens gaps
  have finds := Grammar.expression_reads (Nat.le_refl ((spell t.tokens gaps).length + 1)) t [] gaps
    (Nat.le_succ_of_le long) trivial
  rw [List.append_nil] at finds
  obtain ⟨p, recognised, builds⟩ := Grammar.recognise_of_finds finds
  obtain ⟨e, built, shapes⟩ := builds 0 (by omega)
  refine ⟨e, ?_, shapes⟩
  have some' : (spell t.tokens gaps).isEmpty = false := by
    have words := List.length_pos_iff.mpr t.tokens_ne_nil
    rw [List.isEmpty_eq_false_iff, ← List.length_pos_iff]
    omega
  have nesting : ¬ maxNesting < sourceNesting (spell t.tokens gaps) := by
    have bound := t.sourceNesting_spell_lt gaps
    omega
  rw [Expr.parse, String.toList_ofList, trim_spell, Expr.read, some', if_neg (by decide), if_neg nesting, recognised]
  simp only [built]
  rfl

namespace Formula

/-- A conditional in which both operands of `*` and of `-` matter to the parentheses, with a name that starts as a
keyword does. -/
def mixed : Formula :=
  let x : Formula := .name ⟨"x", ⟨'x', [], rfl, rfl, by simp⟩, by decide⟩
  let nulls : Formula := .name ⟨"nulls", ⟨'n', ['u', 'l', 'l', 's'], rfl, rfl, by simp [Lexeme.isNameChar]⟩, by decide⟩
  .choice (.joined (.binary .mul) (.joined (.binary .add) x nulls) (.signed .typeof nulls)) (.signed .not x)
    (.joined (.binary .sub) (.joined (.binary .sub) x nulls) (.joined (.binary .sub) nulls x))

/-- A line break behind the second word, a space behind the others. -/
def mixedGaps : Stream' Gap := fun n =>
  if n = 1 then ⟨['\r', '\n', '\t'], nofun, by simp [Lexeme.isBlank]⟩ else ⟨[' '], nofun, by simp [Lexeme.isBlank]⟩

theorem spell_mixed : String.ofList (spell mixed.tokens mixedGaps) =
    "( x\r\n\t+ nulls ) * typeof nulls ? ! x : x - nulls - ( nulls - x )" := by
  rfl

theorem parse_spell_mixed : mixed.size ≤ maxNesting + 1 ∧
    ∃ e, Expr.parse "( x\r\n\t+ nulls ) * typeof nulls ? ! x : x - nulls - ( nulls - x )" = .ok e ∧
      mixed.Shapes e := by
  have small : mixed.size ≤ maxNesting + 1 := by decide
  exact ⟨small, spell_mixed ▸ parse_spell mixed small mixedGaps⟩

end Formula

end StateScript
