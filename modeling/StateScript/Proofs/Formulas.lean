import StateScript.Proofs.NestingScans

/-!
Formulas, trees of operators over names, and how they are written: word by word, with parentheses where the
precedence of the operators needs them and blanks between the words.
-/

namespace StateScript

/-- A name that is no keyword. -/
structure Identifier where
  text : String
  spelled : Lexeme.IsName text
  free : text ∉ Grammar.keywords

inductive Formula where
  | name (id : Identifier)
  | signed (op : UnaryOp) (operand : Formula)
  | joined (op : InfixOp) (left right : Formula)
  | choice (test consequent alternate : Formula)

/-- A word of a written formula. -/
inductive Token where
  | name (id : Identifier)
  | sign (op : UnaryOp)
  | operator (op : InfixOp)
  | question
  | colon
  | opening
  | closing

/-- Blanks between two words. -/
structure Gap where
  chars : List Char
  some' : chars ≠ []
  blank : ∀ c ∈ chars, Lexeme.isBlank c = true

def UnaryOp.symbol : UnaryOp → String
  | not => "!"
  | neg => "-"
  | plus => "+"
  | typeof => "typeof"

namespace InfixOp

def symbol : InfixOp → String
  | binary op => op.symbol
  | logical .and => "&&"
  | logical .or => "||"
  | logical .nullish => "??"

/-- The precedence of an operator, from the loosest to the tightest. -/
def level : InfixOp → Nat
  | logical .or | logical .nullish => 1
  | logical .and => 2
  | binary .eq | binary .ne | binary .strictEq | binary .strictNe => 3
  | binary .lt | binary .lte | binary .gt | binary .gte => 4
  | binary .add | binary .sub => 5
  | binary .mul | binary .div | binary .mod => 6

theorem level_range (op : InfixOp) : 0 < op.level ∧ op.level ≤ 6 := by
  rcases op with op | op <;> cases op <;> decide

end InfixOp

namespace Token

def chars : Token → List Char
  | name id => id.text.toList
  | sign op => op.symbol.toList
  | operator op => op.symbol.toList
  | question => ['?']
  | colon => [':']
  | opening => ['(']
  | closing => [')']

/-- The tokens that a check of the nesting counts. -/
def weight : Token → Nat
  | question | opening => 1
  | _ => 0

end Token

namespace Formula

/-- The precedence of a formula: conditionals are the loosest, signs are tighter than infix operators. -/
def level : Formula → Nat
  | name _ => 8
  | signed .. => 7
  | joined op .. => op.level
  | choice .. => 0

/-- Parentheses around tokens, if needed. -/
def enclosed (needed : Bool) (tokens : List Token) : List Token :=
  if needed then .opening :: (tokens ++ [.closing]) else tokens

/-- The tokens of a formula where operators of a level may stand without parentheses. Infix operators group to the
left, so their right operand has to be tighter; conditionals group to the right. -/
def tokensAt : Formula → Nat → List Token
  | name id, _ => [.name id]
  | signed op operand, k => enclosed (7 < k) (.sign op :: operand.tokensAt 7)
  | joined op left right, k =>
    enclosed (op.level < k) (left.tokensAt op.level ++ .operator op :: right.tokensAt (op.level + 1))
  | choice test consequent alternate, k =>
    enclosed (0 < k) (test.tokensAt 1 ++ .question :: (consequent.tokensAt 0 ++ .colon :: alternate.tokensAt 0))

def tokens (t : Formula) : List Token := t.tokensAt 0

/-- The number of nodes. -/
def size : Formula → Nat
  | name _ => 1
  | signed _ operand => 1 + operand.size
  | joined _ left right => 1 + left.size + right.size
  | choice test consequent alternate => 1 + test.size + consequent.size + alternate.size

/-- An expression is the same tree, wherever its parts stand. -/
def Shapes : Formula → Expr → Prop
  | name id, .name text _ => text = id.text
  | signed op operand, .unary op' e _ => op' = op ∧ operand.Shapes e
  | joined (.binary op) left right, .binary op' a b _ => op' = op ∧ left.Shapes a ∧ right.Shapes b
  | joined (.logical op) left right, .logical op' a b _ => op' = op ∧ left.Shapes a ∧ right.Shapes b
  | choice test consequent alternate, .ternary a b c _ => test.Shapes a ∧ consequent.Shapes b ∧ alternate.Shapes c
  | _, _ => False

end Formula

/-- Tokens written one behind the other, with the gaps of a stream between them. -/
def spell : List Token → Stream' Gap → List Char
  | [], _ => []
  | [t], _ => t.chars
  | t :: next :: more, gaps => t.chars ++ gaps.head.chars ++ spell (next :: more) gaps.tail

namespace Lexeme

theorem isBlank_of_isBlank {c : Char} (blank : isBlank c = true) : Text.isBlank c = true := by
  simp only [isBlank, Bool.or_eq_true, beq_iff_eq] at blank
  rcases blank with ((rfl | rfl) | rfl) | rfl <;> rfl

end Lexeme

namespace Token

theorem chars_ne_nil (t : Token) : t.chars ≠ [] := by
  cases t with
  | name id => exact id.spelled.ne_nil
  | sign op => cases op <;> decide
  | operator op => rcases op with op | op <;> cases op <;> decide
  | _ => nofun

theorem visible (t : Token) : ∀ c ∈ t.chars, Text.isBlank c = false := by
  cases t with
  | name id => exact fun c member => Lexeme.isBlank_of_isNameChar (id.spelled.chars c member)
  | sign op => cases op <;> simp [chars, UnaryOp.symbol, Text.isBlank]
  | operator op =>
    rcases op with op | op <;> cases op <;> simp [chars, InfixOp.symbol, BinaryOp.symbol, Text.isBlank]
  | _ => simp [chars, Text.isBlank]

theorem not_isBlank {t : Token} {c : Char} (member : c ∈ t.chars) : Lexeme.isBlank c = false := by
  rw [Bool.eq_false_iff]
  intro blank
  have visible := t.visible c member
  rw [Lexeme.isBlank_of_isBlank blank] at visible
  cases visible

end Token

section

variable {t : Token} {more : List Token} {gaps : Stream' Gap}

/-- What stands behind a token: the blanks up to the next one, and the rest. -/
def behind (more : List Token) (gaps : Stream' Gap) : List Char :=
  if more.isEmpty then [] else gaps.head.chars ++ spell more gaps.tail

theorem spell_cons (t : Token) (more : List Token) (gaps : Stream' Gap) :
    spell (t :: more) gaps = t.chars ++ behind more gaps := by
  cases more with
  | nil => exact (List.append_nil _).symm
  | cons next rest => exact List.append_assoc _ _ _

theorem isBlank_of_behind (more : List Token) (gaps : Stream' Gap) :
    ∀ c ∈ (behind more gaps).head?, Lexeme.isBlank c = true := by
  intro c first
  obtain ⟨d, rest, spelled⟩ := List.exists_cons_of_ne_nil gaps.head.some'
  cases more with
  | nil => cases first
  | cons next more =>
    have same : d = c := by simpa [behind, spelled] using first
    subst same
    exact gaps.head.blank d (spelled ▸ List.mem_cons_self ..)

/-- Skipping the blanks behind a token leads to the next one. -/
theorem dropWhile_behind (more : List Token) (gaps : Stream' Gap) :
    (behind more gaps).dropWhile Lexeme.isBlank = spell more gaps.tail := by
  cases more with
  | nil => rfl
  | cons next more =>
    obtain ⟨c, rest, spelled⟩ := List.exists_cons_of_ne_nil next.chars_ne_nil
    have visible := Token.not_isBlank (spelled ▸ List.mem_cons_self .. : c ∈ next.chars)
    show (gaps.head.chars ++ spell (next :: more) gaps.tail).dropWhile _ = _
    rw [List.dropWhile_append_of_pos gaps.head.blank, spell_cons, spelled, List.cons_append,
      List.dropWhile_cons_of_neg (by simp [visible])]

theorem length_le_spell (tokens : List Token) (gaps : Stream' Gap) : tokens.length ≤ (spell tokens gaps).length := by
  induction tokens generalizing gaps with
  | nil => exact Nat.le_refl _
  | cons t more ih =>
    have some' := List.length_pos_iff.mpr t.chars_ne_nil
    have skipped := List.length_dropWhile_le Lexeme.isBlank (behind more gaps)
    have rest := ih gaps.tail
    rw [dropWhile_behind] at skipped
    rw [spell_cons, List.length_append, List.length_cons]
    omega

/-- Only the first token can be where a word without blanks stands. -/
theorem front_of_spell {expected : List Char} (visible : ∀ c ∈ expected, Lexeme.isBlank c = false)
    (here : expected <+: spell (t :: more) gaps) : expected <+: t.chars := by
  rw [spell_cons] at here
  rcases List.prefix_or_prefix_of_prefix here (List.prefix_append ..) with inside | ⟨rest, rfl⟩
  · exact inside
  · cases rest with
    | nil => rw [List.append_nil]
    | cons c rest =>
      obtain ⟨left, same⟩ := (List.prefix_append_right_inj t.chars).mp here
      have blank := isBlank_of_behind more gaps c (show (behind more gaps).head? = some c by simp [← same])
      rw [visible c (by simp)] at blank
      cases blank

end

theorem trim_spell (tokens : List Token) (gaps : Stream' Gap) : Text.trim (spell tokens gaps) = spell tokens gaps := by
  apply Text.trim_eq_self
  · intro c first
    cases tokens with
    | nil => cases first
    | cons t more =>
      obtain ⟨d, rest, spelled⟩ := List.exists_cons_of_ne_nil t.chars_ne_nil
      have same : d = c := by simpa [spell_cons, spelled] using first
      exact t.visible c (by simp [spelled, same])
  · induction tokens generalizing gaps with
    | nil => nofun
    | cons t more ih =>
      intro c last
      cases more with
      | nil => exact t.visible c (List.mem_of_getLast? last)
      | cons next rest =>
        have some' : spell (next :: rest) gaps.tail ≠ [] := by
          simp [spell_cons, next.chars_ne_nil]
        rw [spell, List.getLast?_append_of_ne_nil _ some'] at last
        exact ih gaps.tail c last

namespace NestingScan

/-- A token raises what a scan has counted by its weight at most. -/
theorem total_token {s : NestingScan} (outside : s.quote = none) (level : s.depth ≤ s.deepest) (t : Token)
    {rest : List Char} (apart : ∀ c ∈ rest.head?, Lexeme.isBlank c = true) :
    ∃ s' : NestingScan, s'.quote = none ∧ s'.depth ≤ s'.deepest ∧ s.total (t.chars ++ rest) = s'.total rest ∧
      s'.deepest + s'.conditionals ≤ s.deepest + s.conditionals + t.weight := by
  have light {cs : List Char} (plain : cs.all isPlain = true) : ∃ s' : NestingScan, s'.quote = none ∧
      s'.depth ≤ s'.deepest ∧ s.total (cs ++ rest) = s'.total rest ∧
      s'.deepest + s'.conditionals ≤ s.deepest + s.conditionals + 0 :=
    ⟨{ s with last := cs.getLast?.or s.last }, outside, level, total_plain outside plain rest, Nat.le_refl _⟩
  cases t with
  | name id =>
    exact light (List.all_eq_true.mpr fun c member => Lexeme.plain_of_isNameChar (id.spelled.chars c member))
  | sign op => cases op <;> exact light (by decide)
  | colon => exact light rfl
  | operator op =>
    rcases op with op | op
    · cases op <;> exact light (by decide)
    · cases op
      · exact light (by decide)
      · exact light (by decide)
      · exact ⟨{ s with last := some '?' }, outside, level, total_nullish outside, Nat.le_refl _⟩
  | question =>
    have counted : ¬ s.Misses ('?' :: rest) := by
      rintro ⟨_, _, point, _⟩
      cases apart '.' point
    refine ⟨s.step '?' rest.head?, ?_, ?_, total_of_not_misses counted, ?_⟩
    all_goals
      rw [step_question outside]
      split
    all_goals
      simp only [Token.weight]
      first | assumption | omega
  | opening =>
    refine ⟨{ s with depth := s.depth + 1, deepest := max s.deepest (s.depth + 1), last := some '(' }, outside,
      Nat.le_max_right _ _, total_opening outside (by decide), ?_⟩
    simp only [Token.weight]
    omega
  | closing =>
    exact ⟨{ s with depth := s.depth - 1, last := some ')' }, outside, Nat.le_trans (Nat.sub_le _ _) level,
      total_closing outside (by decide), Nat.le_refl _⟩

theorem total_spell_le {s : NestingScan} (outside : s.quote = none) (level : s.depth ≤ s.deepest)
    (tokens : List Token) (gaps : Stream' Gap) :
    s.total (spell tokens gaps) ≤ s.deepest + s.conditionals + (tokens.map Token.weight).sum := by
  induction tokens generalizing s gaps with
  | nil => exact Nat.le_refl _
  | cons t more ih =>
    obtain ⟨s', outside', level', passed, raised⟩ := total_token outside level t (isBlank_of_behind more gaps)
    have blanks : ((behind more gaps).takeWhile Lexeme.isBlank).all isPlain = true :=
      List.all_eq_true.mpr fun c member => Lexeme.plain_of_isBlank (List.all_eq_true.mp List.all_takeWhile c member)
    have skipped := total_plain outside' blanks (spell more gaps.tail)
    rw [← dropWhile_behind, List.takeWhile_append_dropWhile, dropWhile_behind] at skipped
    have rest := ih (s := { s' with last := ((behind more gaps).takeWhile Lexeme.isBlank).getLast?.or s'.last })
      outside' level' gaps.tail
    rw [spell_cons, passed, skipped, List.map_cons, List.sum_cons]
    simp only at rest
    omega

end NestingScan

namespace Formula

theorem tokens_ne_nil (t : Formula) : t.tokens ≠ [] := by
  cases t <;> simp [tokens, tokensAt, enclosed]

theorem size_pos (t : Formula) : 0 < t.size := by
  cases t <;> simp only [size] <;> omega

theorem tokensAt_of_le (t : Formula) {k : Nat} (loose : k ≤ t.level) : t.tokensAt k = t.tokens := by
  cases t <;> simp_all [tokensAt, tokens, enclosed, level]

theorem tokensAt_of_lt (t : Formula) {k : Nat} (tight : t.level < k) (operand : k ≤ 8) :
    t.tokensAt k = .opening :: (t.tokens ++ [.closing]) := by
  cases t with
  | name id => exact absurd tight (Nat.not_lt.mpr operand)
  | _ => simp_all [tokensAt, tokens, enclosed, level]

theorem tokensAt_eq_enclosed (t : Formula) (k : Nat) : ∃ needed, t.tokensAt k = enclosed needed t.tokens := by
  cases t with
  | name id => exact ⟨false, rfl⟩
  | signed op operand => exact ⟨7 < k, rfl⟩
  | joined op left right => exact ⟨op.level < k, by simp [tokensAt, tokens, enclosed]⟩
  | choice test consequent alternate => exact ⟨0 < k, by simp [tokensAt, tokens, enclosed]⟩

theorem tokensAt_succ (t : Formula) {k : Nat} (other : t.level ≠ k) (operand : k < 8) :
    t.tokensAt (k + 1) = t.tokensAt k := by
  rcases Nat.lt_or_gt_of_ne other with tight | loose
  · rw [t.tokensAt_of_lt (Nat.lt_succ_of_lt tight) operand, t.tokensAt_of_lt tight (Nat.le_of_lt operand)]
  · rw [t.tokensAt_of_le loose, t.tokensAt_of_le (Nat.le_of_lt loose)]

/-- Signs gather in front of an operand. -/
theorem exists_signs (t : Formula) : ∃ (signs : List UnaryOp) (core : Formula), signs.foldr signed core = t ∧
    t.tokensAt 7 = signs.map .sign ++ core.tokensAt 8 := by
  have unsigned {t : Formula} (other : t.level ≠ 7) : ∃ (signs : List UnaryOp) (core : Formula),
      signs.foldr signed core = t ∧ t.tokensAt 7 = signs.map .sign ++ core.tokensAt 8 :=
    ⟨[], t, rfl, (t.tokensAt_succ other (by decide)).symm⟩
  induction t with
  | signed op operand ih =>
    obtain ⟨signs, core, same, tokens⟩ := ih
    exact ⟨op :: signs, core, congrArg (signed op) same, congrArg (Token.sign op :: ·) tokens⟩
  | name id => exact unsigned (Nat.ne_of_gt (Nat.lt_succ_self 7))
  | joined op => exact unsigned (Nat.ne_of_lt (Nat.lt_succ_of_le op.level_range.2))
  | choice => exact unsigned (Nat.ne_of_lt (Nat.succ_pos 6))

/-- Parentheses and conditionals together are fewer than nodes. -/
theorem weight_tokens_lt (t : Formula) : (t.tokens.map Token.weight).sum < t.size := by
  have operand {t : Formula} (light : (t.tokens.map Token.weight).sum < t.size) (k : Nat) :
      ((t.tokensAt k).map Token.weight).sum ≤ t.size := by
    obtain ⟨needed, same⟩ := t.tokensAt_eq_enclosed k
    rw [same]
    cases needed
    · exact Nat.le_of_lt light
    · simp only [enclosed, if_true, List.map_cons, List.map_append, List.sum_cons, List.sum_append, Token.weight,
        List.map_nil, List.sum_nil]
      omega
  induction t with
  | name id => exact Nat.one_pos
  | signed op t ih =>
    have inner := operand ih 7
    simp only [tokens, tokensAt, enclosed, Nat.not_lt_zero, decide_false, Bool.false_eq_true, if_false, List.map_cons,
      List.sum_cons, Token.weight, size]
    omega
  | joined op left right ihLeft ihRight =>
    have before := operand ihLeft op.level
    have after := operand ihRight (op.level + 1)
    simp only [tokens, tokensAt, enclosed, Nat.not_lt_zero, decide_false, Bool.false_eq_true, if_false, List.map_append,
      List.sum_append, List.map_cons, List.sum_cons, Token.weight, size]
    omega
  | choice test consequent alternate ihTest ihConsequent ihAlternate =>
    have before := operand ihTest 1
    simp only [tokens] at ihConsequent ihAlternate
    simp only [tokens, tokensAt, enclosed, Nat.not_lt_zero, decide_false, Bool.false_eq_true, if_false, List.map_append,
      List.sum_append, List.map_cons, List.sum_cons, Token.weight, size]
    omega

theorem sourceNesting_spell_lt (t : Formula) (gaps : Stream' Gap) : sourceNesting (spell t.tokens gaps) < t.size := by
  have counted := NestingScan.total_spell_le (s := {}) rfl (Nat.le_refl 0) t.tokens gaps
  have light := t.weight_tokens_lt
  simp only [NestingScan.total] at counted
  simp only [sourceNesting]
  omega

end Formula

end StateScript
