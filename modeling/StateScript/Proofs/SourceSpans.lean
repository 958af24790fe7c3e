import StateScript.Proofs.LaidTrees
import StateScript.Proofs.Operands

/-!
The spans of parsed trees. A cursor keeps the place behind the characters it has passed, every word of the grammar
marks a part of the text between two of its stands, and a rule finds things in a row. So the tree of a text marks its
source, whichever rules the spans of its nodes come from.
-/

namespace StateScript

namespace Lexeme

theorem take_nameLength_ne_nil {cs : List Char} {n : Nat} (scan : nameLength? cs = some n) : cs.take n ≠ [] := by
  cases cs with
  | nil => cases scan
  | cons c rest =>
    simp only [nameLength?] at scan
    split at scan
    · obtain rfl := Option.some.inj scan
      simp
    · cases scan

end Lexeme

namespace Place

theorem offset_after (p : Place) (c : Char) : (p.after c).offset = p.offset + c.utf8Size := by
  unfold after
  split <;> rfl

theorem Behind.origin : Place.origin.Behind [] := ⟨rfl, rfl, rfl⟩

end Place

namespace Cursor

/-- A cursor stands in a text: it has the place behind the characters of the text that are not ahead of it. -/
def In (text : List Char) (cursor : Cursor) : Prop :=
  ∃ before, before ++ cursor.rest = text ∧ cursor.place.Behind before

section

variable {text : List Char} {cursor : Cursor}

theorem in_ofText (text : List Char) : (ofText text).In text := ⟨[], rfl, .origin⟩

theorem offset_le_advance (n : Nat) (cursor : Cursor) : cursor.place.offset ≤ (cursor.advance n).place.offset := by
  induction n generalizing cursor with
  | zero => exact Nat.le_refl _
  | succ n ih =>
    obtain ⟨rest, place⟩ := cursor
    cases rest with
    | nil => exact Nat.le_refl _
    | cons c behind =>
      have step : place.offset ≤ (place.after c).offset := by
        rw [Place.offset_after]
        exact Nat.le_add_right ..
      exact step.trans (ih ⟨behind, place.after c⟩)

/-- Every character has bytes. -/
theorem offset_lt_advance {n : Nat} (some' : cursor.rest.take n ≠ []) :
    cursor.place.offset < (cursor.advance n).place.offset := by
  obtain ⟨rest, place⟩ := cursor
  cases n with
  | zero => exact absurd List.take_zero some'
  | succ n =>
    cases rest with
    | nil => exact absurd List.take_nil some'
    | cons c behind =>
      have step : place.offset < (place.after c).offset := by
        rw [Place.offset_after]
        exact Nat.lt_add_of_pos_right c.utf8Size_pos
      exact Nat.lt_of_lt_of_le step (offset_le_advance n ⟨behind, place.after c⟩)

theorem In.advance (here : cursor.In text) (n : Nat) : (cursor.advance n).In text := by
  induction n generalizing cursor with
  | zero => exact here
  | succ n ih =>
    obtain ⟨rest, place⟩ := cursor
    cases rest with
    | nil => exact here
    | cons c behind =>
      obtain ⟨before, whole, place'⟩ := here
      have there : (⟨behind, place.after c⟩ : Cursor).In text :=
        ⟨before ++ [c], by simpa using whole, place'.after c⟩
      exact ih there

theorem In.starts (here : cursor.In text) : ∃ before, before <+: text ∧ cursor.place.Behind before := by
  obtain ⟨before, whole, place⟩ := here
  exact ⟨before, ⟨cursor.rest, whole⟩, place⟩

theorem In.stops (here : cursor.In text) :
    ∃ before, before <+: text ∧ cursor.place.offset = (String.ofList before).utf8ByteSize := by
  obtain ⟨before, front, place⟩ := here.starts
  exact ⟨before, front, place.offset⟩

/-- From a cursor to the end of a word further on. -/
theorem In.lies {middle last : Nat} {close : Span} (here : cursor.In text) (further : cursor.place.offset ≤ middle)
    (close' : close.Lies text middle last) :
    (⟨cursor.place, close.stop⟩ : Span).Lies text cursor.place.offset last := by
  have forward : cursor.place.offset < close.stop :=
    Nat.lt_of_le_of_lt (further.trans close'.starts) close'.marks.nonempty
  exact ⟨⟨here.starts, close'.marks.stops, forward⟩, Nat.le_refl _, close'.stops⟩

end

end Cursor

namespace Grammar

section

variable {α β : Type} {text : List Char} {start : Nat} {rule other : Recogniser α} {good : Nat → α → Prop}

/-- Where a rule starts at an offset of a text and finds something, the cursor has moved on in the text, and what was
found is good for the offset it has reached. -/
def Advances (text : List Char) (start : Nat) (good : Nat → α → Prop) (rule : Recogniser α) : Prop :=
  ∀ cursor furthest a behind, cursor.In text → cursor.place.offset = start →
    (rule cursor furthest).1 = some (a, behind) →
    behind.In text ∧ start ≤ behind.place.offset ∧ good behind.place.offset a

theorem Advances.pure {a : α} (holds : good start a) : Advances text start good (pure a) := by
  rintro cursor furthest b behind here rfl found
  cases found
  exact ⟨here, Nat.le_refl _, holds⟩

theorem Advances.failure : Advances text start good failure := by
  intro cursor furthest a behind here at' found
  cases found

theorem Advances.mono {better : Nat → α → Prop} (advances : Advances text start good rule)
    (weaker : ∀ stop a, start ≤ stop → good stop a → better stop a) : Advances text start better rule := by
  intro cursor furthest a behind here at' found
  obtain ⟨there, forward, holds⟩ := advances cursor furthest a behind here at' found
  exact ⟨there, forward, weaker _ a forward holds⟩

theorem Advances.bind {next : α → Recogniser β} {fine : Nat → β → Prop} (first : Advances text start good rule)
    (second : ∀ middle a, start ≤ middle → good middle a → Advances text middle fine (next a)) :
    Advances text start fine (rule >>= next) := by
  intro cursor furthest b behind here at' found
  obtain ⟨a, between, later, front, back⟩ := found_of_bind found
  obtain ⟨there, forward, holds⟩ := first cursor furthest a between here at' front
  obtain ⟨beyond, further, fine⟩ := second _ a forward holds between later b behind there rfl back
  exact ⟨beyond, forward.trans further, fine⟩

/-- The cursor itself is looked at without moving. -/
theorem Advances.get_bind {next : Cursor → Recogniser α}
    (rest : ∀ cursor, cursor.In text → cursor.place.offset = start → Advances text start good (next cursor)) :
    Advances text start good (get >>= next) :=
  fun cursor furthest a behind here at' found => rest cursor here at' cursor furthest a behind here at' found

theorem Advances.orElse (first : Advances text start good rule) (second : Advances text start good other) :
    Advances text start good (rule <|> other) := by
  intro cursor furthest a behind here at' found
  rcases found_of_orElse found with front | ⟨later, other⟩
  · exact first cursor furthest a behind here at' front
  · exact second cursor later a behind here at' other

theorem Advances.named (inner : Advances text start good rule) : Advances text start good (named rule) :=
  fun cursor furthest a behind here at' found => inner cursor furthest a behind here at' (found_of_named found)

theorem Advances.firstOf {rules : List (Recogniser α)} (each : ∀ rule ∈ rules, Advances text start good rule) :
    Advances text start good (firstOf rules) := by
  induction rules with
  | nil => exact Advances.failure
  | cons rule rest ih =>
    exact Advances.orElse (each rule (List.mem_cons_self ..))
      (ih fun other member => each other (List.mem_cons_of_mem _ member))

theorem Advances.optional (inner : Advances text start good rule) :
    Advances text start (fun stop found => ∀ a ∈ found, good stop a) (optional rule) := by
  apply Advances.orElse
  · rw [map_eq_pure_bind]
    exact inner.bind fun middle a _ holds => Advances.pure (by simpa using holds)
  · exact Advances.pure (by simp)

variable {lies : Nat → Nat → α → Prop}

/-- Matches of one rule after another are found in a row. -/
theorem Advances.many (each : ∀ start, Advances text start (lies start) rule) (limit start : Nat) :
    Advances text start (fun stop => InRow lies start stop) (many limit rule) := by
  induction limit generalizing start with
  | zero => exact Advances.pure (Nat.le_refl start)
  | succ limit ih =>
    apply Advances.orElse
    · refine (each start).bind fun middle a forward holds => ?_
      refine (ih middle).bind fun stop more _ behind => Advances.pure ?_
      exact ⟨start, middle, Nat.le_refl start, forward, holds, behind⟩
    · exact Advances.pure (Nat.le_refl start)

theorem Advances.taken {n : Nat} {cursor behind : Cursor} {furthest : Place} {found : List Char × Span}
    (here : cursor.In text) (some' : cursor.rest.take n ≠ [])
    (given : (taken n cursor furthest).1 = some (found, behind)) :
    behind.In text ∧ cursor.place.offset ≤ behind.place.offset ∧
      found.2.Lies text cursor.place.offset behind.place.offset := by
  cases given
  have there : (cursor.advance n).In text := here.advance n
  have forward := Cursor.offset_lt_advance some'
  have blanks : (cursor.advance n).place.offset ≤ (cursor.advance n).skipBlanks.place.offset :=
    Cursor.offset_le_advance _ _
  exact ⟨there.advance _, forward.le.trans blanks, ⟨here.starts, there.stops, forward⟩, Nat.le_refl _, blanks⟩

theorem Advances.word {expected : List Char} (some' : expected ≠ []) :
    Advances text start (fun stop span => span.Lies text start stop) (word expected) := by
  rintro cursor furthest found behind here rfl given
  obtain ⟨present, cs, front⟩ := taken_of_word given
  exact Advances.taken here (List.prefix_iff_eq_take.mp present ▸ some') front

theorem Advances.scanned {length? : List Char → Option Nat}
    (some' : ∀ cs n, length? cs = some n → cs.take n ≠ []) :
    Advances text start (fun stop found => found.2.Lies text start stop) (scanned length?) := by
  rintro cursor furthest found behind here rfl given
  obtain ⟨n, scan, front⟩ := taken_of_scanned given
  exact Advances.taken here (some' cursor.rest n scan) front

/-- Things between commas are found in a row too. -/
theorem Advances.separated (each : ∀ start, Advances text start (lies start) rule)
    (looser : ∀ {first start stop a}, first ≤ start → lies start stop a → lies first stop a) (limit : Nat) :
    Advances text start (fun stop => InRow lies start stop) (separated limit rule) := by
  refine (each start).optional.bind fun middle found forward holds => ?_
  cases found with
  | none => exact Advances.pure forward
  | some a =>
    have behindComma (start : Nat) : Advances text start (lies start) (do
        let _ ← Grammar.word [',']
        rule) :=
      (Advances.word (by simp)).bind fun here _ further _ =>
        (each here).mono fun _ _ _ holds => looser further holds
    refine (Advances.many behindComma limit middle).bind fun stop more _ behind => Advances.pure ?_
    exact ⟨start, middle, Nat.le_refl start, forward, holds a rfl, behind⟩

end

section

variable {text : List Char} {start : Nat}

theorem nameSuchThat_advances (accepts : String → Bool) :
    Advances text start (fun stop found => found.2.Lies text start stop) (nameSuchThat accepts) := by
  refine (Advances.scanned fun _ _ => Lexeme.take_nameLength_ne_nil).bind fun middle found forward lies => ?_
  show Advances text middle _ (if accepts (String.ofList found.1) then _ else _)
  split
  · exact Advances.pure lies
  · exact Advances.failure

theorem keyword_advances (expected : String) :
    Advances text start (fun stop span => span.Lies text start stop) (keyword expected) :=
  (nameSuchThat_advances _).bind fun _ _ _ lies => Advances.pure lies

theorem propertyName_advances :
    Advances text start (fun stop found => found.2.Lies text start stop) propertyName :=
  (nameSuchThat_advances _).named

theorem indexDigits_advances :
    Advances text start (fun stop found => found.2.Lies text start stop) indexDigits := by
  refine Advances.named ((Advances.scanned fun cs n scan => ?_).bind fun _ _ _ lies => Advances.pure lies)
  split at scan
  · cases scan
  · rename_i digits
    cases scan
    cases cs with
    | nil => exact absurd rfl digits
    | cons c rest => simpa using digits

theorem quoted_advances : Advances text start (fun stop found => found.2.Lies text start stop) quoted := by
  refine Advances.named ((Advances.scanned fun cs n scan => ?_).bind fun _ _ _ lies => Advances.pure lies)
  split at scan
  · split at scan
    · obtain ⟨m, _, rfl⟩ := Option.map_eq_some_iff.mp scan
      simp
    · cases scan
  · cases scan

theorem unaryOperator_advances :
    Advances text start (fun stop op => op.2.Lies text start stop) unaryOperator := by
  apply Advances.firstOf
  simp only [List.forall_mem_cons]
  refine ⟨?_, ?_, ?_, ?typeof, by simp⟩
  case typeof => exact Advances.named ((keyword_advances _).bind fun _ _ _ lies => Advances.pure lies)
  all_goals exact Advances.named ((Advances.word (by simp)).bind fun _ _ _ lies => Advances.pure lies)

theorem questionMark_advances : Advances text start (fun stop _ => start < stop) questionMark := by
  rintro cursor furthest found behind here rfl given
  obtain ⟨_, ⟨rest, stands⟩, mark, front⟩ := taken_of_questionMark given
  obtain ⟨there, forward, mark⟩ := Advances.taken here (by simp [stands]) front
  have nonempty := mark.marks.nonempty
  exact ⟨there, forward, Nat.lt_of_lt_of_le (Nat.lt_of_le_of_lt mark.starts nonempty) mark.stops⟩

section

open StateScript.Phrase (Builds BuildsOn)

/-- A literal in brackets marks everything from the one to the other, with its items between them. -/
theorem bracketed_advances {α : Type} {items : Recogniser (List α)} {lies : Nat → Nat → α → Prop}
    {literal : List α → Span → Phrase} {opening closing : List Char}
    (inner : ∀ {start}, Advances text start (fun stop => InRow lies start stop) items) (opens : opening ≠ [])
    (closes : closing ≠ []) (builds : ∀ {first last span found}, span.Lies text first last →
      InRow lies span.start.offset span.stop found → Builds text first last (literal found span)) :
    Advances text start (Builds text start) (named do
      let start := (← get).place
      let _ ← word opening
      let found ← items
      let _ ← optional (word [','])
      let close ← word closing
      return literal found ⟨start, close.stop⟩) := by
  refine Advances.named (Advances.get_bind fun cursor here at' => ?_)
  subst at'
  refine (Advances.word opens).bind fun opened _ before _ => ?_
  refine inner.bind fun behind found forward row => ?_
  refine (Advances.word (by simp)).optional.bind fun last _ further _ => ?_
  refine (Advances.word closes).bind fun stop close _ close' => Advances.pure ?_
  have span := here.lies ((before.trans forward).trans further) close'
  refine builds span (row.wider before ?_)
  exact (further.trans close'.starts).trans close'.marks.nonempty.le

variable {limit : Nat} {expression : Recogniser Phrase}
  (inner : ∀ start, Advances text start (Builds text start) expression)

include inner

theorem items_advances :
    Advances text start (fun stop => InRow (Builds text) start stop) (separated limit expression) :=
  Advances.separated inner (fun before builds => builds.wider before (Nat.le_refl _)) limit

theorem listLiteral_advances : Advances text start (Builds text start) (listLiteral limit expression) :=
  bracketed_advances (items_advances inner) (by simp) (by simp) fun span row => Phrase.builds_list span row

theorem property_advances :
    Advances text start (fun stop field => Builds text start stop field.2) (property expression) := by
  have key : Advances text start (fun _ _ => True) ((do return PhraseKey.plain (← propertyName).1) <|> (do
      let found ← quoted
      return PhraseKey.quoted found.1 found.2)) := by
    apply Advances.orElse
    · exact propertyName_advances.bind fun _ _ _ _ => Advances.pure True.intro
    · exact quoted_advances.bind fun _ _ _ _ => Advances.pure True.intro
  refine Advances.named (key.bind fun colon _ before _ => ?_)
  refine (Advances.word (by simp)).bind fun middle _ further _ => ?_
  refine (inner middle).bind fun stop value _ builds => Advances.pure ?_
  exact builds.wider (before.trans further) (Nat.le_refl stop)

theorem recordLiteral_advances : Advances text start (Builds text start) (recordLiteral limit expression) :=
  bracketed_advances (Advances.separated (fun _ => property_advances inner)
    (fun before builds => builds.wider before (Nat.le_refl _)) limit) (by simp) (by simp)
    fun span row => Phrase.builds_record span row

theorem primary_advances : Advances text start (Builds text start) (primary limit expression) := by
  have parenthesised : Advances text start (Builds text start) (do
      let _ ← word ['(']
      let inner ← expression
      let _ ← word [')']
      return inner) := by
    refine (Advances.word (by simp)).bind fun opened _ before _ => ?_
    refine (inner opened).bind fun closing p _ builds => ?_
    exact (Advances.word (by simp)).bind fun stop _ after _ => Advances.pure (builds.wider before after)
  apply Advances.firstOf
  simp only [List.forall_mem_cons]
  refine ⟨?number, ?string, ?yes, ?no, ?null, ?undefined, listLiteral_advances inner,
    recordLiteral_advances inner, ?name, parenthesised, by simp⟩
  case number =>
    refine Advances.named ((Advances.scanned fun _ _ => Lexeme.take_numberLength_ne_nil).bind fun _ _ _ lies => ?_)
    exact Advances.pure (Phrase.builds_number lies _)
  case string => exact quoted_advances.bind fun _ _ _ lies => Advances.pure (Phrase.builds_string lies _)
  case name =>
    exact (nameSuchThat_advances _).named.bind fun _ _ _ lies => Advances.pure (Phrase.builds_name lies _)
  case yes => exact ((keyword_advances _).bind fun _ _ _ lies => Advances.pure (Phrase.builds_bool lies _)).named
  case no => exact ((keyword_advances _).bind fun _ _ _ lies => Advances.pure (Phrase.builds_bool lies _)).named
  all_goals exact ((keyword_advances _).bind fun _ _ _ lies => Advances.pure (Phrase.builds_null lies)).named

theorem link_advances : Advances text start (BuildsOn text start) (link limit expression) := by
  have index (opening : List Char) (some' : opening ≠ []) (optional : Bool) :
      Advances text start (BuildsOn text start) (named do
        let start := (← get).place
        let _ ← word opening
        let key ← expression
        let close ← word [']']
        return .index key optional ⟨start, close.stop⟩) := by
    refine Advances.named (Advances.get_bind fun cursor here at' => ?_)
    subst at'
    refine (Advances.word some').bind fun opened _ before _ => ?_
    refine (inner opened).bind fun closing key forward builds => ?_
    refine (Advances.word (by simp)).bind fun stop close _ close' => Advances.pure ?_
    have span := here.lies (before.trans forward) close'
    refine Phrase.buildsOn_index span optional (builds.wider before ?_)
    exact close'.starts.trans close'.marks.nonempty.le
  have member (opening : List Char) (some' : opening ≠ []) (optional : Bool) {rule : Recogniser (String × Span)}
      (property : ∀ start, Advances text start (fun stop found => found.2.Lies text start stop) rule) :
      Advances text start (BuildsOn text start) (named do
        let start := (← get).place
        let _ ← word opening
        let found ← rule
        return .member found.1 optional ⟨start, found.2.stop⟩) := by
    refine Advances.named (Advances.get_bind fun cursor here at' => ?_)
    subst at'
    refine (Advances.word some').bind fun opened _ before _ => ?_
    refine (property opened).bind fun stop found _ name => Advances.pure ?_
    exact Phrase.buildsOn_member (here.lies before name) found.1 optional
  have call : Advances text start (BuildsOn text start) (named do
      let start := (← get).place
      let _ ← word ['(']
      let args ← separated limit expression
      let close ← word [')']
      return .call args ⟨start, close.stop⟩) := by
    refine Advances.named (Advances.get_bind fun cursor here at' => ?_)
    subst at'
    refine (Advances.word (by simp)).bind fun opened _ before _ => ?_
    refine (items_advances inner).bind fun closing args forward row => ?_
    refine (Advances.word (by simp)).bind fun stop close _ close' => Advances.pure ?_
    have span := here.lies (before.trans forward) close'
    exact Phrase.buildsOn_call span (row.wider before (close'.starts.trans close'.marks.nonempty.le))
  apply Advances.firstOf
  simp only [List.forall_mem_cons]
  refine ⟨index _ (by simp) _, ?optionalMember, ?member, index _ (by simp) _, call, by simp⟩
  case optionalMember => exact member _ (by simp) _ fun _ => propertyName_advances
  -- Only behind a plain point may digits stand for a name.
  case member => exact member _ (by simp) _ fun _ => propertyName_advances.orElse indexDigits_advances

theorem linked_advances : Advances text start (Builds text start) (linked limit expression) := by
  refine Advances.named ((primary_advances inner).bind fun middle base _ builds => ?_)
  refine (Advances.many (fun _ => link_advances inner) limit middle).bind fun stop links _ row => ?_
  split
  · exact Advances.pure (builds.wider (Nat.le_refl start) row)
  · exact Advances.pure (Phrase.builds_linked builds row)

theorem signed_advances : Advances text start (Builds text start) (signed limit expression) := by
  refine Advances.named ((Advances.many (fun _ => unaryOperator_advances) limit start).bind
    fun middle ops forward row => ?_)
  split
  · exact (linked_advances inner).mono fun stop _ _ builds => builds.wider forward (Nat.le_refl stop)
  · exact (linked_advances inner).bind fun stop _ _ builds => Advances.pure (Phrase.builds_signed row builds)

theorem chain_advances (levels : List (List (String × InfixOp))) (start : Nat)
    (symbols : ∀ level ∈ levels, ∀ entry ∈ level, entry.1.toList ≠ []) :
    Advances text start (Builds text start) (chain limit expression levels) := by
  induction levels generalizing start with
  | nil => exact signed_advances inner
  | cons level tighter ih =>
    obtain ⟨here, below⟩ := List.forall_mem_cons.mp symbols
    refine Advances.named ((ih start below).bind fun middle first _ builds => ?_)
    have operand (start : Nat) : Advances text start (fun stop operand => Builds text start stop operand.2) (do
        let op ← firstOf (level.map fun entry => operator entry.1 entry.2)
        return (op, ← chain limit expression tighter)) := by
      have symbol : Advances text start (fun _ _ => True)
          (firstOf (level.map fun entry => operator entry.1 entry.2)) := by
        refine Advances.firstOf fun rule member => ?_
        obtain ⟨entry, one, rfl⟩ := List.mem_map.mp member
        exact Advances.named ((Advances.word (here entry one)).bind fun _ _ _ _ => Advances.pure True.intro)
      refine symbol.bind fun middle _ before _ => (ih middle below).bind fun stop _ _ builds => ?_
      exact Advances.pure (builds.wider before (Nat.le_refl stop))
    refine (Advances.many operand limit middle).bind fun stop rest _ row => ?_
    split
    · exact Advances.pure (builds.wider (Nat.le_refl start) row)
    · exact Advances.pure (Phrase.builds_chain builds row)

theorem conditional_advances : Advances text start (Builds text start) (conditional limit expression) := by
  refine Advances.named (Advances.get_bind fun cursor here at' => ?_)
  subst at'
  refine (chain_advances inner levels _ (by decide)).bind fun question test forward condition => ?_
  have branches : Advances text question
      (fun stop branches => question < stop ∧ InRow (Builds text) question stop [branches.1, branches.2]) (do
        questionMark
        let consequent ← expression
        let _ ← word [':']
        return (consequent, ← expression)) := by
    refine questionMark_advances.bind fun answered _ _ further => ?_
    refine (inner answered).bind fun colon consequent first yes => ?_
    refine (Advances.word (by simp)).bind fun otherwise _ between _ => ?_
    refine (inner otherwise).bind fun stop alternate second no => Advances.pure ⟨by omega, ?_⟩
    exact ⟨answered, colon, further.le, first, yes, otherwise, stop, between, second, no, Nat.le_refl stop⟩
  refine branches.optional.bind fun stop branches behind both => ?_
  split
  · exact Advances.pure (condition.wider (Nat.le_refl _) behind)
  · refine Advances.get_bind fun last there at' => Advances.pure ?_
    subst at'
    obtain ⟨further, row⟩ := both _ rfl
    -- The span is cut off where the cursor stands, blanks included; the question mark keeps it from being empty.
    have span : (⟨cursor.place, last.place.offset⟩ : Span).Lies text cursor.place.offset last.place.offset :=
      ⟨⟨here.starts, there.stops, Nat.lt_of_le_of_lt forward further⟩, Nat.le_refl _, Nat.le_refl _⟩
    exact Phrase.builds_choice span ⟨_, question, Nat.le_refl _, forward, condition, row⟩

end

/-- Whatever an expression nests, it builds a tree between the offsets where it starts and where it ends. -/
theorem expression_advances (text : List Char) (limit allowance start : Nat) :
    Advances text start (Phrase.Builds text start) (expression limit allowance) := by
  induction allowance generalizing start with
  | zero => exact Advances.failure
  | succ allowance ih => exact conditional_advances ih

end

/-- What is recognised takes up its whole text. -/
theorem recognise_builds {allowance : Nat} {cs : List Char} {p : Phrase}
    (recognised : recognise allowance cs = .ok p) : p.Builds cs 0 (String.ofList cs).utf8ByteSize := by
  obtain ⟨place, found⟩ := expression_of_recognise recognised
  obtain ⟨⟨before, whole, stands⟩, _, builds⟩ :=
    expression_advances cs _ allowance 0 _ _ p _ (Cursor.in_ofText cs) rfl found
  obtain rfl : before = cs := by simpa using whole
  exact stands.offset ▸ builds

end Grammar

namespace Expr

/-- A parsed expression marks its source: every node marks a part of the trimmed text that is not empty, at a place
that tells the lines and columns before it, inside the part of its parent and behind those of its elder siblings. -/
theorem parse_marksSource {source : String} {e : Expr} (parsed : parse source = .ok e) :
    e.MarksSource (Text.trim source.toList) ∧
      ∀ node ∈ e.nodes, node.span.stop ≤ (String.ofList (Text.trim source.toList)).utf8ByteSize := by
  obtain ⟨phrase, recognised, built⟩ := recognised_of_read (parse_eq_ok parsed)
  have lies := Grammar.recognise_builds recognised 0 e built
  refine ⟨lies.tree, fun node member => ?_⟩
  obtain ⟨before, ⟨rest, whole⟩, stop⟩ := (lies.tree.marks node member).stops
  rw [stop, ← whole, String.ofList_append, String.utf8ByteSize_append]
  exact Nat.le_add_right ..

/-- A sum of a text with longer characters and, in parentheses on the next line, a conditional. -/
def scatteredSource : String := " 'añ😀' +\n  ( -a.b[k] ? f( 'é' , [x] ) : y )\n "

/-- The spans of its nodes. The conditional takes up the blank behind it but neither parenthesis, and the sum ends
where it does. -/
def scatteredSpans : List Span := [⟨⟨0, 0, 0⟩, 46⟩, ⟨⟨0, 0, 0⟩, 9⟩, ⟨⟨16, 1, 4⟩, 46⟩, ⟨⟨16, 1, 4⟩, 23⟩,
  ⟨⟨17, 1, 5⟩, 23⟩, ⟨⟨17, 1, 5⟩, 20⟩, ⟨⟨17, 1, 5⟩, 18⟩, ⟨⟨21, 1, 9⟩, 22⟩, ⟨⟨26, 1, 14⟩, 41⟩, ⟨⟨26, 1, 14⟩, 27⟩,
  ⟨⟨29, 1, 17⟩, 33⟩, ⟨⟨36, 1, 23⟩, 39⟩, ⟨⟨37, 1, 24⟩, 38⟩, ⟨⟨44, 1, 31⟩, 45⟩]

theorem parse_marksSource_at_scatteredSource :
    ∃ e, parse scatteredSource = .ok e ∧ e.nodes.map span = scatteredSpans ∧
      e.MarksSource (Text.trim scatteredSource.toList) ∧
      ∀ node ∈ e.nodes, node.span.stop ≤ (String.ofList (Text.trim scatteredSource.toList)).utf8ByteSize := by
  have spans : (parse scatteredSource).toOption.map (fun e => e.nodes.map span) = some scatteredSpans := by
    decide +kernel
  cases parsed : parse scatteredSource with
  | error why => simp [parsed, Except.toOption] at spans
  | ok e => exact ⟨e, rfl, by simpa [parsed, Except.toOption] using spans, parse_marksSource parsed⟩

end Expr

end StateScript
