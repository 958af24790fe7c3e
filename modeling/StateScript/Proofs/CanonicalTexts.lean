import StateScript.Proofs.Addresses

/-!
Canonical texts read back. The text of a path ends every segment where the next one begins, so a path is read
back from it segment by segment. What is not read back is a key with a single quote: the text has a backslash
before the quote, and the reader takes the backslash for a character and the quote for the end of the key.
-/

namespace StateScript

namespace Text

/-- The blanks beyond ASCII. -/
def wideBlanks : List Nat := [0x85, 0xA0, 0x1680, 0x2000, 0x2001, 0x2002, 0x2003, 0x2004, 0x2005, 0x2006, 0x2007,
  0x2008, 0x2009, 0x200A, 0x2028, 0x2029, 0x202F, 0x205F, 0x3000]

theorem isBlank_of_isAlphanumeric {c : Char} (letter : isAlphanumeric c = true) : isBlank c = false := by
  rcases Bool.or_eq_true_iff.mp letter with ascii | wide
  · exact Lexeme.isBlank_of_isNameChar (by simp [Lexeme.isNameChar, ascii])
  · obtain ⟨beyond, inside⟩ := Bool.and_eq_true_iff.mp wide
    rw [Bool.eq_false_iff]
    intro blank
    have listed : c.toNat ∈ wideBlanks := by
      simp only [isBlank, Bool.or_eq_true, Bool.and_eq_true, decide_eq_true_eq, beq_iff_eq] at blank beyond
      simp only [wideBlanks, List.mem_cons, List.not_mem_nil, or_false]
      omega
    have outside : ∀ n ∈ wideBlanks, inRanges wideAlphanumeric n = false := by decide +kernel
    rw [outside c.toNat listed] at inside
    cases inside

end Text

namespace Segment

/-- Whether a segment is written without quotes. -/
def isBare : Segment → Bool
  | key name => isPlainKey name
  | _ => true

/-- A segment is written as it is, or as a key between quotes. -/
theorem bare_or_quoted (segment : Segment) :
    segment.isBare = true ∨ ∃ name, segment = .key name ∧ isPlainKey name = false := by
  cases segment with
  | key name =>
    cases plain : isPlainKey name with
    | true => exact Or.inl plain
    | false => exact Or.inr ⟨name, rfl, plain⟩
  | index | wildcard => exact Or.inl rfl

/-- Whether a segment is read back from its text: a key without single quotes, an index that fits 64 bits, or
a wildcard. -/
def isReadable : Segment → Bool
  | key name => !name.toList.contains '\''
  | index i => i ≤ Word.max64
  | wildcard => true

/-- A character of a key that is written without quotes. -/
def isPlainChar (c : Char) : Bool := Text.isAlphanumeric c || c == '_' || c == '$' || c == '-'

theorem isPlainKey_iff {name : String} : isPlainKey name = true ↔ name.toList ≠ [] ∧ name.toList ≠ ['*'] ∧
    (∃ c ∈ name.toList, c.isDigit = false) ∧ ∀ c ∈ name.toList, isPlainChar c = true := by
  simp [isPlainKey, isPlainChar, and_assoc]

theorem ne_of_isPlainChar {c d : Char} (plain : isPlainChar c = true) (other : isPlainChar d = false) : c ≠ d := by
  rintro rfl
  rw [plain] at other
  cases other

theorem isBlank_of_isPlainChar {c : Char} (plain : isPlainChar c = true) : Text.isBlank c = false := by
  simp only [isPlainChar, Bool.or_eq_true, beq_iff_eq] at plain
  rcases plain with ((letter | rfl) | rfl) | rfl
  · exact Text.isBlank_of_isAlphanumeric letter
  all_goals rfl

/-- What stands for a bare segment is a text without points, brackets and blanks. -/
theorem text_of_isBare {segment : Segment} (bare : segment.isBare = true) : segment.text.toList ≠ [] ∧
    ∀ c ∈ segment.text.toList, (c ≠ '.' ∧ c ≠ '[') ∧ Text.isBlank c = false := by
  cases segment with
  | key name =>
    obtain ⟨some', _, _, plain⟩ := isPlainKey_iff.mp bare
    refine ⟨some', fun c member => ?_⟩
    have char := plain c member
    exact ⟨⟨ne_of_isPlainChar char rfl, ne_of_isPlainChar char rfl⟩, isBlank_of_isPlainChar char⟩
  | index i =>
    have digits := isDigits_toString i
    refine ⟨digits.1, fun c member => ?_⟩
    obtain ⟨point, bracket, _, _, _, visible⟩ := digits.plain c member
    exact ⟨⟨point, bracket⟩, visible⟩
  | wildcard =>
    have star : wildcard.text.toList = ['*'] := rfl
    rw [star]
    exact ⟨by decide, List.forall_mem_singleton.mpr (by decide)⟩

/-- A plain key is not taken for anything else: it is no wildcard, and it has a character that is no digit. -/
theorem ofDotted_plain {name : String} (plain : isPlainKey name = true) : ofDotted name.toList = .key name := by
  obtain ⟨_, star, ⟨c, member, other⟩, _⟩ := isPlainKey_iff.mp plain
  have mixed : ¬ name.toList.all Char.isDigit = true := by
    intro digits
    rw [List.all_eq_true.mp digits c member] at other
    cases other
  unfold ofDotted
  simp only [if_neg star, if_neg mixed, String.ofList_toList]
  split <;> rfl

/-- A bare segment is read back if it is readable. -/
theorem ofDotted_text_iff {segment : Segment} (bare : segment.isBare = true) :
    ofDotted segment.text.toList = segment ↔ segment.isReadable = true := by
  cases segment with
  | key name =>
    obtain ⟨_, _, _, plain⟩ := isPlainKey_iff.mp bare
    have unquoted : '\'' ∉ name.toList := fun member => ne_of_isPlainChar (plain _ member) rfl rfl
    simp [isReadable, unquoted, text, ofDotted_plain bare]
  | index i =>
    have value := Decimal.naturalOf_toString i
    simp only [text, (isDigits_toString i).ofDotted, value, isReadable, decide_eq_true_eq]
    split <;> simp_all
  | wildcard => exact ⟨fun _ => rfl, fun _ => rfl⟩

end Segment

namespace Path

theorem renderRest_bare {segment : Segment} (bare : segment.isBare = true) (rest : Path) :
    renderRest (segment :: rest) = '.' :: (segment.text.toList ++ renderRest rest) := by
  cases segment with
  | key name =>
    have plain : Segment.isPlainKey name = true := bare
    simp [renderRest, plain, Segment.text]
  | index | wildcard => rfl

theorem renderRest_quoted {name : String} (quoted : Segment.isPlainKey name = false) (rest : Path) :
    renderRest (.key name :: rest) = Segment.quotedKey name ++ renderRest rest := by
  simp [renderRest, quoted]

/-- A text that goes on completes what has been gathered before it. -/
theorem readFrom_renderRest (path : Path) {current : List Char} (gathered : current ≠ []) :
    readFrom (.plain current false) (renderRest path) =
      (readFrom (.plain [] true) (renderRest path)).map (dotted current ++ ·) := by
  cases path with
  | nil => simp [renderRest, readFrom, finish, gathered, dotted, Except.map]
  | cons segment rest =>
    obtain ⟨c, behind, starts, border⟩ : ∃ c behind, renderRest (segment :: rest) = c :: behind ∧
        (c = '.' ∨ c = '[') := by
      rcases segment.bare_or_quoted with bare | ⟨name, rfl, quoted⟩
      · exact ⟨'.', _, renderRest_bare bare rest, Or.inl rfl⟩
      · exact ⟨'[', _, renderRest_quoted quoted rest, Or.inr rfl⟩
    have nothing : dotted [] = [] := rfl
    rw [starts]
    rcases border with rfl | rfl
    · rw [readFrom_cons (step_point (Or.inl gathered)), readFrom_cons (step_point (Or.inr rfl)), nothing]
      cases readFrom (.plain [] false) behind <;> rfl
    · rw [readFrom_cons (step_bracket current false), readFrom_cons (step_bracket [] true), nothing]
      cases readFrom .opened behind <;> rfl

/-- Where a segment may begin, the text of a bare one is read as a segment of its own. -/
theorem readFrom_bare {segment : Segment} (bare : segment.isBare = true) (afterBracket : Bool) (rest : Path) :
    readFrom (.plain [] afterBracket) (segment.text.toList ++ renderRest rest) =
      (readFrom (.plain [] true) (renderRest rest)).map (.ofDotted segment.text.toList :: ·) := by
  obtain ⟨some', plain⟩ := Segment.text_of_isBare bare
  have gathered : segment.text.toList.reverse ++ [] ≠ [] := by simpa using some'
  rw [readFrom_plain (fun c member => (plain c member).1) [] _ some', readFrom_renderRest rest gathered,
    List.append_nil, dotted_reverse some']
  rfl

/-- The characters of a key as they stand between single quotes. -/
def escaped (cs : List Char) : List Char := cs.flatMap fun c => if c = '\'' then ['\\', '\''] else [c]

theorem escaped_of_unquoted {cs : List Char} (unquoted : ∀ c ∈ cs, c ≠ '\'') : escaped cs = cs := by
  induction cs with
  | nil => rfl
  | cons c rest ih =>
    obtain ⟨other, more⟩ := List.forall_mem_cons.mp unquoted
    rw [escaped, List.flatMap_cons, if_neg other, ← escaped, ih more]
    rfl

theorem readFrom_quotedKey (name : String) (afterBracket : Bool) (rest : List Char) :
    readFrom (.plain [] afterBracket) (Segment.quotedKey name ++ rest) =
      readFrom (.quoted '\'' []) (escaped name.toList ++ '\'' :: ']' :: rest) := by
  have opened : step .opened '\'' = .ok (.quoted '\'' [], []) := rfl
  have split : Segment.quotedKey name ++ rest = '[' :: '\'' :: (escaped name.toList ++ '\'' :: ']' :: rest) := by
    simp [Segment.quotedKey, escaped]
  rw [split, readFrom_cons_silent (step_bracket [] afterBracket), readFrom_cons_silent opened]

theorem readFrom_closing_eq_ok {inner rest : List Char} {path : Path}
    (found : readFrom (.closing inner) rest = .ok path) :
    ∃ more, path = .key (String.ofList inner.reverse) :: more := by
  cases rest with
  | nil => cases found
  | cons c behind =>
    by_cases close : c = ']'
    · subst close
      rw [readFrom_closing] at found
      obtain ⟨more, _, same⟩ := map_eq_ok.mp found
      exact ⟨more, same.symm⟩
    · have stops : step (.closing inner) c = .error .quotedKeyEnd := by simp [step, close]
      rw [readFrom, stops] at found
      cases found

/-- A key with quotes ends at the first of them, behind the backslash that has been put before it. If anything
is read at all then another key. -/
theorem readFrom_quotedKey_ne {name : String} (quoted : '\'' ∈ name.toList) {rest : List Char}
    {afterBracket : Bool} {path : Path}
    (found : readFrom (.plain [] afterBracket) (Segment.quotedKey name ++ rest) = .ok path) :
    ∃ other more, path = .key other :: more ∧ other ≠ name := by
  obtain ⟨before, behind, split, first⟩ := List.eq_append_cons_of_mem quoted
  have unquoted : ∀ c ∈ before, c ≠ '\'' := fun c member same => first (same ▸ member)
  have gathered : ∀ c ∈ before ++ ['\\'], c ≠ '\'' := by
    intro c member
    rcases List.mem_append.mp member with inside | last
    · exact unquoted c inside
    · rw [List.mem_singleton.mp last]
      decide
  have spelled : escaped name.toList ++ '\'' :: ']' :: rest =
      (before ++ ['\\']) ++ '\'' :: (escaped behind ++ '\'' :: ']' :: rest) := by
    have front := escaped_of_unquoted unquoted
    rw [split, escaped, List.flatMap_append, ← escaped, front, List.flatMap_cons, ← escaped]
    simp
  rw [readFrom_quotedKey, spelled, readFrom_untilQuote gathered] at found
  obtain ⟨more, rfl⟩ := readFrom_closing_eq_ok found
  refine ⟨_, more, rfl, fun same => ?_⟩
  have chars := congrArg String.toList same
  simp [split] at chars

theorem map_cons_eq_ok {first other : Segment} {rest : Path} {outcome : Except PathFault Path} :
    outcome.map (other :: ·) = .ok (first :: rest) ↔ other = first ∧ outcome = .ok rest := by
  rw [map_eq_ok]
  simp [and_comm]

/-- The text of a path is read back segment by segment. -/
theorem readFrom_renderRest_iff (path : Path) :
    readFrom (.plain [] true) (renderRest path) = .ok path ↔ ∀ segment ∈ path, segment.isReadable = true := by
  induction path with
  | nil => exact ⟨fun _ => List.forall_mem_nil _, fun _ => rfl⟩
  | cons segment rest ih =>
    rw [List.forall_mem_cons, ← ih]
    rcases segment.bare_or_quoted with bare | ⟨name, rfl, quoted⟩
    · have starts : step (.plain [] true) '.' = .ok (.plain [] false, []) := rfl
      rw [renderRest_bare bare, readFrom_cons_silent starts, readFrom_bare bare, map_cons_eq_ok,
        Segment.ofDotted_text_iff bare]
    · rw [renderRest_quoted quoted]
      by_cases inside : '\'' ∈ name.toList
      · have unreadable : (Segment.key name).isReadable = false := by simp [Segment.isReadable, inside]
        simp only [unreadable, Bool.false_eq_true, false_and, iff_false]
        intro found
        obtain ⟨other, more, same, different⟩ := readFrom_quotedKey_ne inside found
        cases same
        exact different rfl
      · have readable : (Segment.key name).isReadable = true := by simp [Segment.isReadable, inside]
        have unquoted : ∀ c ∈ name.toList, c ≠ '\'' := fun c member same => inside (same ▸ member)
        rw [readFrom_quotedKey, escaped_of_unquoted unquoted, readFrom_quoted unquoted]
        simp only [List.reverse_nil, List.nil_append, String.ofList_toList, List.singleton_append,
          map_cons_eq_ok, readable, true_and]

theorem last_append {front back : List Char} (first : ∀ c ∈ front.getLast?, Text.isBlank c = false)
    (last : ∀ c ∈ back.getLast?, Text.isBlank c = false) : ∀ c ∈ (front ++ back).getLast?, Text.isBlank c = false := by
  rw [List.getLast?_append]
  cases ends : back.getLast? with
  | none => exact first
  | some d =>
    rw [ends] at last
    exact last

/-- A text ends in no blank, since no segment does. -/
theorem visible_last (path : Path) : ∀ c ∈ (renderRest path).getLast?, Text.isBlank c = false := by
  induction path with
  | nil => exact fun c last => by cases last
  | cons segment rest ih =>
    rcases segment.bare_or_quoted with bare | ⟨name, rfl, quoted⟩
    · obtain ⟨_, plain⟩ := Segment.text_of_isBare bare
      rw [renderRest_bare bare, ← List.cons_append]
      refine last_append (fun c last => ?_) ih
      rcases List.mem_cons.mp (List.mem_of_getLast? last) with rfl | inside
      · rfl
      · exact (plain c inside).2
    · have close : Segment.quotedKey name = '[' :: '\'' :: escaped name.toList ++ ['\''] ++ [']'] := by
        simp [Segment.quotedKey, escaped]
      rw [renderRest_quoted quoted, close]
      refine last_append (fun c last => ?_) ih
      rw [List.getLast?_concat] at last
      cases last
      rfl

theorem read_of_visible {cs : List Char} (some' : cs ≠ []) (first : ∀ c ∈ cs.head?, Text.isBlank c = false)
    (last : ∀ c ∈ cs.getLast?, Text.isBlank c = false) :
    read (String.ofList cs) = readFrom (.plain [] false) cs := by
  simp only [read, String.toList_ofList, Text.trim_eq_self first last, List.isEmpty_iff, if_neg some']

/-- A path is read from its text as if it stood behind another one. -/
theorem read_render {path : Path} (some' : path ≠ []) :
    read (render path) = readFrom (.plain [] true) (renderRest path) := by
  obtain ⟨segment, rest, rfl⟩ := List.exists_cons_of_ne_nil some'
  have last := visible_last (segment :: rest)
  rcases segment.bare_or_quoted with bare | ⟨name, rfl, quoted⟩
  · obtain ⟨spelled, plain⟩ := Segment.text_of_isBare bare
    rw [renderRest_bare bare] at last
    have text : render (segment :: rest) = String.ofList (segment.text.toList ++ renderRest rest) := by
      simp [render, renderRest_bare bare]
    have starts : step (.plain [] true) '.' = .ok (.plain [] false, []) := rfl
    rw [text, renderRest_bare bare, readFrom_cons_silent starts]
    refine read_of_visible (by simp [spelled]) (fun c first => ?_) (fun c ends => last c ?_)
    · rw [List.head?_append_of_ne_nil _ spelled] at first
      exact (plain c (List.mem_of_mem_head? first)).2
    · rw [List.getLast?_cons, ends]
      rfl
  · rw [renderRest_quoted quoted] at last
    have text : render (.key name :: rest) = String.ofList (Segment.quotedKey name ++ renderRest rest) := by
      simp [render, renderRest_quoted quoted, Segment.quotedKey]
    rw [text, renderRest_quoted quoted, readFrom_quotedKey, ← readFrom_quotedKey name false]
    refine read_of_visible (by simp [Segment.quotedKey]) (fun c first => ?_) last
    cases first
    rfl

theorem parse_eq_ok_iff {text : String} {path : Path} : parse text = .ok path ↔ read text = .ok path := by
  unfold parse
  cases read text <;> simp [Except.mapError]

/-- A path is read back from its text exactly if it has a segment and all its segments are readable. -/
theorem parse_render_iff (path : Path) :
    parse (render path) = .ok path ↔ path ≠ [] ∧ ∀ segment ∈ path, segment.isReadable = true := by
  rw [parse_eq_ok_iff]
  by_cases empty : path = []
  · subst empty
    have stops : read (render []) = .error .empty := rfl
    simp [stops]
  · rw [read_render empty, readFrom_renderRest_iff]
    simp [empty]

/-- A key with a quote is not read back. -/
theorem parse_render_ne_at_quote : parse (render [.key "it's"]) ≠ .ok [.key "it's"] := by
  intro found
  have stops : (parse (render [.key "it's"])).isOk = false := by decide +kernel
  rw [found] at stops
  cases stops

end Path

end StateScript
