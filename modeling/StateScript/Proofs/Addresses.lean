import StateScript.Proofs.Recognition
import StateScript.Proofs.WholeNumbers

/-!
Addresses: a name with steps behind it that members, digits, indices and quoted keys spell. An address can
be read as a path and as an expression; this module finds what each reader makes of it.
-/

namespace StateScript

/-- Spelled by decimal digits. -/
def IsDigits (cs : List Char) : Prop := cs ≠ [] ∧ ∀ c ∈ cs, c.isDigit = true

/-- One step of an address: `.name`, `.12`, `[12]` or `['key']`, with quotes of either kind. -/
inductive AddressStep where
  | name (text : String) (spelled : Lexeme.IsName text)
  | digits (cs : List Char) (spelled : IsDigits cs)
  | index (cs : List Char) (spelled : IsDigits cs)
  | key (quote : Char) (cs : List Char) (quotes : quote = '\'' ∨ quote = '"')
      (plain : ∀ c ∈ cs, c ≠ '\'' ∧ c ≠ '"' ∧ c ≠ '\\')

/-- A name that is no keyword, and steps behind it. -/
structure Address where
  root : String
  spelled : Lexeme.IsName root
  free : root ∉ Grammar.keywords
  steps : List AddressStep

namespace AddressStep

def text : AddressStep → List Char
  | name text _ => '.' :: text.toList
  | digits cs _ => '.' :: cs
  | index cs _ => '[' :: (cs ++ [']'])
  | key quote cs _ _ => '[' :: quote :: (cs ++ [quote, ']'])

/-- The segment of a path that a step stands for. -/
def segment : AddressStep → Segment
  | name text _ => .key text
  | digits cs _ => .ofDotted cs
  | index cs _ => .ofDotted cs
  | key _ cs _ _ => .key (String.ofList cs)

end AddressStep

namespace Address

/-- The steps of an address as they are written. -/
def textOf (steps : List AddressStep) : List Char := steps.flatMap AddressStep.text

def text (a : Address) : String := String.ofList (a.root.toList ++ textOf a.steps)

theorem textOf_cons (step : AddressStep) (rest : List AddressStep) :
    textOf (step :: rest) = step.text ++ textOf rest := rfl

end Address

theorem isDigits_toString (n : Nat) : IsDigits (toString n).toList := by
  have spelled : (toString n).toList = Nat.toDigits 10 n := by rw [Nat.toString_eq_repr, Nat.toList_repr]
  refine ⟨?_, fun c member => ?_⟩
  · intro empty
    rw [empty] at spelled
    exact Nat.toDigits_ne_nil spelled.symm
  · rw [spelled] at member
    exact Nat.isDigit_of_mem_toDigits (by decide) (by decide) member

namespace IsDigits

variable {cs : List Char} (spelled : IsDigits cs)

include spelled

theorem plain : ∀ c ∈ cs, c ≠ '.' ∧ c ≠ '[' ∧ c ≠ ']' ∧ c ≠ '\'' ∧ c ≠ '"' ∧ Text.isBlank c = false := by
  intro c member
  have digit := spelled.2 c member
  have char : Lexeme.isNameChar c = true := by simp [Lexeme.isNameChar, Char.isAlphanum, digit]
  refine ⟨?_, ?_, ?_, ?_, ?_, Lexeme.isBlank_of_isNameChar char⟩ <;> rintro rfl <;> cases digit

theorem position? : StateScript.position? (String.ofList cs) =
    if Decimal.naturalOf cs ≤ Word.max64 then some (Decimal.naturalOf cs) else none := by
  obtain ⟨c, rest, rfl⟩ := List.exists_cons_of_ne_nil spelled.1
  have unsigned : c ≠ '+' := by
    rintro rfl
    cases spelled.2 '+' (List.mem_cons_self ..)
  have all : (c :: rest).all Char.isDigit = true := List.all_eq_true.mpr spelled.2
  unfold StateScript.position?
  rw [String.toList_ofList]
  split
  · rename_i same
    cases same
    exact absurd rfl unsigned
  · simp only [all]
    rfl

theorem ofDotted : Segment.ofDotted cs =
    if Decimal.naturalOf cs ≤ Word.max64 then .index (Decimal.naturalOf cs) else .key (String.ofList cs) := by
  have star : cs ≠ ['*'] := by
    rintro rfl
    cases spelled.2 '*' (List.mem_cons_self ..)
  have all : cs.all Char.isDigit = true := List.all_eq_true.mpr spelled.2
  simp only [Segment.ofDotted, if_neg star, spelled.position?, all, if_true]
  split
  · rename_i i found
    split at found
    · cases found
      simp_all
    · cases found
  · rename_i found
    split at found
    · cases found
    · simp_all

end IsDigits

namespace Path

open Lexeme

theorem dotted_reverse {cs : List Char} (some' : cs ≠ []) : dotted cs.reverse = [.ofDotted cs] := by
  simp [dotted, some']

/-- Characters between brackets gather up to the closing one. -/
theorem readFrom_bracket {cs inner : List Char} (open' : ∀ c ∈ cs, c ≠ ']') {completed : List Segment}
    (closed : bracketed (cs.reverse ++ inner) = .ok completed) (rest : List Char) :
    readFrom (.bracket inner) (cs ++ ']' :: rest) = (readFrom (.plain [] true) rest).map (completed ++ ·) := by
  induction cs generalizing inner with
  | nil =>
    have stepped : step (.bracket inner) ']' = .ok (.plain [] true, completed) := by
      rw [List.reverse_nil, List.nil_append] at closed
      simp only [step, if_true, closed]
      rfl
    exact readFrom_cons stepped rest
  | cons c more ih =>
    have stepped : step (.bracket inner) c = .ok (.bracket (c :: inner), []) := by
      simp only [step, if_neg (open' c (List.mem_cons_self ..))]
    rw [List.cons_append, readFrom_cons_silent stepped]
    refine ih (fun d member => open' d (List.mem_cons_of_mem _ member)) ?_
    rw [← closed]
    simp

/-- Characters between quotes gather up to the closing one. -/
theorem readFrom_untilQuote {quote : Char} {cs : List Char} (plain : ∀ c ∈ cs, c ≠ quote)
    (inner rest : List Char) :
    readFrom (.quoted quote inner) (cs ++ quote :: rest) = readFrom (.closing (cs.reverse ++ inner)) rest := by
  induction cs generalizing inner with
  | nil =>
    have stepped : step (.quoted quote inner) quote = .ok (.closing inner, []) := by simp [step]
    exact readFrom_cons_silent stepped rest
  | cons c more ih =>
    have stepped : step (.quoted quote inner) c = .ok (.quoted quote (c :: inner), []) := by
      simp only [step, if_neg (plain c (List.mem_cons_self ..))]
    rw [List.cons_append, readFrom_cons_silent stepped,
      ih (fun d member => plain d (List.mem_cons_of_mem _ member)), List.reverse_cons, List.append_assoc,
      List.singleton_append]

theorem readFrom_closing (inner rest : List Char) : readFrom (.closing inner) (']' :: rest) =
    (readFrom (.plain [] true) rest).map ([.key (String.ofList inner.reverse)] ++ ·) :=
  readFrom_cons (by simp [step]) rest

theorem readFrom_quoted {quote : Char} {cs : List Char} (plain : ∀ c ∈ cs, c ≠ quote) (inner rest : List Char) :
    readFrom (.quoted quote inner) (cs ++ quote :: ']' :: rest) =
      (readFrom (.plain [] true) rest).map ([.key (String.ofList (inner.reverse ++ cs))] ++ ·) := by
  rw [readFrom_untilQuote plain, readFrom_closing, List.reverse_append, List.reverse_reverse]

theorem step_point {current : List Char} {afterBracket : Bool} (stands : current ≠ [] ∨ afterBracket = true) :
    step (.plain current afterBracket) '.' = .ok (.plain [] false, dotted current) := by
  rcases stands with gathered | rfl <;> simp_all [step]

theorem step_bracket (current : List Char) (afterBracket : Bool) :
    step (.plain current afterBracket) '[' = .ok (.opened, dotted current) := by
  simp [step]

/-- The steps of an address are the segments of a path. -/
theorem readFrom_steps (steps : List AddressStep) {current : List Char} {afterBracket : Bool}
    (stands : current ≠ [] ∨ afterBracket = true) :
    readFrom (.plain current afterBracket) (Address.textOf steps) =
      .ok (dotted current ++ steps.map AddressStep.segment) := by
  induction steps generalizing current afterBracket with
  | nil => rcases stands with gathered | rfl <;> simp_all [readFrom, Address.textOf, finish]
  | cons head rest ih =>
    -- A member gathers its characters, and what stands behind it completes them.
    have member {cs : List Char} (some' : cs ≠ []) (plain : ∀ c ∈ cs, c ≠ '.' ∧ c ≠ '[') :
        readFrom (.plain current afterBracket) ('.' :: (cs ++ Address.textOf rest)) =
          .ok (dotted current ++ .ofDotted cs :: rest.map AddressStep.segment) := by
      have gathered : cs.reverse ++ [] ≠ [] := by simpa using some'
      rw [readFrom_cons (step_point stands), readFrom_plain plain [] _ some', ih (Or.inl gathered),
        List.append_nil, dotted_reverse some']
      rfl
    rw [Address.textOf_cons]
    cases head with
    | name text spelled =>
      rw [AddressStep.text, List.cons_append, member spelled.ne_nil (plain_of_name spelled), ofDotted_name spelled]
      rfl
    | digits cs spelled =>
      have plain := spelled.plain
      exact member spelled.1 fun c inside => ⟨(plain c inside).1, (plain c inside).2.1⟩
    | index cs spelled =>
      have plain := spelled.plain
      have trimmed : Text.trim cs = cs := by
        apply Text.trim_eq_self
        · exact fun c first => (plain c (List.mem_of_mem_head? first)).2.2.2.2.2
        · exact fun c last => (plain c (List.mem_of_getLast? last)).2.2.2.2.2
      obtain ⟨c, more, rfl⟩ := List.exists_cons_of_ne_nil spelled.1
      obtain ⟨_, _, close, single, double, _⟩ := plain c (List.mem_cons_self ..)
      have opened : step .opened c = .ok (.bracket [c], []) := by simp [step, single, double, close]
      have closed : bracketed (more.reverse ++ [c]) = .ok [.ofDotted (c :: more)] := by
        simp [bracketed, trimmed]
      have inside := readFrom_bracket (fun d member => (plain d (List.mem_cons_of_mem _ member)).2.2.1) closed
        (Address.textOf rest)
      rw [AddressStep.text, List.cons_append, List.append_assoc, List.cons_append,
        readFrom_cons (step_bracket current afterBracket), readFrom_cons_silent opened, List.singleton_append,
        inside, ih (Or.inr rfl)]
      rfl
    | key quote cs quotes plain =>
      have unquoted : ∀ c ∈ cs, c ≠ quote := by
        intro c inside same
        obtain ⟨single, double, _⟩ := plain c inside
        rcases quotes with rfl | rfl
        · exact single same
        · exact double same
      have opened : step .opened quote = .ok (.quoted quote [], []) := by simp [step, quotes]
      have inside := readFrom_quoted unquoted [] (Address.textOf rest)
      rw [AddressStep.text, List.cons_append, List.cons_append, List.append_assoc,
        readFrom_cons (step_bracket current afterBracket), readFrom_cons_silent opened, List.cons_append,
        List.cons_append, List.nil_append, inside, ih (Or.inr rfl)]
      rfl

end Path

namespace Address

variable (a : Address)

theorem toList_text : a.text.toList = a.root.toList ++ textOf a.steps := String.toList_ofList

theorem last_of_step (step : AddressStep) : ∃ c, step.text.getLast? = some c ∧ Text.isBlank c = false := by
  cases step with
  | name text spelled =>
    refine ⟨text.toList.getLast spelled.ne_nil, ?_,
      Lexeme.isBlank_of_isNameChar (spelled.chars _ (List.getLast_mem spelled.ne_nil))⟩
    rw [AddressStep.text, List.getLast?_cons, List.getLast?_eq_some_getLast spelled.ne_nil]
    rfl
  | digits cs spelled =>
    refine ⟨cs.getLast spelled.1, ?_, (spelled.plain _ (List.getLast_mem spelled.1)).2.2.2.2.2⟩
    rw [AddressStep.text, List.getLast?_cons, List.getLast?_eq_some_getLast spelled.1]
    rfl
  | index cs spelled => exact ⟨']', by simp [AddressStep.text, List.getLast?_cons], rfl⟩
  | key quote cs quotes plain => exact ⟨']', by simp [AddressStep.text, List.getLast?_cons], rfl⟩

theorem trim_text : Text.trim a.text.toList = a.text.toList := by
  rw [toList_text]
  apply Text.trim_eq_self
  · intro c first
    obtain ⟨d, rest, same, start, _⟩ := a.spelled
    rw [same] at first
    cases first
    exact Lexeme.isBlank_of_isNameChar (Lexeme.isNameChar_of_isNameStart start)
  · intro c last
    rcases List.eq_nil_or_concat a.steps with none' | ⟨front, step, same⟩
    · rw [none', textOf, List.flatMap_nil, List.append_nil] at last
      exact Lexeme.isBlank_of_isNameChar (a.spelled.chars c (List.mem_of_getLast? last))
    · obtain ⟨d, ends, visible⟩ := last_of_step step
      rw [same, textOf, List.concat_eq_append, List.flatMap_append, ← List.append_assoc, List.getLast?_append] at last
      simp only [List.flatMap_cons, List.flatMap_nil, List.append_nil, ends, Option.some_or,
        Option.mem_def, Option.some.injEq] at last
      rw [← last]
      exact visible

/-- An address is the path from its name along its steps. -/
theorem read_text : Path.read a.text = .ok (.key a.root :: a.steps.map AddressStep.segment) := by
  have some' : a.root.toList ++ textOf a.steps ≠ [] := by simp [a.spelled.ne_nil]
  have gathered : a.root.toList.reverse ++ [] ≠ [] := by simpa using a.spelled.ne_nil
  have trimmed := a.trim_text
  rw [toList_text] at trimmed
  unfold Path.read
  simp only [toList_text, trimmed, List.isEmpty_iff, if_neg some']
  rw [Path.readFrom_plain (Path.plain_of_name a.spelled) [] _ a.spelled.ne_nil, Path.readFrom_steps _ (Or.inl gathered),
    List.append_nil, Path.dotted_reverse a.spelled.ne_nil, Path.ofDotted_name a.spelled]
  rfl

end Address

end StateScript
