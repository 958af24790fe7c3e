import StateScript.Expr.Dependencies
import StateScript.Expr.Lexeme
import StateScript.Proofs.Runs
import StateScript.Proofs.Templates

/-!
Names as paths. A name of an expression is a path of one segment, and with a wildcard behind it a
path that starts with that segment, so the paths that an expression depends on lead back to the
names in it.
-/

namespace StateScript

namespace Lexeme

/-- Spelled as a name: a letter, an underscore or a dollar sign, then also digits. -/
def IsName (text : String) : Prop :=
  ∃ c rest, text.toList = c :: rest ∧ isNameStart c = true ∧ ∀ d ∈ rest, isNameChar d = true

theorem isNameChar_of_isNameStart {c : Char} (start : isNameStart c = true) : isNameChar c = true := by
  simp only [isNameStart, isNameChar, Char.isAlphanum, Bool.or_eq_true] at start ⊢
  rcases start with (alpha | low) | dollar
  · exact Or.inl (Or.inl (Or.inl alpha))
  · exact Or.inl (Or.inr low)
  · exact Or.inr dollar

theorem isAlpha_iff_toNat {c : Char} :
    c.isAlpha = true ↔ 65 ≤ c.toNat ∧ c.toNat ≤ 90 ∨ 97 ≤ c.toNat ∧ c.toNat ≤ 122 := by
  simp only [Char.isAlpha, Char.isUpper, Char.isLower, Bool.or_eq_true, Bool.and_eq_true,
    decide_eq_true_eq, ge_iff_le, UInt32.le_iff_toNat_le]
  exact Iff.rfl

theorem isNameChar_range {c : Char} (char : isNameChar c = true) :
    48 ≤ c.toNat ∧ c.toNat ≤ 57 ∨ 65 ≤ c.toNat ∧ c.toNat ≤ 90 ∨ 97 ≤ c.toNat ∧ c.toNat ≤ 122 ∨
      c.toNat = 95 ∨ c.toNat = 36 := by
  simp only [isNameChar, Char.isAlphanum, Bool.or_eq_true, beq_iff_eq] at char
  rcases char with ((alpha | digit) | rfl) | rfl
  · have letters := isAlpha_iff_toNat.mp alpha
    omega
  · exact Or.inl (Char.isDigit_iff_toNat.mp digit)
  · exact Or.inr (Or.inr (Or.inr (Or.inl rfl)))
  · exact Or.inr (Or.inr (Or.inr (Or.inr rfl)))

theorem isDigit_of_isNameStart {c : Char} (start : isNameStart c = true) : c.isDigit = false := by
  rw [Bool.eq_false_iff]
  intro digit
  have digits : 48 ≤ c.toNat ∧ c.toNat ≤ 57 := Char.isDigit_iff_toNat.mp digit
  simp only [isNameStart, Bool.or_eq_true, beq_iff_eq] at start
  rcases start with (alpha | rfl) | rfl
  · have letters := isAlpha_iff_toNat.mp alpha
    omega
  · exact absurd digits (by decide)
  · exact absurd digits (by decide)

theorem isBlank_of_isNameChar {c : Char} (char : isNameChar c = true) : Text.isBlank c = false := by
  have range := isNameChar_range char
  unfold Text.isBlank
  simp only [Bool.or_eq_false_iff, Bool.and_eq_false_iff, decide_eq_false_iff_not, beq_eq_false_iff_ne]
  omega

theorem ne_of_isNameChar {c d : Char} (char : isNameChar c = true) (other : isNameChar d = false) :
    c ≠ d := by
  rintro rfl
  rw [char] at other
  cases other

theorem IsName.chars {text : String} (name : IsName text) : ∀ c ∈ text.toList, isNameChar c = true := by
  obtain ⟨c, rest, spelled, start, more⟩ := name
  rw [spelled]
  intro d member
  rcases List.mem_cons.mp member with rfl | behind
  · exact isNameChar_of_isNameStart start
  · exact more d behind

theorem IsName.ne_nil {text : String} (name : IsName text) : text.toList ≠ [] := by
  obtain ⟨c, rest, spelled, _, _⟩ := name
  simp [spelled]

/-- The scanner for names finds names. -/
theorem isName_of_nameLength? {cs : List Char} {n : Nat} (scan : nameLength? cs = some n) :
    IsName (String.ofList (cs.take n)) := by
  cases cs with
  | nil => cases scan
  | cons c rest =>
    simp only [nameLength?] at scan
    split at scan
    · rename_i start
      obtain rfl := Option.some.inj scan
      have front : rest.take (rest.takeWhile isNameChar).length = rest.takeWhile isNameChar :=
        (List.prefix_iff_eq_take.mp (List.takeWhile_prefix isNameChar)).symm
      refine ⟨c, rest.takeWhile isNameChar, ?_, start, List.all_eq_true.mp List.all_takeWhile⟩
      rw [Nat.add_comm, List.take_succ_cons, front, String.toList_ofList]
    · cases scan

theorem IsName.position? {text : String} (name : IsName text) : StateScript.position? text = none := by
  obtain ⟨c, rest, spelled, start, _⟩ := name
  have letter := isDigit_of_isNameStart start
  have unsigned : c ≠ '+' := ne_of_isNameChar (isNameChar_of_isNameStart start) rfl
  unfold StateScript.position?
  rw [spelled]
  split
  · rename_i signed
    cases signed
    exact absurd rfl unsigned
  · simp [letter]

end Lexeme

namespace Path

open Lexeme

theorem readFrom_cons {mode after : Mode} {c : Char} {completed : List Segment}
    (stepped : step mode c = .ok (after, completed)) (rest : List Char) :
    readFrom mode (c :: rest) = (readFrom after rest).map (completed ++ ·) := by
  simp only [readFrom, stepped, ok_bind]
  cases readFrom after rest <;> rfl

/-- A character that completes no segment only changes where the reader stands. -/
theorem readFrom_cons_silent {mode after : Mode} {c : Char} (stepped : step mode c = .ok (after, []))
    (rest : List Char) : readFrom mode (c :: rest) = readFrom after rest := by
  rw [readFrom_cons stepped]
  cases readFrom after rest <;> rfl

/-- Characters other than points and opening brackets gather into one segment. -/
theorem readFrom_plain {cs : List Char} (plain : ∀ c ∈ cs, c ≠ '.' ∧ c ≠ '[') (current rest : List Char)
    (some' : cs ≠ []) (afterBracket : Bool) :
    readFrom (.plain current afterBracket) (cs ++ rest) =
      readFrom (.plain (cs.reverse ++ current) false) rest := by
  induction cs generalizing current afterBracket with
  | nil => exact absurd rfl some'
  | cons c behind ih =>
    obtain ⟨point, bracket⟩ := plain c (List.mem_cons_self ..)
    have stepped : step (.plain current afterBracket) c = .ok (.plain (c :: current) false, []) := by
      simp only [step, if_neg point, if_neg bracket]
    rw [List.cons_append, readFrom_cons_silent stepped]
    cases behind with
    | nil => rfl
    | cons d more =>
      rw [ih (fun e member => plain e (List.mem_cons_of_mem _ member)) (c :: current) (by simp) false]
      simp

theorem ofDotted_name {text : String} (name : IsName text) : Segment.ofDotted text.toList = .key text := by
  have star : text.toList ≠ ['*'] := by
    intro same
    have char := name.chars '*' (by simp [same])
    cases char
  unfold Segment.ofDotted
  simp [star, String.ofList_toList, name.position?]

theorem plain_of_name {text : String} (name : IsName text) : ∀ c ∈ text.toList, c ≠ '.' ∧ c ≠ '[' :=
  fun c member => ⟨ne_of_isNameChar (name.chars c member) rfl, ne_of_isNameChar (name.chars c member) rfl⟩

/-- A name is the path to itself. -/
theorem read_name {text : String} (name : IsName text) : read text = .ok [.key text] := by
  have trimmed : Text.trim text.toList = text.toList := by
    apply Text.trim_eq_self
    · intro c first
      exact isBlank_of_isNameChar (name.chars c (List.mem_of_mem_head? first))
    · intro c last
      exact isBlank_of_isNameChar (name.chars c (List.mem_of_getLast? last))
  have gathered := readFrom_plain (plain_of_name name) [] [] name.ne_nil false
  simp only [List.append_nil] at gathered
  unfold read
  simp only [trimmed, List.isEmpty_iff, if_neg name.ne_nil, gathered, readFrom, finish, dotted]
  simp [name.ne_nil, ofDotted_name name]

theorem wildcardOf_name {text : String} (name : IsName text) : wildcardOf text = text ++ ".*" := by
  unfold wildcardOf
  rw [if_neg]
  intro ends
  obtain ⟨front, same⟩ := List.isSuffixOf_iff_suffix.mp ends
  have char := name.chars '.' (by rw [← same]; simp)
  cases char

/-- A name with a wildcard is the path to itself and everything below it. -/
theorem read_wildcardOf_name {text : String} (name : IsName text) :
    read (wildcardOf text) = .ok [.key text, .wildcard] := by
  have spelled : (wildcardOf text).toList = text.toList ++ ['.', '*'] := by
    rw [wildcardOf_name name, String.toList_append]
    rfl
  have trimmed : Text.trim (text.toList ++ ['.', '*']) = text.toList ++ ['.', '*'] := by
    apply Text.trim_eq_self
    · intro c first
      obtain ⟨d, rest, spelled, start, _⟩ := name
      have same : c = d := by simpa [spelled] using first.symm
      rw [same]
      exact isBlank_of_isNameChar (isNameChar_of_isNameStart start)
    · intro c last
      have star : c = '*' := by simpa using last.symm
      subst star
      rfl
  have gathered := readFrom_plain (plain_of_name name) [] ['.', '*'] name.ne_nil false
  have completed : dotted (text.toList.reverse ++ []) = [.key text] := by
    simp [dotted, name.ne_nil, ofDotted_name name]
  have point : step (.plain (text.toList.reverse ++ []) false) '.' =
      .ok (.plain [] false, [.key text]) := by
    rw [← completed]
    simp [step, name.ne_nil]
  have star : readFrom (.plain [] false) ['*'] = .ok [.wildcard] := rfl
  unfold read
  simp only [spelled, trimmed, gathered, readFrom_cons point, star]
  simp [Except.map]

end Path

end StateScript
