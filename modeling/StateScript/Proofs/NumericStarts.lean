import Mathlib
import StateScript.Builtin.Number

/-!
The longest start of a text that is a decimal numeral and ends in a digit. A scan for it goes on over everything that
begins as such a numeral does, and marks the last digit that it has seen.
-/

namespace StateScript.Builtin

def AllDigits (cs : List Char) : Prop := ∀ c ∈ cs, c.isDigit = true

/-- A sign, or nothing. -/
inductive IsSign : List Char → Prop
  | none : IsSign []
  | plus : IsSign ['+']
  | minus : IsSign ['-']

/-- Digits, with a point behind or among them, or behind a point. -/
inductive IsMantissa : List Char → Prop
  | whole {ds : List Char} : ds ≠ [] → AllDigits ds → IsMantissa ds
  | pointed {ds fs : List Char} : ds ≠ [] → AllDigits ds → AllDigits fs → IsMantissa (ds ++ '.' :: fs)
  | fraction {fs : List Char} : fs ≠ [] → AllDigits fs → IsMantissa ('.' :: fs)

/-- An exponent, or nothing. -/
inductive IsExponent : List Char → Prop
  | none : IsExponent []
  | some {mark : Char} {sign ds : List Char} : mark = 'e' ∨ mark = 'E' → IsSign sign → ds ≠ [] → AllDigits ds →
      IsExponent (mark :: (sign ++ ds))

def EndsInDigit (cs : List Char) : Prop := ∃ c, cs.getLast? = some c ∧ c.isDigit = true

/-- A decimal numeral that ends in a digit. -/
structure IsDecimal (cs : List Char) : Prop where
  form : ∃ sign mantissa exponent, IsSign sign ∧ IsMantissa mantissa ∧ IsExponent exponent ∧
    cs = sign ++ (mantissa ++ exponent)
  ends : EndsInDigit cs

theorem AllDigits.nil : AllDigits [] := nofun

theorem AllDigits.concat {ds : List Char} {c : Char} (front : AllDigits ds) (digit : c.isDigit = true) :
    AllDigits (ds ++ [c]) := by
  intro d member
  rcases List.mem_append.mp member with old | last
  · exact front d old
  · rwa [List.mem_singleton.mp last]

theorem IsMantissa.of_digits {ds fs : List Char} (digits : AllDigits ds) (fraction : AllDigits fs)
    (some' : ds ≠ [] ∨ fs ≠ []) : IsMantissa (ds ++ '.' :: fs) := by
  by_cases none' : ds = []
  · subst none'
    exact .fraction (some'.resolve_left fun other => other rfl) fraction
  · exact .pointed none' digits fraction

theorem IsMantissa.head {mantissa : List Char} (isMantissa : IsMantissa mantissa) :
    ∃ c rest, mantissa = c :: rest ∧ (c.isDigit = true ∨ c = '.') := by
  cases isMantissa with
  | whole some' digits =>
    obtain ⟨d, ds, rfl⟩ := List.exists_cons_of_ne_nil some'
    exact ⟨d, ds, rfl, Or.inl (digits d (List.mem_cons_self ..))⟩
  | pointed some' digits _ =>
    obtain ⟨d, ds, rfl⟩ := List.exists_cons_of_ne_nil some'
    exact ⟨d, _, rfl, Or.inl (digits d (List.mem_cons_self ..))⟩
  | fraction _ _ => exact ⟨'.', _, rfl, Or.inr rfl⟩

theorem IsExponent.head {exponent : List Char} (isExponent : IsExponent exponent) :
    ∀ c ∈ exponent.head?, ¬ c.isDigit = true ∧ c ≠ '.' := by
  cases isExponent with
  | none => exact nofun
  | some isMark _ _ _ =>
    rintro c ⟨⟩
    rcases isMark with rfl | rfl <;> decide

namespace FloatScan

/-- What a scan has seen after some characters, unless it stops at one of them. -/
def over? (s : FloatScan) (cs : List Char) : Option FloatScan := cs.foldlM step? s

section

variable {s s' : FloatScan} {c : Char}

/-- A scan goes on with a digit, with a sign at the front or behind the exponent mark, with the first point in front
of the mark, and with the first mark behind a digit. -/
theorem step?_cases (next : s.step? c = some s') :
    (c.isDigit = true ∧
      s' = { s with read := s.read + 1, digit := true, markLast := false, valid := s.read + 1 }) ∨
    ((c = '+' ∨ c = '-') ∧ (s.read = 0 ∨ s.mark = true ∧ s.markLast = true) ∧
      s' = { s with read := s.read + 1, markLast := false }) ∨
    (c = '.' ∧ s.point = false ∧ s.mark = false ∧
      s' = { s with read := s.read + 1, point := true, markLast := false }) ∨
    ((c = 'e' ∨ c = 'E') ∧ s.digit = true ∧ s.mark = false ∧
      s' = { s with read := s.read + 1, mark := true, markLast := true }) := by
  unfold step? at next
  split at next
  · rename_i digit
    exact Or.inl ⟨digit, (Option.some.inj next).symm⟩
  split at next
  · rename_i sign
    split at next
    · rename_i here
      exact Or.inr (Or.inl ⟨sign, here, (Option.some.inj next).symm⟩)
    · cases next
  split at next
  · rename_i point
    split at next
    · cases next
    · rename_i first
      rw [not_or, Bool.not_eq_true, Bool.not_eq_true] at first
      exact Or.inr (Or.inr (Or.inl ⟨point, first.1, first.2, (Option.some.inj next).symm⟩))
  split at next
  · rename_i mark
    split at next
    · rename_i first
      rw [Bool.not_eq_true'] at first
      exact Or.inr (Or.inr (Or.inr ⟨mark, first.1, first.2, (Option.some.inj next).symm⟩))
    · cases next
  · cases next

theorem step?_digit (digit : c.isDigit = true) : s.step? c =
    some { s with read := s.read + 1, digit := true, markLast := false, valid := s.read + 1 } := by
  rw [step?, if_pos digit]

theorem step?_sign (sign : c = '+' ∨ c = '-') (here : s.read = 0 ∨ s.mark = true ∧ s.markLast = true) :
    s.step? c = some { s with read := s.read + 1, markLast := false } := by
  have other : ¬ c.isDigit = true := by rcases sign with rfl | rfl <;> decide
  rw [step?, if_neg other, if_pos sign, if_pos here]

theorem step?_point (first : s.point = false) (front : s.mark = false) :
    s.step? '.' = some { s with read := s.read + 1, point := true, markLast := false } := by
  rw [step?, if_neg (by decide), if_neg (by decide), if_pos rfl, if_neg (by simp [first, front])]

theorem step?_mark (mark : c = 'e' ∨ c = 'E') (digit : s.digit = true) (first : s.mark = false) :
    s.step? c = some { s with read := s.read + 1, mark := true, markLast := true } := by
  have other : ¬ c.isDigit = true ∧ ¬ (c = '+' ∨ c = '-') ∧ ¬ c = '.' := by rcases mark with rfl | rfl <;> decide
  rw [step?, if_neg other.1, if_neg other.2.1, if_neg other.2.2, if_pos mark, if_pos (by simp [digit, first])]

end

section

variable {s s' t : FloatScan} {cs ds : List Char}

theorem over?_append : s.over? (cs ++ ds) = (s.over? cs).bind (over? · ds) := List.foldlM_append

theorem over?_singleton (c : Char) : s.over? [c] = s.step? c := by
  simp only [over?, List.foldlM_cons, List.foldlM_nil, bind_pure]

/-- A scan that goes on over the front of a text goes on behind it. -/
theorem run_append (front : s.over? cs = some s') (rest : List Char) : s.run (cs ++ rest) = s'.run rest := by
  induction cs generalizing s with
  | nil =>
    cases front
    rfl
  | cons c cs ih =>
    rw [over?, List.foldlM_cons] at front
    obtain ⟨between, next, front⟩ := Option.bind_eq_some_iff.mp front
    rw [List.cons_append, run, next]
    exact ih front

/-- What a scan has seen at its end it has seen passed a front of the text. -/
theorem exists_over? (s : FloatScan) (cs : List Char) :
    ∃ front rest, cs = front ++ rest ∧ s.over? front = some (s.run cs) := by
  induction cs generalizing s with
  | nil => exact ⟨[], [], rfl, rfl⟩
  | cons c cs ih =>
    cases next : s.step? c with
    | none => exact ⟨[], c :: cs, rfl, by rw [run, next]; rfl⟩
    | some t =>
      obtain ⟨front, rest, rfl, seen⟩ := ih t
      refine ⟨c :: front, rest, rfl, ?_⟩
      rw [run, next, over?, List.foldlM_cons, next]
      exact seen

end

/-- What a scan takes the characters for that it has read: a sign and digits, with a point among them, or the front
of an exponent behind them. -/
inductive Reading : List Char → FloatScan → Prop
  | whole {s : FloatScan} {sign ds : List Char} : IsSign sign → AllDigits ds → s.point = false → s.mark = false →
      (s.digit = true ↔ ds ≠ []) → Reading (sign ++ ds) s
  | pointed {s : FloatScan} {sign ds fs : List Char} : IsSign sign → AllDigits ds → AllDigits fs → s.mark = false →
      s.point = true → (s.digit = true ↔ ds ≠ [] ∨ fs ≠ []) → Reading (sign ++ (ds ++ '.' :: fs)) s
  | marked {s : FloatScan} {sign mantissa sign' ds : List Char} {mark : Char} : IsSign sign → IsMantissa mantissa →
      mark = 'e' ∨ mark = 'E' → IsSign sign' → AllDigits ds → s.mark = true →
      (s.markLast = true ↔ sign' = [] ∧ ds = []) → Reading (sign ++ (mantissa ++ mark :: (sign' ++ ds))) s

section

variable {s s' : FloatScan} {cs : List Char} {c : Char}

/-- With a digit at its end, what has been read is a numeral. -/
theorem Reading.isDecimal (reading : Reading cs s) (digit : s.digit = true) (ends : EndsInDigit cs) :
    IsDecimal cs := by
  refine ⟨?_, ends⟩
  cases reading with
  | @whole _ sign ds isSign digits _ _ seen =>
    exact ⟨sign, ds, [], isSign, .whole (seen.mp digit) digits, .none, by rw [List.append_nil]⟩
  | @pointed _ sign ds fs isSign digits fraction _ _ seen =>
    exact ⟨sign, ds ++ '.' :: fs, [], isSign, .of_digits digits fraction (seen.mp digit), .none,
      by rw [List.append_nil]⟩
  | @marked _ sign mantissa sign' ds mark isSign isMantissa isMark isSign' digits _ _ =>
    -- The text would end with the mark or with its sign.
    have some' : ds ≠ [] := by
      rintro rfl
      obtain ⟨last, same, digit⟩ := ends
      have other : ¬ last.isDigit = true := by
        cases isSign' <;> rcases isMark with rfl | rfl <;> simp at same <;> subst same <;> decide
      exact other digit
    exact ⟨sign, mantissa, _, isSign, isMantissa, .some isMark isSign' some' digits, rfl⟩

theorem Reading.digit (reading : Reading cs s) (digit : c.isDigit = true) : Reading (cs ++ [c])
    { s with read := s.read + 1, digit := true, markLast := false, valid := s.read + 1 } := by
  cases reading with
  | whole isSign digits first front _ =>
    rw [List.append_assoc]
    exact .whole isSign (digits.concat digit) first front (by simp)
  | pointed isSign digits fraction front point _ =>
    rw [List.append_assoc, List.append_assoc]
    exact .pointed isSign digits (fraction.concat digit) front point (by simp)
  | marked isSign isMantissa isMark isSign' digits marked _ =>
    rw [List.append_assoc, List.append_assoc, List.cons_append, List.append_assoc]
    exact .marked isSign isMantissa isMark isSign' (digits.concat digit) marked (by simp)

theorem Reading.sign (reading : Reading cs s) (sign : c = '+' ∨ c = '-') (read : s.read = cs.length)
    (here : s.read = 0 ∨ s.mark = true ∧ s.markLast = true) :
    Reading (cs ++ [c]) { s with read := s.read + 1, markLast := false } := by
  have isSign : IsSign [c] := by rcases sign with rfl | rfl <;> constructor
  rcases here with front | ⟨marked, last⟩
  · have empty : cs = [] := List.eq_nil_of_length_eq_zero (read.symm.trans front)
    cases reading with
    | whole isSign' digits first unmarked seen =>
      obtain ⟨rfl, rfl⟩ := List.append_eq_nil_iff.mp empty
      show Reading ([c] ++ []) _
      exact .whole isSign .nil first unmarked seen
    | pointed => simp at empty
    | marked => simp at empty
  · cases reading with
    | whole _ _ _ unmarked _ => cases marked.symm.trans unmarked
    | pointed _ _ _ unmarked _ _ => cases marked.symm.trans unmarked
    | marked isSign' isMantissa isMark _ _ _ behind =>
      obtain ⟨rfl, rfl⟩ := behind.mp last
      rw [List.append_assoc, List.append_assoc]
      show Reading (_ ++ (_ ++ _ :: ([c] ++ []))) _
      exact .marked isSign' isMantissa isMark isSign .nil marked (by simp)

theorem Reading.point (reading : Reading cs s) (first : s.point = false) (front : s.mark = false) :
    Reading (cs ++ ['.']) { s with read := s.read + 1, point := true, markLast := false } := by
  cases reading with
  | whole isSign digits _ _ seen =>
    rw [List.append_assoc]
    exact .pointed isSign digits .nil front rfl (by simpa using seen)
  | pointed _ _ _ _ point _ => cases first.symm.trans point
  | marked _ _ _ _ _ marked _ => cases front.symm.trans marked

theorem Reading.mark (reading : Reading cs s) (mark : c = 'e' ∨ c = 'E') (digit : s.digit = true)
    (front : s.mark = false) : Reading (cs ++ [c]) { s with read := s.read + 1, mark := true, markLast := true } := by
  cases reading with
  | whole isSign digits _ _ seen =>
    rw [List.append_assoc]
    exact .marked isSign (.whole (seen.mp digit) digits) mark .none .nil rfl (by simp)
  | pointed isSign digits fraction _ _ seen =>
    have isMantissa := IsMantissa.of_digits digits fraction (seen.mp digit)
    rw [List.append_assoc]
    exact .marked isSign isMantissa mark .none .nil rfl (by simp)
  | marked _ _ _ _ _ marked _ => cases front.symm.trans marked

/-- A scan has read some characters: it knows how many, and how many of them make the longest numeral so far. -/
structure Read (cs : List Char) (s : FloatScan) : Prop where
  read : s.read = cs.length
  valid : s.valid ≤ cs.length
  reading : Reading cs s
  start : s.digit = true → IsDecimal (cs.take s.valid)
  ends : EndsInDigit cs → s.digit = true ∧ s.valid = cs.length

theorem endsInDigit_concat : EndsInDigit (cs ++ [c]) ↔ c.isDigit = true := by
  unfold EndsInDigit
  rw [List.getLast?_concat]
  exact ⟨fun ⟨_, same, digit⟩ => Option.some.inj same ▸ digit, fun digit => ⟨c, rfl, digit⟩⟩

theorem Read.digit (seen : Read cs s) (digit : c.isDigit = true) : Read (cs ++ [c])
    { s with read := s.read + 1, digit := true, markLast := false, valid := s.read + 1 } := by
  have length : s.read + 1 = (cs ++ [c]).length := by rw [List.length_append, seen.read, List.length_singleton]
  have reading := seen.reading.digit digit
  refine ⟨length, length.le, reading, fun _ => ?_, fun _ => ⟨rfl, length⟩⟩
  show IsDecimal ((cs ++ [c]).take (s.read + 1))
  rw [length, List.take_length]
  exact reading.isDecimal rfl (endsInDigit_concat.mpr digit)

/-- A character that is no digit leaves the longest numeral as it is. -/
theorem Read.other (seen : Read cs s) (other : ¬ c.isDigit = true) (reading : Reading (cs ++ [c]) s')
    (read : s'.read = s.read + 1) (digit : s'.digit = s.digit) (valid : s'.valid = s.valid) : Read (cs ++ [c]) s' where
  read := by rw [read, seen.read, List.length_append, List.length_singleton]
  valid := by
    rw [valid, List.length_append]
    exact Nat.le_add_right_of_le seen.valid
  reading := reading
  start some' := by
    rw [valid, List.take_append_of_le_length seen.valid]
    exact seen.start (digit ▸ some')
  ends last := absurd (endsInDigit_concat.mp last) other

theorem Read.next (seen : Read cs s) (next : s.step? c = some s') : Read (cs ++ [c]) s' := by
  rcases step?_cases next with ⟨digit, rfl⟩ | ⟨sign, here, rfl⟩ | ⟨rfl, first, front, rfl⟩ | ⟨mark, digit, front, rfl⟩
  · exact seen.digit digit
  · exact seen.other (by rcases sign with rfl | rfl <;> decide) (seen.reading.sign sign seen.read here) rfl rfl rfl
  · exact seen.other (by decide) (seen.reading.point first front) rfl rfl rfl
  · exact seen.other (by rcases mark with rfl | rfl <;> decide) (seen.reading.mark mark digit front) rfl rfl rfl

theorem read_nil : Read [] {} where
  read := rfl
  valid := Nat.le_refl 0
  reading := .whole .none .nil rfl rfl (by simp)
  start := nofun
  ends := fun ⟨_, same, _⟩ => by cases same

theorem read_of_over? (passed : FloatScan.over? {} cs = some s) : Read cs s := by
  -- From the back, since each step goes on from what has been read in front of it.
  induction cs using List.reverseRecOn generalizing s with
  | nil =>
    cases passed
    exact read_nil
  | append_singleton front c ih =>
    rw [over?_append] at passed
    obtain ⟨between, before, next⟩ := Option.bind_eq_some_iff.mp passed
    rw [over?_singleton] at next
    exact (ih before).next next

/-- A scan goes on with digits, and has then seen one if there are any. -/
theorem over?_digits {ds : List Char} (digits : AllDigits ds) (s : FloatScan) : ∃ s', s.over? ds = some s' ∧
    s'.point = s.point ∧ s'.mark = s.mark ∧ (s.digit = true ∨ ds ≠ [] → s'.digit = true) := by
  induction ds generalizing s with
  | nil => exact ⟨s, rfl, rfl, rfl, fun some' => some'.resolve_right fun other => other rfl⟩
  | cons d ds ih =>
    have first := step?_digit (s := s) (digits d (List.mem_cons_self ..))
    obtain ⟨s', rest, point, mark, digit⟩ := ih (fun e member => digits e (List.mem_cons_of_mem _ member))
      { s with read := s.read + 1, digit := true, markLast := false, valid := s.read + 1 }
    refine ⟨s', ?_, point, mark, fun _ => digit (Or.inl rfl)⟩
    rw [over?, List.foldlM_cons, first]
    exact rest

theorem over?_sign {sign : List Char} (isSign : IsSign sign) (s : FloatScan)
    (here : s.read = 0 ∨ s.mark = true ∧ s.markLast = true) : ∃ s', s.over? sign = some s' ∧
    s'.point = s.point ∧ s'.mark = s.mark ∧ s'.digit = s.digit := by
  cases isSign with
  | none => exact ⟨s, rfl, rfl, rfl, rfl⟩
  | plus => exact ⟨_, (over?_singleton _).trans (step?_sign (Or.inl rfl) here), rfl, rfl, rfl⟩
  | minus => exact ⟨_, (over?_singleton _).trans (step?_sign (Or.inr rfl) here), rfl, rfl, rfl⟩

theorem over?_mantissa {mantissa : List Char} (isMantissa : IsMantissa mantissa) (s : FloatScan)
    (first : s.point = false) (front : s.mark = false) : ∃ s', s.over? mantissa = some s' ∧
    s'.mark = false ∧ s'.digit = true := by
  have behind {fs : List Char} (fraction : AllDigits fs) (t : FloatScan) (first : t.point = false)
      (front : t.mark = false) : ∃ s', t.over? ('.' :: fs) = some s' ∧ s'.mark = false ∧
        (t.digit = true ∨ fs ≠ [] → s'.digit = true) := by
    have point := step?_point first front
    obtain ⟨s', rest, _, mark, digit⟩ :=
      over?_digits fraction { t with read := t.read + 1, point := true, markLast := false }
    refine ⟨s', ?_, mark.trans front, digit⟩
    rw [over?, List.foldlM_cons, point]
    exact rest
  cases isMantissa with
  | whole some' digits =>
    obtain ⟨s', passed, _, mark, digit⟩ := over?_digits digits s
    exact ⟨s', passed, mark.trans front, digit (Or.inr some')⟩
  | pointed some' digits fraction =>
    obtain ⟨t, passed, point, mark, digit⟩ := over?_digits digits s
    obtain ⟨s', rest, mark', digit'⟩ := behind fraction t (point.trans first) (mark.trans front)
    refine ⟨s', ?_, mark', digit' (Or.inl (digit (Or.inr some')))⟩
    rw [over?_append, passed]
    exact rest
  | fraction some' fraction =>
    obtain ⟨s', rest, mark', digit'⟩ := behind fraction s first front
    exact ⟨s', rest, mark', digit' (Or.inr some')⟩

theorem over?_exponent {exponent : List Char} (isExponent : IsExponent exponent) (s : FloatScan)
    (digit : s.digit = true) (front : s.mark = false) : ∃ s', s.over? exponent = some s' := by
  cases isExponent with
  | none => exact ⟨s, rfl⟩
  | @some mark sign ds isMark isSign _ digits =>
    have first := step?_mark isMark digit front
    obtain ⟨t, passed, _⟩ := over?_sign isSign { s with read := s.read + 1, mark := true, markLast := true }
      (Or.inr ⟨rfl, rfl⟩)
    obtain ⟨s', rest, _⟩ := over?_digits digits t
    refine ⟨s', ?_⟩
    show (mark :: (sign ++ ds)).foldlM step? s = some s'
    rw [List.foldlM_cons, first]
    show over? _ (sign ++ ds) = some s'
    rw [over?_append, passed]
    exact rest

/-- A scan goes on over every decimal numeral at the front of a text. -/
theorem over?_decimal (decimal : IsDecimal cs) : ∃ s, FloatScan.over? {} cs = some s := by
  obtain ⟨sign, mantissa, exponent, isSign, isMantissa, isExponent, rfl⟩ := decimal.form
  obtain ⟨s, first, point, front, _⟩ := over?_sign isSign {} (Or.inl rfl)
  obtain ⟨t, second, front, digit⟩ := over?_mantissa isMantissa s point front
  obtain ⟨u, third⟩ := over?_exponent isExponent t digit front
  refine ⟨u, ?_⟩
  rw [over?_append, first, Option.bind_some, over?_append, second]
  exact third

/-- The longest numeral only grows. -/
theorem le_valid_run (seen : Read cs s) (rest : List Char) :
    s.valid ≤ (s.run rest).valid ∧ (s.digit = true → (s.run rest).digit = true) := by
  induction rest generalizing cs s with
  | nil => exact ⟨Nat.le_refl _, id⟩
  | cons c rest ih =>
    cases next : s.step? c with
    | none =>
      rw [run, next]
      exact ⟨Nat.le_refl _, id⟩
    | some s' =>
      obtain ⟨more, digit⟩ := ih (seen.next next)
      have bound := seen.valid
      have length := seen.read
      rw [run, next]
      rcases step?_cases next with ⟨_, rfl⟩ | ⟨_, _, rfl⟩ | ⟨_, _, _, rfl⟩ | ⟨_, _, _, rfl⟩
      · exact ⟨Nat.le_trans (by show s.valid ≤ s.read + 1; omega) more, fun _ => digit rfl⟩
      · exact ⟨more, digit⟩
      · exact ⟨more, digit⟩
      · exact ⟨more, digit⟩

end

end FloatScan

/-- The longest start of a text that is a decimal numeral. -/
structure LongestStart (start cs : List Char) : Prop where
  front : start <+: cs
  decimal : IsDecimal start
  longest : ∀ other, other <+: cs → IsDecimal other → other.length ≤ start.length

section

variable {cs start : List Char}

/-- A scan has seen a digit where a text begins with a numeral, and the numeral is no longer than what it marks. -/
theorem run_of_decimal (front : start <+: cs) (decimal : IsDecimal start) :
    (FloatScan.run {} cs).digit = true ∧ start.length ≤ (FloatScan.run {} cs).valid := by
  obtain ⟨rest, rfl⟩ := front
  obtain ⟨s, passed⟩ := FloatScan.over?_decimal decimal
  have seen := FloatScan.read_of_over? passed
  obtain ⟨digit, valid⟩ := seen.ends decimal.ends
  obtain ⟨more, still⟩ := FloatScan.le_valid_run seen rest
  rw [FloatScan.run_append passed]
  exact ⟨still digit, by omega⟩

/-- What a scan marks it has read. -/
theorem exists_read (cs : List Char) :
    ∃ front rest s, cs = front ++ rest ∧ FloatScan.over? {} front = some s ∧ FloatScan.run {} cs = s ∧
      FloatScan.Read front s ∧ cs.take s.valid = front.take s.valid := by
  obtain ⟨front, rest, rfl, passed⟩ := FloatScan.exists_over? {} cs
  have seen := FloatScan.read_of_over? passed
  exact ⟨front, rest, _, rfl, passed, rfl, seen, List.take_append_of_le_length seen.valid⟩

theorem longestStart_take (digit : (FloatScan.run {} cs).digit = true) :
    LongestStart (cs.take (FloatScan.run {} cs).valid) cs := by
  obtain ⟨front, rest, s, same, _, ran, seen, cut⟩ := exists_read cs
  rw [ran] at digit ⊢
  refine ⟨List.take_prefix _ _, cut ▸ seen.start digit, fun other before decimal => ?_⟩
  have long := (run_of_decimal before decimal).2
  rw [cut, List.length_take, Nat.min_eq_left seen.valid]
  rwa [ran] at long

theorem numericStart?_eq_some_iff : numericStart? cs = some start ↔ LongestStart start cs := by
  constructor
  · intro same
    unfold numericStart? at same
    dsimp only at same
    split at same
    · rename_i digit
      cases same
      exact longestStart_take digit
    · cases same
  · rintro ⟨front, decimal, longest⟩
    obtain ⟨digit, long⟩ := run_of_decimal front decimal
    have marked := longestStart_take digit
    have short := longest _ marked.front marked.decimal
    have same : cs.take (FloatScan.run {} cs).valid = start := by
      have within := marked.longest _ front decimal
      rw [List.prefix_iff_eq_take.mp front, List.prefix_iff_eq_take.mp marked.front, Nat.le_antisymm short within]
    rw [numericStart?, if_pos digit, same]

theorem numericStart?_eq_none_iff : numericStart? cs = none ↔ ∀ start, start <+: cs → ¬ IsDecimal start := by
  constructor
  · intro none' start front decimal
    obtain ⟨digit, _⟩ := run_of_decimal front decimal
    rw [numericStart?, if_pos digit] at none'
    cases none'
  · intro without
    by_contra some'
    obtain ⟨start, same⟩ := Option.ne_none_iff_exists'.mp some'
    have marked := numericStart?_eq_some_iff.mp same
    exact without start marked.front marked.decimal

end

end StateScript.Builtin
