import StateScript.Expr.Escape
import StateScript.Proofs.Numerals

/-!
Escapes in string literals. A raw text is taken apart, from left to right, into characters that stand for themselves
and escapes, and is refused exactly if that is not possible. Numbers of characters have four hexadecimal digits, but
a plus sign may stand for the first of them.
-/

namespace StateScript.Escape

/-- A part of a raw text that stands for one character: the character itself, a backslash and a character, or a
backslash, `u` and digits. -/
inductive Piece where
  | plain (c : Char)
  | short (c : Char)
  | coded (digits : List Char)

/-- The text of a piece. -/
def Piece.raw : Piece → List Char
  | plain c => [c]
  | short c => ['\\', c]
  | coded digits => '\\' :: 'u' :: digits

/-- The character that a backslash in front of another one stands for. -/
def shortFor (c : Char) : Char :=
  if c = 'n' then '\n' else if c = 't' then '\t' else if c = 'r' then '\r' else if c = '0' then '\x00' else c

/-- Hexadecimal digits in either case are the number of a character. -/
def Names (digits : List Char) (c : Char) : Prop := Positional 16 (digits.map Char.toLower) c.toNat

/-- The character that a piece denotes. -/
inductive Piece.Denotes : Piece → Char → Prop
  | plain {c : Char} : c ≠ '\\' → Denotes (.plain c) c
  | short {c : Char} : c ≠ 'u' → Denotes (.short c) (shortFor c)
  | coded {digits : List Char} {c : Char} : digits.length = 4 → Names digits c → Denotes (.coded digits) c

/-- The character that a piece is taken for, which may have a sign in place of its first digit. -/
inductive Piece.TakenFor : Piece → Char → Prop
  | denoted {p : Piece} {c : Char} : p.Denotes c → TakenFor p c
  | signed {digits : List Char} {c : Char} : digits.length = 3 → Names digits c → TakenFor (.coded ('+' :: digits)) c

/-- A raw text consists of pieces that stand, one by one, for the characters of a text. -/
def StandsFor (sense : Piece → Char → Prop) (raw text : List Char) : Prop :=
  ∃ pieces : List Piece, raw = pieces.flatMap Piece.raw ∧ List.Forall₂ sense pieces text

section

variable {c : Char} {n : Nat}

theorem scalar?_eq_some_iff : scalar? n = some c ↔ c.toNat = n := by
  unfold scalar?
  constructor
  · intro found
    split at found
    · rename_i valid
      cases found
      rw [Char.toNat_ofNat, if_pos valid]
    · cases found
  · rintro rfl
    have valid : c.toNat < 0xD800 ∨ 0xDFFF < c.toNat ∧ c.toNat < 0x110000 := c.valid
    rw [if_pos valid, Char.ofNat_toNat]

theorem hexDigit?_eq_none (large : 128 ≤ c.toNat) : hexDigit? c = none := by
  have behind (low high : Char) (small : high.toNat < 128) : ¬ (low ≤ c ∧ c ≤ high) := by
    rintro ⟨_, within⟩
    have bound : c.toNat ≤ high.toNat := within
    omega
  rw [hexDigit?, if_neg (behind _ _ (by decide)), if_neg (behind _ _ (by decide)), if_neg (behind _ _ (by decide))]

theorem toLower_eq_self (large : 128 ≤ c.toNat) : c.toLower = c := by
  have outside : ¬ (c.val ≥ 'A'.val ∧ c.val ≤ 'Z'.val) := by
    rintro ⟨_, within⟩
    have bound : c.toNat ≤ 'Z'.toNat := within
    have last : 'Z'.toNat = 90 := rfl
    omega
  rw [Char.toLower, dif_neg outside]

/-- The value of a hexadecimal digit is its place in the order of the digits. -/
theorem hexDigit?_eq_some_iff {v : Nat} : hexDigit? c = some v ↔ v < 16 ∧ digitOrder[v]? = some c.toLower := by
  by_cases large : 128 ≤ c.toNat
  · have order : digitOrder.all (fun d => d.toNat < 128) = true := by rfl
    rw [hexDigit?_eq_none large, toLower_eq_self large]
    refine ⟨nofun, fun ⟨_, value⟩ => ?_⟩
    have small := of_decide_eq_true (List.all_eq_true.mp order c (List.mem_of_getElem? value))
    omega
  · have table : ∀ k < 128, (∀ w ∈ hexDigit? (Char.ofNat k), w < 16) ∧
        ∀ w < 16, hexDigit? (Char.ofNat k) = some w ↔ digitOrder[w]? = some (Char.ofNat k).toLower := by
      decide +kernel
    have own := table c.toNat (by omega)
    rw [Char.ofNat_toNat] at own
    constructor
    · intro found
      have bound := own.1 v found
      exact ⟨bound, (own.2 v bound).mp found⟩
    · rintro ⟨bound, value⟩
      exact (own.2 v bound).mpr value

theorem hexValue?_eq_some_iff {cs : List Char} :
    hexValue? cs = some n ↔ Positional 16 (cs.map Char.toLower) n := by
  induction cs using List.reverseRecOn generalizing n with
  | nil =>
    rw [List.map_nil, Positional.nil_iff]
    exact ⟨fun zero => (Option.some.inj zero).symm, fun zero => congrArg some zero.symm⟩
  | append_singleton front last ih =>
    have split : hexValue? (front ++ [last]) =
        (hexValue? front).bind fun m => (hexDigit? last).map fun v => 16 * m + v := by
      rw [hexValue?, List.foldlM_append]
      simp only [List.foldlM_cons, List.foldlM_nil, bind_pure]
      rfl
    rw [List.map_append, List.map_singleton, Positional.concat_iff, split, Option.bind_eq_some_iff]
    simp only [Option.map_eq_some_iff, hexDigit?_eq_some_iff, ih]
    constructor
    · rintro ⟨m, spelled, v, ⟨bound, value⟩, rfl⟩
      exact ⟨m, v, spelled, bound, value, Nat.add_comm _ _⟩
    · rintro ⟨m, v, spelled, bound, value, rfl⟩
      exact ⟨m, spelled, v, ⟨bound, value⟩, Nat.add_comm _ _⟩

theorem fourDigits?_eq_some_iff {digits : List Char} : fourDigits? digits = some n ↔
    Positional 16 (digits.map Char.toLower) n ∨
      ∃ rest, digits = '+' :: rest ∧ Positional 16 (rest.map Char.toLower) n := by
  -- A plus sign is no digit, so there is only one way to read it.
  have unsigned (rest : List Char) : ¬ Positional 16 (('+' :: rest).map Char.toLower) n := fun spelled =>
    absurd (spelled.mem_digitOrder (List.mem_cons_self ..)) (by decide)
  unfold fourDigits?
  split
  · rename_i rest
    rw [hexValue?_eq_some_iff]
    constructor
    · exact fun spelled => Or.inr ⟨rest, rfl, spelled⟩
    · rintro (spelled | ⟨_, same, spelled⟩)
      · exact absurd spelled (unsigned rest)
      · cases same
        exact spelled
  · rename_i other
    rw [hexValue?_eq_some_iff]
    constructor
    · exact Or.inl
    · rintro (spelled | ⟨rest, same, _⟩)
      · exact spelled
      · exact absurd same (other rest)

/-- Four characters are taken for a character exactly if their piece is. -/
theorem takenFor_coded_iff {digits : List Char} (four : digits.length = 4) :
    Piece.TakenFor (.coded digits) c ↔ (fourDigits? digits).bind scalar? = some c := by
  rw [Option.bind_eq_some_iff]
  simp only [fourDigits?_eq_some_iff, scalar?_eq_some_iff]
  constructor
  · intro taken
    cases taken with
    | denoted denoted =>
      cases denoted with
      | coded _ names => exact ⟨_, Or.inl names, rfl⟩
    | signed _ names => exact ⟨_, Or.inr ⟨_, rfl, names⟩, rfl⟩
  · rintro ⟨n, spelled | ⟨rest, rfl, spelled⟩, rfl⟩
    · exact .denoted (.coded four spelled)
    · exact .signed (Nat.succ.inj four) spelled

end

section

variable {c : Char}

theorem decode?_plain (plain : c ≠ '\\') (rest : List Char) :
    decode? (c :: rest) = (decode? rest).map (c :: ·) := by
  rw [decode?] <;> intros <;> exact plain ‹c = '\\'›

theorem decode?_short (short : c ≠ 'u') (rest : List Char) :
    decode? ('\\' :: c :: rest) = (decode? rest).map (shortFor c :: ·) := by
  by_cases line : c = 'n'
  · rw [line, decode?]
    rfl
  by_cases tab : c = 't'
  · rw [tab, decode?]
    rfl
  by_cases back : c = 'r'
  · rw [back, decode?]
    rfl
  by_cases zero : c = '0'
  · rw [zero, decode?]
    rfl
  rw [shortFor, if_neg line, if_neg tab, if_neg back, if_neg zero, decode?]
  all_goals intros; contradiction

theorem decode?_coded {digits : List Char} (four : digits.length = 4) (rest : List Char) :
    decode? ('\\' :: 'u' :: (digits ++ rest)) =
      ((fourDigits? digits).bind scalar?).bind fun c => (decode? rest).map (c :: ·) := by
  match digits, four with
  | [a, b, c, d], _ =>
    show decode? ('\\' :: 'u' :: a :: b :: c :: d :: rest) = _
    rw [decode?]
    cases fourDigits? [a, b, c, d] with
    | none => rfl
    | some n =>
      show ((scalar? n).bind fun c => (decode? rest).bind fun text => some (c :: text)) =
        (scalar? n).bind fun c => (decode? rest).map (c :: ·)
      cases decode? rest <;> rfl

theorem decode?_cut_off {tail : List Char} (few : tail.length < 4) : decode? ('\\' :: 'u' :: tail) = none := by
  rw [decode?]
  rintro a b c d rest rfl
  simp at few
  omega

end

/-- A piece is cut where one may be: what stands for itself is no backslash, and what a backslash makes an escape of
is `u` exactly in front of four characters. -/
def Piece.IsCut : Piece → Prop
  | plain c => c ≠ '\\'
  | short c => c ≠ 'u'
  | coded digits => digits.length = 4

section

variable {p q : Piece} {c : Char} {raw text : List Char}

theorem Piece.TakenFor.isCut (taken : p.TakenFor c) : p.IsCut := by
  cases taken with
  | denoted denoted => cases denoted <;> assumption
  | signed three _ => exact congrArg Nat.succ three

/-- A text is cut into pieces in one way only, from the left. -/
theorem eq_of_raw_append {rest others : List Char} (first : p.IsCut) (second : q.IsCut)
    (same : p.raw ++ rest = q.raw ++ others) : p = q ∧ rest = others := by
  cases p with
  | plain c =>
    cases q with
    | plain d =>
      obtain ⟨rfl, rfl⟩ := List.cons.inj same
      exact ⟨rfl, rfl⟩
    | short d => exact absurd (List.cons.inj same).1 first
    | coded es => exact absurd (List.cons.inj same).1 first
  | short c =>
    cases q with
    | plain d => exact absurd (List.cons.inj same).1.symm second
    | short d =>
      obtain ⟨rfl, rfl⟩ := List.cons.inj (List.cons.inj same).2
      exact ⟨rfl, rfl⟩
    | coded es => exact absurd (List.cons.inj (List.cons.inj same).2).1 first
  | coded ds =>
    cases q with
    | plain d => exact absurd (List.cons.inj same).1.symm second
    | short d => exact absurd (List.cons.inj (List.cons.inj same).2).1.symm second
    | coded es =>
      have tails : ds ++ rest = es ++ others := (List.cons.inj (List.cons.inj same).2).2
      obtain ⟨rfl, rfl⟩ := List.append_inj tails (Eq.trans first (Eq.symm second))
      exact ⟨rfl, rfl⟩

/-- One piece in front of a text is one character in front of what the text is decoded to. -/
theorem decode?_raw_append (taken : p.TakenFor c) (rest : List Char) :
    decode? (p.raw ++ rest) = (decode? rest).map (c :: ·) := by
  cases p with
  | plain d =>
    cases taken with
    | denoted denoted =>
      cases denoted with
      | plain other => exact decode?_plain other rest
  | short d =>
    cases taken with
    | denoted denoted =>
      cases denoted with
      | short other => exact decode?_short other rest
  | coded digits =>
    have four : digits.length = 4 := taken.isCut
    have found := (takenFor_coded_iff four).mp taken
    show decode? ('\\' :: 'u' :: (digits ++ rest)) = _
    rw [decode?_coded four, found, Option.bind_some]

/-- What is decoded is empty or begins with a piece. -/
theorem exists_piece (decoded : decode? raw = some text) : raw = [] ∧ text = [] ∨
    ∃ p c rest tail, raw = Piece.raw p ++ rest ∧ p.TakenFor c ∧ text = c :: tail ∧ decode? rest = some tail := by
  cases raw with
  | nil => exact Or.inl ⟨rfl, (Option.some.inj decoded).symm⟩
  | cons first rest =>
    right
    by_cases escaped : first = '\\'
    · subst escaped
      cases rest with
      | nil => cases decoded
      | cons second rest =>
        by_cases coded : second = 'u'
        · subst coded
          by_cases few : rest.length < 4
          · rw [decode?_cut_off few] at decoded
            cases decoded
          · have four : (rest.take 4).length = 4 := by
              rw [List.length_take]
              omega
            rw [← List.take_append_drop 4 rest, decode?_coded four, Option.bind_eq_some_iff] at decoded
            obtain ⟨c, found, behind⟩ := decoded
            obtain ⟨tail, last, rfl⟩ := Option.map_eq_some_iff.mp behind
            refine ⟨.coded (rest.take 4), c, rest.drop 4, tail, ?_, (takenFor_coded_iff four).mpr found, rfl, last⟩
            show _ = '\\' :: 'u' :: (rest.take 4 ++ rest.drop 4)
            rw [List.take_append_drop]
        · rw [decode?_short coded] at decoded
          obtain ⟨tail, last, rfl⟩ := Option.map_eq_some_iff.mp decoded
          exact ⟨.short second, _, rest, tail, rfl, .denoted (.short coded), rfl, last⟩
    · rw [decode?_plain escaped] at decoded
      obtain ⟨tail, last, rfl⟩ := Option.map_eq_some_iff.mp decoded
      exact ⟨.plain first, _, rest, tail, rfl, .denoted (.plain escaped), rfl, last⟩

theorem Piece.raw_ne_nil (p : Piece) : p.raw ≠ [] := by
  cases p <;> exact List.cons_ne_nil _ _

/-- A text is decoded to what its pieces are taken for. -/
theorem decode?_eq_some_iff : decode? raw = some text ↔ StandsFor Piece.TakenFor raw text := by
  constructor
  · intro decoded
    induction size : raw.length using Nat.strong_induction_on generalizing raw text with
    | _ n ih =>
      rcases exists_piece decoded with ⟨rfl, rfl⟩ | ⟨p, c, rest, tail, rfl, taken, rfl, last⟩
      · exact ⟨[], rfl, .nil⟩
      · have shorter : rest.length < n := by
          have some' := List.length_pos_of_ne_nil p.raw_ne_nil
          rw [List.length_append] at size
          omega
        obtain ⟨pieces, same, stand⟩ := ih _ shorter last rfl
        exact ⟨p :: pieces, by rw [same, List.flatMap_cons], .cons taken stand⟩
  · rintro ⟨pieces, rfl, stand⟩
    induction stand with
    | nil => rfl
    | cons taken _ ih => rw [List.flatMap_cons, decode?_raw_append taken, ih, Option.map_some]

/-- The pieces of a text are given with it. -/
theorem pieces_unique {ps qs : List Piece} (first : ∀ p ∈ ps, p.IsCut) (second : ∀ q ∈ qs, q.IsCut)
    (same : ps.flatMap Piece.raw = qs.flatMap Piece.raw) : ps = qs := by
  induction ps generalizing qs with
  | nil =>
    cases qs with
    | nil => rfl
    | cons q qs => exact absurd (List.append_eq_nil_iff.mp same.symm).1 q.raw_ne_nil
  | cons p ps ih =>
    cases qs with
    | nil => exact absurd (List.append_eq_nil_iff.mp same).1 p.raw_ne_nil
    | cons q qs =>
      rw [List.flatMap_cons, List.flatMap_cons] at same
      obtain ⟨rfl, behind⟩ := eq_of_raw_append (first p (List.mem_cons_self ..)) (second q (List.mem_cons_self ..)) same
      rw [ih (fun p member => first p (List.mem_cons_of_mem _ member))
        (fun q member => second q (List.mem_cons_of_mem _ member)) behind]

theorem exists_sense {sense : Piece → Char → Prop} {pieces : List Piece} (stand : List.Forall₂ sense pieces text)
    (member : p ∈ pieces) : ∃ c, sense p c := by
  induction stand with
  | nil => cases member
  | cons here _ ih =>
    rcases List.mem_cons.mp member with rfl | behind
    · exact ⟨_, here⟩
    · exact ih behind

theorem not_denotes_signed {digits : List Char} : ¬ (Piece.coded ('+' :: digits)).Denotes c := by
  intro denoted
  cases denoted with
  | coded _ names => exact absurd (names.mem_digitOrder (List.mem_cons_self ..)) (by decide)

theorem denotes_of_unsigned {pieces : List Piece} (stand : List.Forall₂ Piece.TakenFor pieces text)
    (unsigned : ∀ digits, Piece.coded ('+' :: digits) ∉ pieces) : List.Forall₂ Piece.Denotes pieces text := by
  induction stand with
  | nil => exact .nil
  | cons taken _ ih =>
    refine .cons ?_ (ih fun digits behind => unsigned digits (List.mem_cons_of_mem _ behind))
    cases taken with
    | denoted denoted => exact denoted
    | signed _ _ => exact absurd (List.mem_cons_self ..) (unsigned _)

/-- Where pieces that denote characters make up a text, there is no other way to take it. -/
theorem StandsFor.denotes {pieces : List Piece} (stands : StandsFor Piece.Denotes raw text)
    (cut : ∀ p ∈ pieces, p.IsCut) (same : raw = pieces.flatMap Piece.raw) : ∀ p ∈ pieces, ∃ c, p.Denotes c := by
  obtain ⟨others, own, denote⟩ := stands
  have cuts : ∀ q ∈ others, q.IsCut := fun q member =>
    (Piece.TakenFor.denoted (exists_sense denote member).choose_spec).isCut
  obtain rfl : others = pieces := pieces_unique cuts cut (own.symm.trans same)
  exact fun p member => exists_sense denote member

end

/-- A raw text is decoded although a number in it has a sign. -/
def HasSigned (raw : List Char) : Prop :=
  ∃ pieces text, raw = pieces.flatMap Piece.raw ∧ List.Forall₂ Piece.TakenFor pieces text ∧
    ∃ digits, Piece.coded ('+' :: digits) ∈ pieces

/-- A raw text is decoded to what its pieces are taken for, and this is what they denote exactly if none of their
numbers has a sign. -/
theorem decode?_denotes_iff (raw : List Char) :
    (∀ text, decode? raw = some text ↔ StandsFor Piece.TakenFor raw text) ∧
    ((∀ text, decode? raw = some text ↔ StandsFor Piece.Denotes raw text) ↔ ¬ HasSigned raw) := by
  refine ⟨fun text => decode?_eq_some_iff, fun exact' => ?_, fun unsigned text => ?_⟩
  · rintro ⟨pieces, text, same, taken, digits, member⟩
    have decoded := decode?_eq_some_iff.mpr ⟨pieces, same, taken⟩
    have cut : ∀ p ∈ pieces, p.IsCut := fun p among => (exists_sense taken among).choose_spec.isCut
    obtain ⟨c, denoted⟩ := ((exact' text).mp decoded).denotes cut same _ member
    exact not_denotes_signed denoted
  · rw [decode?_eq_some_iff]
    constructor
    · rintro ⟨pieces, same, taken⟩
      exact ⟨pieces, same, denotes_of_unsigned taken fun digits member =>
        unsigned ⟨pieces, text, same, taken, digits, member⟩⟩
    · rintro ⟨pieces, same, denote⟩
      exact ⟨pieces, same, denote.imp fun _ _ => .denoted⟩

/-- A sign and three digits are read as the number of a character. -/
theorem signed_number_decoded : decode? ['\\', 'u', '+', '0', '4', '1'] = some ['A'] ∧
    ¬ ∃ text, StandsFor Piece.Denotes ['\\', 'u', '+', '0', '4', '1'] text := by
  refine ⟨by rfl, ?_⟩
  rintro ⟨text, stands⟩
  have cut : ∀ p ∈ [Piece.coded ['+', '0', '4', '1']], p.IsCut := by
    intro p member
    rw [List.mem_singleton.mp member]
    rfl
  obtain ⟨c, denoted⟩ := stands.denotes cut rfl _ (List.mem_singleton_self _)
  exact not_denotes_signed denoted

end StateScript.Escape
