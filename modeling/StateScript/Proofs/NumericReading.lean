import StateScript.Proofs.NumericStarts
import StateScript.Proofs.WholeNumbers

/-!
The number at the start of a text. The bytes that a scan marks are whole characters, every decimal numeral is read as a
number, and a text is not a number exactly if no start of it is a decimal numeral.
-/

namespace StateScript

namespace Binary64

theorem isNaN_ofBits {b : UInt64} (finite : b.toNat / 2 ^ 52 % 2 ^ 11 ≠ 2047) : (Float.ofBits b).isNaN = false := by
  rw [Float.isNaN_eq_decide_eq_nan, decide_eq_false_iff_not]
  intro same
  have bits : b = Float.nan.toBits := by rw [← same, toBits_ofBits finite]
  have value : Float.nan.toBits.toNat = 2047 * 2 ^ 52 + 2 ^ 51 := by decide +kernel
  rw [bits, value] at finite
  exact finite (by decide)

theorem isNaN_infinity (negative : Bool) : (infinity negative).isNaN = false := by
  cases negative <;> decide +kernel

theorem isNaN_bounded (negative : Bool) (bits : Nat) :
    (if 2047 * Nat.pow 2 52 ≤ bits then infinity negative
      else Float.ofBits (UInt64.ofNat (signBit negative + bits))).isNaN = false := by
  have bound : signBit negative = 0 ∨ signBit negative = 2 ^ 63 := by cases negative <;> decide
  split
  · exact isNaN_infinity negative
  · rename_i within
    rw [Nat.pow_eq] at within
    refine isNaN_ofBits ?_
    rw [UInt64.toNat_ofNat']
    omega

/-- A quotient is rounded to a number. -/
theorem isNaN_nearest (negative : Bool) (num den : Nat) : (nearest negative num den).isNaN = false := by
  unfold nearest
  dsimp only
  by_cases zero : num = 0
  · rw [if_pos zero]
    cases negative <;> exact isNaN_ofBits (by decide)
  · rw [if_neg zero]
    exact isNaN_bounded negative _

theorem isNaN_ofDecimal (negative : Bool) (digits : Nat) (e : Int) : (ofDecimal negative digits e).isNaN = false := by
  unfold ofDecimal
  dsimp only
  split_ifs
  · exact isNaN_nearest _ _ _
  · exact isNaN_infinity _
  · exact isNaN_nearest _ _ _
  · exact isNaN_nearest _ _ _
  · exact isNaN_nearest _ _ _

end Binary64

namespace Builtin

/-- The bytes of a text in UTF-8. -/
def utf8 (cs : List Char) : List UInt8 := cs.flatMap String.utf8EncodeChar

/-- Bytes, each as the character of that number. -/
def byteChars (bytes : List UInt8) : List Char := bytes.map fun b => Char.ofNat b.toNat

theorem toNat_byteChar (b : UInt8) : (Char.ofNat b.toNat).toNat = b.toNat := by
  have bound := b.toNat_lt
  have valid : b.toNat.isValidChar := Or.inl (by omega)
  rw [Char.toNat_ofNat, if_pos valid]

theorem utf8EncodeChar_cases (c : Char) :
    (c.toNat < 128 ∧ ∃ b, String.utf8EncodeChar c = [b] ∧ Char.ofNat b.toNat = c) ∨
    (128 ≤ c.toNat ∧ ∃ b rest, String.utf8EncodeChar c = b :: rest ∧ 128 ≤ b.toNat) := by
  have number : c.val.toNat = c.toNat := rfl
  unfold String.utf8EncodeChar
  rw [number]
  dsimp only
  split
  · rename_i small
    refine Or.inl ⟨by omega, _, rfl, ?_⟩
    rw [UInt8.toNat_ofNat', Nat.mod_eq_of_lt (by omega), Char.ofNat_toNat]
  · split
    · refine Or.inr ⟨by omega, _, _, rfl, ?_⟩
      rw [UInt8.toNat_ofNat']
      omega
    · split
      · refine Or.inr ⟨by omega, _, _, rfl, ?_⟩
        rw [UInt8.toNat_ofNat']
        omega
      · refine Or.inr ⟨by omega, _, _, rfl, ?_⟩
        rw [UInt8.toNat_ofNat']
        omega

namespace FloatScan

variable {s s' : FloatScan} {c : Char} {cs : List Char}

theorem step?_large (large : 128 ≤ c.toNat) : s.step? c = none := by
  have other (d : Char) (small : d.toNat < 128) : c ≠ d := by
    rintro rfl
    omega
  have digit : ¬ c.isDigit = true := by
    rw [Char.isDigit_iff_toNat]
    rintro ⟨_, within⟩
    have last : '9'.toNat = 57 := rfl
    omega
  rw [step?, if_neg digit, if_neg (by rintro (same | same) <;> exact other _ (by decide) same),
    if_neg (other _ (by decide)), if_neg (by rintro (same | same) <;> exact other _ (by decide) same)]

/-- A scan over bytes stops where one over characters does: at the first byte of a character that is no single one. -/
theorem run_bytes (s : FloatScan) (cs : List Char) : s.run (byteChars (utf8 cs)) = s.run cs := by
  induction cs generalizing s with
  | nil => rfl
  | cons c cs ih =>
    have bytes : byteChars (utf8 (c :: cs)) = byteChars (String.utf8EncodeChar c) ++ byteChars (utf8 cs) := by
      rw [utf8, List.flatMap_cons, byteChars, List.map_append]
      rfl
    rw [bytes]
    rcases utf8EncodeChar_cases c with ⟨_, b, single, same⟩ | ⟨large, b, rest, several, first⟩
    · rw [single]
      show s.run (Char.ofNat b.toNat :: byteChars (utf8 cs)) = _
      rw [same, run, run]
      cases s.step? c with
      | none => rfl
      | some t => exact ih t
    · rw [several]
      show s.run (Char.ofNat b.toNat :: _) = _
      rw [run, run, step?_large large, step?_large (by rwa [toNat_byteChar])]

theorem ascii_of_over? (passed : s.over? cs = some s') : ∀ c ∈ cs, c.toNat < 128 := by
  induction cs generalizing s with
  | nil => exact nofun
  | cons d cs ih =>
    rw [over?, List.foldlM_cons] at passed
    obtain ⟨t, next, passed⟩ := Option.bind_eq_some_iff.mp passed
    intro c member
    rcases List.mem_cons.mp member with rfl | behind
    · by_contra large
      rw [step?_large (Nat.not_lt.mp large)] at next
      cases next
    · exact ih passed c behind

end FloatScan

theorem length_utf8 {cs : List Char} (ascii : ∀ c ∈ cs, c.toNat < 128) : (utf8 cs).length = cs.length := by
  induction cs with
  | nil => rfl
  | cons c cs ih =>
    have small := ascii c (List.mem_cons_self ..)
    rcases utf8EncodeChar_cases c with ⟨_, b, single, _⟩ | ⟨large, _⟩
    · rw [utf8, List.flatMap_cons, single, List.length_append, ← utf8,
        ih fun d behind => ascii d (List.mem_cons_of_mem _ behind)]
      exact Nat.add_comm _ _
    · omega

theorem size_ofList (cs : List Char) : (String.ofList cs).rawEndPos = ⟨(utf8 cs).length⟩ := by
  have bytes : (String.ofList cs).toByteArray = (utf8 cs).toByteArray := String.toByteArray_ofList
  rw [String.rawEndPos, ← String.size_toByteArray, bytes, List.size_toByteArray]

/-- How many bytes of a text a scan over them marks. -/
def byteEnd (cs : List Char) : Nat := (FloatScan.run {} (byteChars (utf8 cs))).valid

/-- A start of a text made up of whole characters, which are the first bytes of the text. -/
structure IsSlice (start cs : List Char) (stop : Nat) : Prop where
  boundary : (String.Pos.Raw.mk stop).IsValid (String.ofList cs)
  bytes : utf8 start = (utf8 cs).take stop

/-- The bytes that a scan marks are those of the characters that it marks, so they end with a character. -/
theorem LongestStart.isSlice {start cs : List Char} (longest : LongestStart start cs) :
    IsSlice start cs (byteEnd cs) := by
  obtain ⟨front, rest, s, same, passed, ran, seen, cut⟩ := exists_read cs
  have stop : byteEnd cs = s.valid := by rw [byteEnd, FloatScan.run_bytes, ran]
  have marked : start = front.take s.valid := by
    have taken := numericStart?_eq_some_iff.mpr longest
    rw [numericStart?, ran, if_pos (ran ▸ (run_of_decimal longest.front longest.decimal).1), cut] at taken
    exact (Option.some.inj taken).symm
  -- All that is marked are characters of one byte, so they are as many as their bytes.
  have size : (utf8 start).length = byteEnd cs := by
    rw [length_utf8 fun c member => FloatScan.ascii_of_over? passed c (List.mem_of_mem_take (marked ▸ member)),
      marked, List.length_take, Nat.min_eq_left seen.valid, stop]
  obtain ⟨behind, rfl⟩ := longest.front
  constructor
  · refine String.Pos.Raw.isValid_iff_exists_append.mpr ⟨.ofList start, .ofList behind, String.ofList_append, ?_⟩
    rw [size_ofList, size]
  · rw [← size, utf8, utf8, List.flatMap_append, List.take_left]

theorem span_digits {ds : List Char} (rest : List Char) (digits : AllDigits ds)
    (stops : ∀ c ∈ rest.head?, ¬ c.isDigit = true) :
    (ds ++ rest).takeWhile Char.isDigit = ds ∧ (ds ++ rest).dropWhile Char.isDigit = rest := by
  rw [List.takeWhile_append_of_pos digits, List.dropWhile_append_of_pos digits]
  cases rest with
  | nil => exact ⟨List.append_nil ds, rfl⟩
  | cons c rest =>
    have other := stops c rfl
    rw [List.takeWhile_cons_of_neg other, List.dropWhile_cons_of_neg other]
    exact ⟨List.append_nil ds, rfl⟩

end Builtin

namespace Decimal

open Builtin

theorem signed_append {sign : List Char} (rest : List Char) (isSign : IsSign sign)
    (first : ∀ c ∈ rest.head?, c ≠ '+' ∧ c ≠ '-') : ∃ negative, signed (sign ++ rest) = (negative, rest) := by
  cases isSign with
  | plus => exact ⟨false, rfl⟩
  | minus => exact ⟨true, rfl⟩
  | none =>
    refine ⟨false, ?_⟩
    rw [List.nil_append]
    unfold signed
    split
    · exact absurd rfl (first _ rfl).2
    · exact absurd rfl (first _ rfl).1
    · rfl

theorem exponent?_some {exponent : List Char} (isExponent : IsExponent exponent) :
    ∃ e, exponent? exponent = some e := by
  cases isExponent with
  | none => exact ⟨0, rfl⟩
  | @some mark sign ds isMark isSign some' digits =>
    obtain ⟨d, more, rfl⟩ := List.exists_cons_of_ne_nil some'
    have first := digits d (List.mem_cons_self ..)
    obtain ⟨negative, same⟩ := signed_append (d :: more) isSign (by
      rintro c ⟨⟩
      constructor <;> rintro rfl <;> cases first)
    have all : (d :: more).all Char.isDigit = true := List.all_eq_true.mpr digits
    refine ⟨if negative then -(naturalOf (d :: more) : Int) else naturalOf (d :: more), ?_⟩
    rw [exponent?, if_pos isMark, same]
    simp only [List.isEmpty_cons, all, Bool.not_true, Bool.or_self, Bool.false_eq_true, if_false]

theorem unsigned?_pointed {ds fs exponent : List Char} (digits : AllDigits ds) (fraction : AllDigits fs)
    (some' : ds ≠ [] ∨ fs ≠ []) (isExponent : IsExponent exponent) (negative : Bool) :
    ∃ n e, unsigned? negative (ds ++ '.' :: (fs ++ exponent)) = some (Binary64.ofDecimal negative n e) := by
  obtain ⟨whole, behind⟩ := span_digits ('.' :: (fs ++ exponent)) digits (by
    rintro c ⟨⟩
    decide)
  obtain ⟨part, rest⟩ := span_digits exponent fraction fun c first => (isExponent.head c first).1
  obtain ⟨e, same⟩ := exponent?_some isExponent
  have any : ¬ (ds.isEmpty && fs.isEmpty) = true := by
    rw [Bool.and_eq_true, List.isEmpty_iff, List.isEmpty_iff, not_and_or]
    exact some'
  refine ⟨naturalOf (ds ++ fs), e - fs.length, ?_⟩
  simp only [unsigned?, whole, behind, part, rest, if_neg any, same, Option.map_some]

theorem unsigned?_whole {ds exponent : List Char} (digits : AllDigits ds) (some' : ds ≠ [])
    (isExponent : IsExponent exponent) (negative : Bool) :
    ∃ n e, unsigned? negative (ds ++ exponent) = some (Binary64.ofDecimal negative n e) := by
  obtain ⟨whole, behind⟩ := span_digits exponent digits fun c first => (isExponent.head c first).1
  obtain ⟨e, same⟩ := exponent?_some isExponent
  have any : ¬ (ds.isEmpty && ([] : List Char).isEmpty) = true := by
    rw [Bool.and_eq_true, List.isEmpty_iff, not_and_or]
    exact Or.inl some'
  refine ⟨naturalOf (ds ++ []), e - ([] : List Char).length, ?_⟩
  unfold unsigned?
  simp only [whole, behind]
  split
  · exact absurd rfl (isExponent.head '.' rfl).2
  · simp only [if_neg any, same, Option.map_some]

/-- Every decimal numeral is read as a number. -/
theorem read?_isDecimal {cs : List Char} (decimal : IsDecimal cs) : ∃ x, read? cs = some x ∧ x.isNaN = false := by
  obtain ⟨sign, mantissa, exponent, isSign, isMantissa, isExponent, rfl⟩ := decimal.form
  obtain ⟨c, rest, head, first⟩ := isMantissa.head
  obtain ⟨negative, same⟩ := signed_append (mantissa ++ exponent) isSign (by
    subst head
    rintro d ⟨⟩
    constructor <;> rintro rfl <;> rcases first with digit | point <;> contradiction)
  have unsigned : ∃ n e, unsigned? negative (mantissa ++ exponent) = some (Binary64.ofDecimal negative n e) := by
    cases isMantissa with
    | whole some' digits => exact unsigned?_whole digits some' isExponent negative
    | pointed some' digits fraction =>
      rw [List.append_assoc]
      exact unsigned?_pointed digits fraction (Or.inl some') isExponent negative
    | fraction some' fraction => exact unsigned?_pointed .nil fraction (Or.inr some') isExponent negative
  obtain ⟨n, e, value⟩ := unsigned
  refine ⟨_, ?_, Binary64.isNaN_ofDecimal negative n e⟩
  rw [← value]
  subst head
  exact read?_unsigned first same

end Decimal

namespace Builtin

/-- What follows the blanks at the front of a text. -/
def behindBlanks (text : String) : List Char := Text.trimStart text.toList

theorem parseFloat_eq {text : String}
    (finite : ∀ sign, IsSign sign → ¬ sign ++ "Infinity".toList <+: behindBlanks text) :
    parseFloat text = ((numericStart? (behindBlanks text)).bind Decimal.read?).getD Binary64.nan := by
  have other (sign : List Char) (isSign : IsSign sign) :
      ¬ (sign ++ "Infinity".toList).isPrefixOf (behindBlanks text) = true := by
    rw [List.isPrefixOf_iff_prefix]
    exact finite sign isSign
  have minus : ¬ "-Infinity".toList.isPrefixOf (behindBlanks text) = true := other _ .minus
  have positive : ¬ ("Infinity".toList.isPrefixOf (behindBlanks text) ||
      "+Infinity".toList.isPrefixOf (behindBlanks text)) = true := by
    rw [Bool.or_eq_true, not_or]
    exact ⟨other _ .none, other _ .plus⟩
  rw [parseFloat, ← behindBlanks, if_neg positive, if_neg minus]

/-- The number of a text that does not begin with an infinity is that of its longest start that is a decimal numeral,
and there is none where no start is. -/
theorem parseFloat_reads_longest (text : String)
    (finite : ∀ sign, IsSign sign → ¬ sign ++ "Infinity".toList <+: behindBlanks text) :
    (∀ start, numericStart? (behindBlanks text) = some start ↔ LongestStart start (behindBlanks text)) ∧
    (∀ start, LongestStart start (behindBlanks text) → Decimal.read? start = some (parseFloat text) ∧
      IsSlice start (behindBlanks text) (byteEnd (behindBlanks text))) ∧
    ((parseFloat text).isNaN = true ↔ ∀ start, start <+: behindBlanks text → ¬ IsDecimal start) := by
  have value := parseFloat_eq finite
  generalize behindBlanks text = cs at value ⊢
  have accepted (start : List Char) (longest : LongestStart start cs) : Decimal.read? start = some (parseFloat text) ∧
      (parseFloat text).isNaN = false := by
    obtain ⟨x, read, number⟩ := Decimal.read?_isDecimal longest.decimal
    rw [value, numericStart?_eq_some_iff.mpr longest, Option.bind_some, read]
    exact ⟨rfl, number⟩
  refine ⟨fun _ => numericStart?_eq_some_iff, fun start longest => ⟨(accepted start longest).1, longest.isSlice⟩, ?_⟩
  rw [← numericStart?_eq_none_iff]
  constructor
  · intro none'
    by_contra some'
    obtain ⟨start, same⟩ := Option.ne_none_iff_exists'.mp some'
    have number := (accepted start (numericStart?_eq_some_iff.mp same)).2
    rw [none'] at number
    cases number
  · intro none'
    rw [value, none']
    rfl

theorem parseFloat_reads_longest_dangling :
    (∀ sign, IsSign sign → ¬ sign ++ "Infinity".toList <+: behindBlanks "\t-.5e+é") ∧
    LongestStart "-.5".toList (behindBlanks "\t-.5e+é") ∧
    Decimal.read? "-.5".toList = some (parseFloat "\t-.5e+é") := by
  have finite : ∀ sign, IsSign sign → ¬ sign ++ "Infinity".toList <+: behindBlanks "\t-.5e+é" := by
    rintro sign (_ | _ | _) <;> decide
  obtain ⟨start, read, _⟩ := parseFloat_reads_longest "\t-.5e+é" finite
  have longest := (start "-.5".toList).mp (by decide)
  exact ⟨finite, longest, (read _ longest).1⟩

end Builtin

end StateScript
