import Mathlib
import StateScript.Decimal.Reader
import StateScript.Word

/-!
Numerals of natural numbers as doubles. A numeral is read as the nearest double, which is the number
itself as long as its significant bits fit a double.
-/

namespace StateScript

namespace Binary64

open Float.Model Float.Model.UnpackedFloat

section

variable {b : UInt64}

theorem unpackExponent_toNat (b : BitVec 64) :
    (@unpackExponent Format.binary64 b).toNat = b.toNat / 2 ^ 52 % 2 ^ 11 := by
  rw [unpackExponent_def]
  simp [BitVec.extractLsb'_toNat, Nat.shiftRight_eq_div_pow]

theorem isNaNBits_of_ne (finite : b.toNat / 2 ^ 52 % 2 ^ 11 ≠ 2047) :
    @isNaNBits Format.binary64 b.toBitVec = false := by
  have regular : @unpackExponent Format.binary64 b.toBitVec ≠ -1#_ := by
    intro same
    have value := congrArg BitVec.toNat same
    have top : (-1#11 : BitVec 11).toNat = 2047 := by decide
    rw [unpackExponent_toNat] at value
    change b.toNat / 2 ^ 52 % 2 ^ 11 = (-1#11 : BitVec 11).toNat at value
    omega
  exact decide_eq_false fun both => regular both.1

theorem toBits_ofBits (finite : b.toNat / 2 ^ 52 % 2 ^ 11 ≠ 2047) : (Float.ofBits b).toBits = b := by
  apply UInt64.toBitVec_inj.mp
  show pack Format.binary64 (UnpackedFloat.unpack Format.binary64 b.toBitVec) = b.toBitVec
  rw [pack_unpack _ (by decide), isNaNBits_of_ne finite]
  rfl

theorem zero_le_ofBits (finite : b.toNat < 2047 * 2 ^ 52) : (0 : Float) ≤ Float.ofBits b := by
  have same : (Float.ofBits b).toModel.unpack = UnpackedFloat.unpack Format.binary64 b.toBitVec := by
    have bits := toBits_ofBits (b := b) (by omega)
    show UnpackedFloat.unpack Format.binary64 (Float.ofBits b).toBits.toBitVec = _
    rw [bits]
  have zero : (0 : Float).toModel.unpack = .zero .positive := rfl
  have unsigned : Sign.ofBitVec (@unpackSign Format.binary64 b.toBitVec) = .positive := by
    have clear : @unpackSign Format.binary64 b.toBitVec = 0#1 := by
      apply BitVec.eq_of_toNat_eq
      rw [unpackSign_def]
      simp [BitVec.extractLsb'_toNat, Nat.shiftRight_eq_div_pow]
      omega
    rw [clear]
    rfl
  have below : ((0 : Float).toModel.unpack.compare (Float.ofBits b).toModel.unpack).any (·.isLE) = true := by
    have regular := isNaNBits_of_ne (b := b) (by omega)
    rw [same, zero]
    unfold UnpackedFloat.unpack
    simp only [unsigned]
    split
    · split
      · rfl
      · rename_i top some'
        simp [isNaNBits, top, some'] at regular
    · split
      · split <;> rfl
      · rfl
  exact decide_eq_true (p := (0 : Float).toModel ≤ (Float.ofBits b).toModel) below

end

theorem unpackMantissa_toNat (b : BitVec 64) :
    (@unpackMantissa Format.binary64 b).toNat = b.toNat % 2 ^ 52 := by
  rw [unpackMantissa_def]
  simp [BitVec.extractLsb'_toNat]

theorem unpackSign_of_negative {b : BitVec 64} (signed : b.toNat / 2 ^ 63 = 1) :
    Sign.ofBitVec (@unpackSign Format.binary64 b) = .negative := by
  have set : @unpackSign Format.binary64 b = 1#1 := by
    apply BitVec.eq_of_toNat_eq
    rw [unpackSign_def]
    simp [BitVec.extractLsb'_toNat, Nat.shiftRight_eq_div_pow]
    omega
  rw [set]
  rfl

/-- Of the finite numbers that are not below zero, only zero can have a negative sign. -/
theorem mantissa_of_negative {x : Float} {d : Dyadic} (above : 0 ≤ x) (finite : dyadic? x = some d)
    (negative : d.negative = true) : d.mantissa = 0 := by
  have ordered : ((0 : Float).toModel.unpack.compare x.toModel.unpack).any (·.isLE) = true :=
    of_decide_eq_true (p := (0 : Float).toModel ≤ x.toModel) above
  have zero : (0 : Float).toModel.unpack = .zero .positive := rfl
  have bits : x.toModel.unpack = UnpackedFloat.unpack Format.binary64 x.toBits.toBitVec := rfl
  have exponent : _ = x.toBits.toNat / 2 ^ 52 % 2 ^ 11 := unpackExponent_toNat x.toBits.toBitVec
  have mantissa : _ = x.toBits.toNat % 2 ^ 52 := unpackMantissa_toNat x.toBits.toBitVec
  rw [zero, bits] at ordered
  simp only [dyadic?, Nat.pow_eq] at finite
  split at finite
  · cases finite
  · rename_i regular
    have signed : x.toBits.toNat / 2 ^ 63 = 1 := by
      split at finite <;> cases finite <;> simpa using negative
    unfold UnpackedFloat.unpack at ordered
    simp only [unpackSign_of_negative signed] at ordered
    split_ifs at ordered with top infinite subnormal none'
    · rw [top] at exponent
      exact absurd exponent.symm regular
    · rw [top] at exponent
      exact absurd exponent.symm regular
    · rw [subnormal] at exponent
      rw [none'] at mantissa
      have lowest : x.toBits.toNat / 2 ^ 52 % 2 ^ 11 = 0 := exponent.symm
      rw [if_pos lowest] at finite
      cases finite
      exact mantissa.symm
    · cases ordered
    · cases ordered

/-- The bit that stands for a sign. -/
def signBit (negative : Bool) : Nat := if negative then 2 ^ 63 else 0

/-- The bits of a normal number spell its mantissa and its exponent. -/
theorem dyadic?_ofBits (negative : Bool) {bits : Nat} (normal : 2 ^ 52 ≤ bits) (finite : bits < 2047 * 2 ^ 52) :
    dyadic? (Float.ofBits (UInt64.ofNat (signBit negative + bits))) =
      some ⟨negative, 2 ^ 52 + bits % 2 ^ 52, (bits / 2 ^ 52 : Nat) - 1075⟩ := by
  have sign : signBit negative = if negative then 2 ^ 63 else 0 := rfl
  have value : (UInt64.ofNat (signBit negative + bits)).toNat = signBit negative + bits := by
    rw [UInt64.toNat_ofNat']
    refine Nat.mod_eq_of_lt ?_
    split at sign <;> omega
  have biased : (signBit negative + bits) / 2 ^ 52 % 2 ^ 11 = bits / 2 ^ 52 := by
    split at sign <;> omega
  have fraction : (signBit negative + bits) % 2 ^ 52 = bits % 2 ^ 52 := by
    split at sign <;> omega
  have signed : ((signBit negative + bits) / 2 ^ 63 == 1) = negative := by
    cases negative with
    | true =>
      have first : (signBit true + bits) / 2 ^ 63 = 1 := by
        simp only [if_true] at sign
        omega
      rw [first]
      rfl
    | false =>
      rw [beq_eq_false_iff_ne]
      simp only [Bool.false_eq_true, if_false] at sign
      omega
  have below : bits / 2 ^ 52 ≠ 2047 := by omega
  have above : bits / 2 ^ 52 ≠ 0 := by omega
  unfold dyadic?
  rw [toBits_ofBits (by rw [value, biased]; exact below), value]
  simp only [Nat.pow_eq, biased, fraction, if_neg below, if_neg above, signed]

/-- The significant bits of a natural number, rounded to 53 of them. -/
def significand (n : Nat) : Nat := roundedUnits n 1 ((n.log2 : Int) - 52)

/-- The natural number nearest to another one among those that are doubles. -/
def nearestWhole (n : Nat) : Nat := if n.log2 < 52 then n else significand n * 2 ^ (n.log2 - 52)

section

variable {n : Nat}

theorem significand_of_short (short : n.log2 < 52) : significand n = n * 2 ^ (52 - n.log2) := by
  have below : ¬ (0 : Int) ≤ (n.log2 : Int) - 52 := by omega
  have shift : (-((n.log2 : Int) - 52)).toNat = 52 - n.log2 := by omega
  simp only [significand, roundedUnits, if_neg below, shift, Nat.div_one, Nat.mod_one]
  rfl

theorem significand_of_long (long : 52 ≤ n.log2) :
    significand n = n / 2 ^ (n.log2 - 52) ∨
      significand n = n / 2 ^ (n.log2 - 52) + 1 ∧ n % 2 ^ (n.log2 - 52) ≠ 0 := by
  have above : (0 : Int) ≤ (n.log2 : Int) - 52 := by omega
  have shift : ((n.log2 : Int) - 52).toNat = n.log2 - 52 := by omega
  have positive : 0 < 2 ^ (n.log2 - 52) := Nat.two_pow_pos _
  simp only [significand, roundedUnits, if_pos above, shift, Nat.one_mul, Nat.pow_eq]
  split
  · rename_i up
    refine Or.inr ⟨rfl, fun exact' => ?_⟩
    simp only [exact', Nat.mul_zero, Bool.or_eq_true, decide_eq_true_eq, Bool.and_eq_true, beq_iff_eq] at up
    omega
  · exact Or.inl rfl

variable (positive : 0 < n)

include positive

theorem div_bounds (long : 52 ≤ n.log2) : 2 ^ 52 ≤ n / 2 ^ (n.log2 - 52) ∧ n / 2 ^ (n.log2 - 52) < 2 ^ 53 := by
  have low := Nat.log2_self_le (Nat.ne_of_gt positive)
  have high := Nat.lt_log2_self (n := n)
  constructor
  · rw [Nat.le_div_iff_mul_le (Nat.two_pow_pos _), ← Nat.pow_add]
    rwa [show 52 + (n.log2 - 52) = n.log2 by omega]
  · rw [Nat.div_lt_iff_lt_mul (Nat.two_pow_pos _), ← Nat.pow_add]
    rwa [show 53 + (n.log2 - 52) = n.log2 + 1 by omega]

theorem significand_bounds : 2 ^ 52 ≤ significand n ∧ significand n ≤ 2 ^ 53 := by
  by_cases short : n.log2 < 52
  · have low := Nat.log2_self_le (Nat.ne_of_gt positive)
    have high := Nat.lt_log2_self (n := n)
    rw [significand_of_short short]
    constructor
    · calc 2 ^ 52 = 2 ^ n.log2 * 2 ^ (52 - n.log2) := by
            rw [← Nat.pow_add, show n.log2 + (52 - n.log2) = 52 by omega]
        _ ≤ n * 2 ^ (52 - n.log2) := Nat.mul_le_mul_right _ low
    · calc n * 2 ^ (52 - n.log2) ≤ 2 ^ (n.log2 + 1) * 2 ^ (52 - n.log2) := Nat.mul_le_mul_right _ high.le
        _ = 2 ^ 53 := by rw [← Nat.pow_add, show n.log2 + 1 + (52 - n.log2) = 53 by omega]
  · obtain ⟨low, high⟩ := div_bounds positive (Nat.not_lt.mp short)
    rcases significand_of_long (Nat.not_lt.mp short) with down | ⟨up, _⟩ <;> omega

theorem nearest_eq (negative : Bool) : nearest negative n 1 =
    if 2047 * 2 ^ 52 ≤ (n.log2 + 1022) * 2 ^ 52 + significand n then infinity negative
    else Float.ofBits (UInt64.ofNat (signBit negative + ((n.log2 + 1022) * 2 ^ 52 + significand n))) := by
  have low := Nat.log2_self_le (Nat.ne_of_gt positive)
  have one : Nat.log2 1 = 0 := rfl
  have estimate : (0 : Int) ≤ (n.log2 : Int) - (0 : Nat) := by omega
  have shift : ((n.log2 : Int) - (0 : Nat)).toNat = n.log2 := by omega
  have unit : max ((n.log2 : Int) - (0 : Nat) - 52) (-1074) = (n.log2 : Int) - 52 := by omega
  have exponent : ((n.log2 : Int) - 52 + 1074).toNat = n.log2 + 1022 := by omega
  unfold nearest
  simp only [if_neg (Nat.ne_of_gt positive), one, if_pos estimate, shift, Nat.one_mul, Nat.pow_eq, if_pos low,
    unit, exponent, significand]
  exact if_congr Iff.rfl rfl rfl

end

section

variable {n : Nat}

theorem exactly_of_long (long : 52 ≤ n.log2) (divides : 2 ^ (n.log2 - 52) ∣ n) :
    significand n * 2 ^ (n.log2 - 52) = n := by
  rcases significand_of_long long with down | ⟨_, inexact⟩
  · rw [down, Nat.div_mul_cancel divides]
  · exact absurd (Nat.mod_eq_zero_of_dvd divides) inexact

/-- A natural number is a double exactly if 53 bits are enough for its significant ones. -/
theorem nearestWhole_eq_iff : nearestWhole n = n ↔ ∃ m e, m < 2 ^ 53 ∧ n = m * 2 ^ e := by
  rcases Nat.eq_zero_or_pos n with rfl | positive
  · exact ⟨fun _ => ⟨0, 0, by decide, rfl⟩, fun _ => rfl⟩
  have low := Nat.log2_self_le (Nat.ne_of_gt positive)
  have high := Nat.lt_log2_self (n := n)
  unfold nearestWhole
  by_cases short : n.log2 < 52
  · have small : n < 2 ^ 53 := Nat.lt_of_lt_of_le high (Nat.pow_le_pow_right (by decide) (by omega))
    simp only [if_pos short, true_iff]
    exact ⟨n, 0, small, by simp⟩
  · have long : 52 ≤ n.log2 := Nat.not_lt.mp short
    rw [if_neg short]
    constructor
    · intro same
      rcases Nat.lt_or_eq_of_le (significand_bounds positive).2 with fits | carries
      · exact ⟨significand n, n.log2 - 52, fits, same.symm⟩
      · rw [carries, ← Nat.pow_add, show 53 + (n.log2 - 52) = n.log2 + 1 by omega] at same
        omega
    · rintro ⟨m, e, fits, rfl⟩
      -- The last bits of the number are zeros, so nothing is rounded off.
      have enough : (m * 2 ^ e).log2 - 52 ≤ e := by
        by_contra more
        have bound : 2 ^ (m * 2 ^ e).log2 < 2 ^ (53 + e) := by
          rw [Nat.pow_add]
          exact Nat.lt_of_le_of_lt low (Nat.mul_lt_mul_of_pos_right fits (Nat.two_pow_pos e))
        have exponents := (Nat.pow_lt_pow_iff_right (by decide : 1 < 2)).mp bound
        omega
      exact exactly_of_long long (Dvd.dvd.mul_left (Nat.pow_dvd_pow 2 enough) m)

/-- Within 64 bits, the greatest number counts as itself because its double is cut down to it. -/
theorem min_nearestWhole_eq_iff : min (nearestWhole n) Word.max64 = n ↔
    n ≤ Word.max64 ∧ (n = Word.max64 ∨ ∃ m e, m < 2 ^ 53 ∧ n = m * 2 ^ e) := by
  rw [← nearestWhole_eq_iff]
  have last : nearestWhole Word.max64 = 2 ^ 64 := by decide +kernel
  have bound : Word.max64 < 2 ^ 64 := by decide
  constructor
  · intro same
    refine ⟨by omega, ?_⟩
    by_cases greatest : n = Word.max64
    · exact Or.inl greatest
    · exact Or.inr (by omega)
  · rintro ⟨within, rfl | same⟩
    · rw [last]
      omega
    · rw [same]
      omega

theorem ratio_up (m k : Nat) : Dyadic.ratio ⟨false, m, k⟩ = (m * 2 ^ k * 2 ^ 0, 2 ^ 0) := by
  simp [Dyadic.ratio]

theorem ratio_down (m : Nat) {k : Nat} (positive : 0 < k) : Dyadic.ratio ⟨false, m, -(k : Int)⟩ = (m, 2 ^ k) := by
  have below : ¬ (0 : Int) ≤ -(k : Int) := by omega
  rw [Dyadic.ratio, if_neg below, Int.neg_neg]
  rfl

theorem isWhole_ratio {d : Dyadic} {a k : Nat} (ratio : d.ratio = (a * 2 ^ k, 2 ^ k)) :
    d.isWhole = true ∧ d.wholePart = a := by
  rw [Dyadic.isWhole, Dyadic.wholePart, ratio]
  exact ⟨by simp, Nat.mul_div_cancel a (Nat.two_pow_pos k)⟩

/-- The double nearest to a natural number is infinite or whole. -/
theorem dyadic?_nearest (n : Nat) : (Word.max64 < n ∧ dyadic? (nearest false n 1) = none) ∨
    ∃ d, dyadic? (nearest false n 1) = some d ∧ d.negative = false ∧ d.isWhole = true ∧
      d.wholePart = nearestWhole n ∧ (0 : Float) ≤ nearest false n 1 := by
  rcases Nat.eq_zero_or_pos n with rfl | positive
  · refine Or.inr ⟨⟨false, 0, -1074⟩, by decide +kernel, rfl, by decide +kernel, by decide +kernel, ?_⟩
    exact zero_le_ofBits (b := 0) (by decide)
  have high := Nat.lt_log2_self (n := n)
  have low := Nat.log2_self_le (Nat.ne_of_gt positive)
  obtain ⟨normal, carry⟩ := significand_bounds positive
  rw [nearest_eq positive false]
  split
  · rename_i overflow
    refine Or.inl ⟨?_, by decide +kernel⟩
    have large : 64 ≤ n.log2 := by omega
    have bound : 2 ^ 64 ≤ 2 ^ n.log2 := Nat.pow_le_pow_right (by decide) large
    have word : Word.max64 < 2 ^ 64 := by decide
    omega
  · rename_i finite
    have bits : (UInt64.ofNat (signBit false + ((n.log2 + 1022) * 2 ^ 52 + significand n))).toNat =
        (n.log2 + 1022) * 2 ^ 52 + significand n := by
      have unsigned : signBit false = 0 := rfl
      rw [unsigned, Nat.zero_add, UInt64.toNat_ofNat']
      exact Nat.mod_eq_of_lt (by omega)
    refine Or.inr ⟨_, dyadic?_ofBits false (by omega) (by omega), rfl, ?_⟩
    have whole : ∃ a k, nearestWhole n = a ∧ Dyadic.ratio ⟨false,
        2 ^ 52 + ((n.log2 + 1022) * 2 ^ 52 + significand n) % 2 ^ 52,
        (((n.log2 + 1022) * 2 ^ 52 + significand n) / 2 ^ 52 : Nat) - 1075⟩ = (a * 2 ^ k, 2 ^ k) := by
      unfold nearestWhole
      rcases Nat.lt_or_ge n.log2 52 with short | long
      · have value := significand_of_short short
        have fits : significand n < 2 ^ 53 := by
          calc significand n = n * 2 ^ (52 - n.log2) := value
            _ < 2 ^ (n.log2 + 1) * 2 ^ (52 - n.log2) := Nat.mul_lt_mul_of_pos_right high (Nat.two_pow_pos _)
            _ = 2 ^ 53 := by rw [← Nat.pow_add, show n.log2 + 1 + (52 - n.log2) = 53 by omega]
        have mantissa : 2 ^ 52 + ((n.log2 + 1022) * 2 ^ 52 + significand n) % 2 ^ 52 = significand n := by omega
        have exponent : ((((n.log2 + 1022) * 2 ^ 52 + significand n) / 2 ^ 52 : Nat) : Int) - 1075 =
            -((52 - n.log2 : Nat) : Int) := by omega
        refine ⟨n, 52 - n.log2, if_pos short, ?_⟩
        rw [mantissa, exponent, ratio_down _ (by omega), value]
      · rcases Nat.lt_or_eq_of_le carry with fits | carries
        · have mantissa : 2 ^ 52 + ((n.log2 + 1022) * 2 ^ 52 + significand n) % 2 ^ 52 = significand n := by omega
          have exponent : ((((n.log2 + 1022) * 2 ^ 52 + significand n) / 2 ^ 52 : Nat) : Int) - 1075 =
              (n.log2 - 52 : Nat) := by omega
          refine ⟨_, 0, if_neg (Nat.not_lt.mpr long), ?_⟩
          rw [mantissa, exponent, ratio_up]
        · have mantissa : 2 ^ 52 + ((n.log2 + 1022) * 2 ^ 52 + significand n) % 2 ^ 52 = 2 ^ 52 := by omega
          have exponent : ((((n.log2 + 1022) * 2 ^ 52 + significand n) / 2 ^ 52 : Nat) : Int) - 1075 =
              (n.log2 - 51 : Nat) := by omega
          refine ⟨_, 0, if_neg (Nat.not_lt.mpr long), ?_⟩
          have same : 2 ^ 53 * 2 ^ (n.log2 - 52) = 2 ^ 52 * 2 ^ (n.log2 - 51) := by
            rw [← Nat.pow_add, ← Nat.pow_add, show 53 + (n.log2 - 52) = 52 + (n.log2 - 51) by omega]
          rw [mantissa, exponent, ratio_up, carries, same]
    obtain ⟨a, k, same, ratio⟩ := whole
    obtain ⟨isWhole, value⟩ := isWhole_ratio ratio
    exact ⟨isWhole, value.trans same.symm, zero_le_ofBits (by rw [bits]; omega)⟩

/-- A negative integer is rounded as its magnitude is. -/
theorem dyadic?_nearest_negative {n : Nat} {d : Dyadic} (finite : dyadic? (nearest false n 1) = some d) :
    dyadic? (nearest true n 1) = some { d with negative := true } := by
  rcases Nat.eq_zero_or_pos n with rfl | positive
  · have zero : dyadic? (nearest false 0 1) = some ⟨false, 0, -1074⟩ := by decide +kernel
    cases finite.symm.trans zero
    decide +kernel
  obtain ⟨normal, carry⟩ := significand_bounds positive
  rw [nearest_eq positive] at finite ⊢
  split at finite
  · have none' : dyadic? (infinity false) = none := by decide +kernel
    cases finite.symm.trans none'
  · rename_i within
    rw [if_neg within]
    cases finite.symm.trans (dyadic?_ofBits false (by omega) (by omega))
    exact dyadic?_ofBits true (by omega) (by omega)

end

end Binary64

namespace Decimal

theorem ofDecimal_natural (n : Nat) : Binary64.ofDecimal false n 0 = Binary64.nearest false n 1 := by
  unfold Binary64.ofDecimal
  have near : ¬ (0 : Int) + (n.log2 / 3 + 1 : Nat) < -400 := by omega
  by_cases zero : n = 0
  · simp [zero]
  · simp only [if_neg zero, if_neg near]
    simp

theorem toLower_digit {c : Char} (digit : c.isDigit = true) : c.toLower = c := by
  obtain ⟨low, high⟩ : 48 ≤ c.toNat ∧ c.toNat ≤ 57 := Char.isDigit_iff_toNat.mp digit
  rw [← Char.ofNat_toNat c]
  generalize c.toNat = n at low high
  interval_cases n <;> rfl

theorem naturalOf_toString (n : Nat) : naturalOf (toString n).toList = n := by
  rw [Nat.toString_eq_repr, Nat.toList_repr]
  exact Nat.ofDigitChars_toDigits (by decide) (by decide)

/-- What begins with a digit or a point is no word for a number. -/
theorem read?_unsigned {cs rest : List Char} {c : Char} {negative : Bool} (first : c.isDigit = true ∨ c = '.')
    (same : signed cs = (negative, c :: rest)) : read? cs = unsigned? negative (c :: rest) := by
  have lower : c.toLower = c := by
    rcases first with digit | rfl
    · exact toLower_digit digit
    · rfl
  have word (letter : Char) (more : List Char) (other : ¬ (letter.isDigit = true ∨ letter = '.')) :
      String.ofList ((c :: rest).map Char.toLower) ≠ String.ofList (letter :: more) := by
    intro equal
    have letters := (List.cons.inj (String.ofList_injective equal)).1
    rw [lower] at letters
    exact other (letters ▸ first)
  unfold read?
  simp only [same]
  rw [if_neg, if_neg]
  · exact word 'n' ['a', 'n'] (by decide)
  · rintro (short | long)
    · exact word 'i' ['n', 'f'] (by decide) short
    · exact word 'i' ['n', 'f', 'i', 'n', 'i', 't', 'y'] (by decide) long

/-- Digits are read as the double nearest to the number that they spell. -/
theorem read?_digits {cs : List Char} (some' : cs ≠ []) (digits : ∀ c ∈ cs, c.isDigit = true) :
    read? cs = some (Binary64.nearest false (naturalOf cs) 1) := by
  obtain ⟨c, rest, rfl⟩ := List.exists_cons_of_ne_nil some'
  have first := digits c (List.mem_cons_self ..)
  have unsigned : signed (c :: rest) = (false, c :: rest) := by
    unfold signed
    split
    · rename_i same
      cases same
      cases first
    · rename_i same
      cases same
      cases first
    · rfl
  have whole : (c :: rest).takeWhile Char.isDigit = c :: rest := List.takeWhile_eq_self_iff.mpr digits
  have none' : (c :: rest).dropWhile Char.isDigit = [] := List.dropWhile_eq_nil_iff.mpr digits
  rw [read?_unsigned (Or.inl first) unsigned]
  simp only [unsigned?, whole, none', List.append_nil]
  exact congrArg some (ofDecimal_natural _)

end Decimal

end StateScript
