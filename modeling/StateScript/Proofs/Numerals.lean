import StateScript.Proofs.ArrayActions

/-!
Numerals. Digits in a radix stand for their positional value, and a whole number is written as the numeral of what is
left of it in 64 bits: of itself if it fits, and else of the greatest number that does.
-/

namespace StateScript

namespace Binary64

open Float.Model Float.Model.UnpackedFloat

theorem unpackSign_toNat (b : BitVec 64) : (@unpackSign Format.binary64 b).toNat = b.toNat / 2 ^ 63 := by
  have bound : b.toNat < 2 ^ 64 := b.isLt
  rw [unpackSign_def, BitVec.extractLsb'_toNat, Nat.shiftRight_eq_div_pow]
  show b.toNat / 2 ^ 63 % 2 = b.toNat / 2 ^ 63
  omega

theorem ofBitVec_eq (bit : BitVec 1) :
    Sign.ofBitVec bit = if bit.toNat = 1 then .negative else .positive := by
  unfold Sign.ofBitVec
  by_cases clear : bit = 0#1
  · rw [if_pos clear, clear]
    rfl
  · have bound := bit.isLt
    have set : bit.toNat ≠ 0 := fun none' => clear (BitVec.eq_of_toNat_eq none')
    rw [if_neg clear, if_pos (by omega)]

section

variable {x : Float} {d : Dyadic}

/-- The parts of a finite double are those of its bits. -/
theorem bits_of_dyadic? (finite : dyadic? x = some d) :
    d.negative = (x.toBits.toNat / 2 ^ 63 == 1) ∧
      (x.toBits.toNat / 2 ^ 52 % 2 ^ 11 = 0 ∧ d.mantissa = x.toBits.toNat % 2 ^ 52 ∨
        x.toBits.toNat / 2 ^ 52 % 2 ^ 11 ≠ 0 ∧ x.toBits.toNat / 2 ^ 52 % 2 ^ 11 ≠ 2047 ∧
          d.mantissa = 2 ^ 52 + x.toBits.toNat % 2 ^ 52) := by
  simp only [dyadic?, Nat.pow_eq] at finite
  split at finite
  · cases finite
  · rename_i regular
    split at finite <;> cases finite
    · rename_i low
      exact ⟨rfl, Or.inl ⟨low, rfl⟩⟩
    · rename_i normal
      exact ⟨rfl, Or.inr ⟨normal, regular, rfl⟩⟩

/-- A finite double with its sign is a zero or has a mantissa. -/
theorem unpack_of_dyadic? (finite : dyadic? x = some d) :
    (d.mantissa = 0 ∧ x.toModel.unpack = .zero (if d.negative then .negative else .positive)) ∨
    (0 < d.mantissa ∧ ∃ m e some',
      x.toModel.unpack = .finite (if d.negative then .negative else .positive) m e some') := by
  have bits : x.toModel.unpack = UnpackedFloat.unpack Format.binary64 x.toBits.toBitVec := rfl
  have exponent : _ = x.toBits.toNat / 2 ^ 52 % 2 ^ 11 := unpackExponent_toNat x.toBits.toBitVec
  have mantissa : _ = x.toBits.toNat % 2 ^ 52 := unpackMantissa_toNat x.toBits.toBitVec
  have sign : _ = x.toBits.toNat / 2 ^ 63 := unpackSign_toNat x.toBits.toBitVec
  obtain ⟨negative, parts⟩ := bits_of_dyadic? finite
  have signed : Sign.ofBitVec (@unpackSign Format.binary64 x.toBits.toBitVec) =
      if d.negative then .negative else .positive := by
    rw [ofBitVec_eq, sign, negative]
    simp only [beq_iff_eq]
  rw [bits]
  unfold UnpackedFloat.unpack
  simp only [signed]
  rcases parts with ⟨low, value⟩ | ⟨normal, regular, value⟩
  · have subnormal : @unpackExponent Format.binary64 x.toBits.toBitVec = 0#11 :=
      BitVec.eq_of_toNat_eq (exponent.trans low)
    rw [if_neg (by rw [subnormal]; decide), if_pos subnormal]
    split
    · rename_i none'
      exact Or.inl ⟨by rw [value, ← mantissa, none']; rfl, rfl⟩
    · rename_i some'
      have positive : 0 < (@unpackMantissa Format.binary64 x.toBits.toBitVec).toNat :=
        Nat.pos_of_ne_zero fun none' => some' (BitVec.eq_of_toNat_eq none')
      exact Or.inr ⟨by rwa [value, ← mantissa], _, _, positive, rfl⟩
  · rw [if_neg fun top => regular (exponent.symm.trans (congrArg BitVec.toNat top)),
      if_neg fun low => normal (exponent.symm.trans (congrArg BitVec.toNat low))]
    have positive : 0 < (1#1 ++ @unpackMantissa Format.binary64 x.toBits.toBitVec).toNat := by
      rw [BitVec.toNat_append]
      exact Nat.lt_of_lt_of_le (by decide) Nat.left_le_or
    exact Or.inr ⟨by omega, _, _, positive, rfl⟩

/-- A finite double is below zero if it has a minus sign and is not zero. -/
theorem lt_zero_iff (finite : dyadic? x = some d) : x < 0 ↔ d.negative = true ∧ 0 < d.mantissa := by
  have zero : (0 : Float).toModel.unpack = .zero .positive := rfl
  show decide (x.toModel < (0 : Float).toModel) = true ↔ _
  rw [decide_eq_true_iff]
  show x.toModel.unpack.lt (0 : Float).toModel.unpack = true ↔ _
  rw [zero]
  rcases unpack_of_dyadic? finite with ⟨none', same⟩ | ⟨some', m, e, positive, same⟩
  · rw [same, none']
    cases d.negative <;> simp [UnpackedFloat.lt, UnpackedFloat.compare]
  · rw [same]
    cases d.negative <;> simp [UnpackedFloat.lt, UnpackedFloat.compare, some']

/-- Bits whose sign is cleared stand for the magnitude. -/
theorem unpack_unsigned (b : BitVec 64) :
    UnpackedFloat.unpack Format.binary64
        (packComponents Format.binary64 .positive (unpackExponent b) (unpackMantissa b)) =
      (UnpackedFloat.unpack Format.binary64 b).abs := by
  unfold UnpackedFloat.unpack
  simp only [unpackExponent_packComponents, unpackMantissa_packComponents, unpackSign_packComponents,
    Sign.ofBitVec_toBitVec]
  split
  · split <;> rfl
  · split
    · split <;> rfl
    · rfl

theorem packComponents_unsigned (b : BitVec 64) :
    (packComponents Format.binary64 .positive (unpackExponent b) (unpackMantissa b)).toNat = b.toNat % 2 ^ 63 := by
  have exponent := unpackExponent_toNat b
  have mantissa := unpackMantissa_toNat b
  have sign : Sign.positive.toBitVec.toNat = 0 := rfl
  unfold packComponents
  rw [BitVec.toNat_append, BitVec.toNat_append, sign, exponent, mantissa, Nat.zero_shiftLeft, Nat.zero_or,
    ← Nat.shiftLeft_add_eq_or_of_lt (Nat.mod_lt _ (Nat.two_pow_pos 52)), Nat.shiftLeft_eq]
  omega

/-- The bits of a magnitude are those of the number without the one for the sign. -/
theorem toBits_abs (finite : dyadic? x = some d) : x.abs.toBits.toNat = x.toBits.toNat % 2 ^ 63 := by
  have regular : x.toBits.toNat / 2 ^ 52 % 2 ^ 11 ≠ 2047 := by
    rcases (bits_of_dyadic? finite).2 with ⟨low, _⟩ | ⟨_, normal, _⟩
    · omega
    · exact normal
  have bits : x.abs.toBits.toBitVec = packComponents Format.binary64 .positive
      (unpackExponent x.toBits.toBitVec) (unpackMantissa x.toBits.toBitVec) := by
    show UnpackedFloat.pack Format.binary64 (UnpackedFloat.unpack Format.binary64 x.toBits.toBitVec).abs = _
    rw [← unpack_unsigned, pack_unpack _ (by decide), if_neg]
    have same := isNaNBits_of_ne regular
    unfold isNaNBits at same ⊢
    rw [unpackExponent_packComponents, unpackMantissa_packComponents, same]
    decide
  exact (congrArg BitVec.toNat bits).trans (packComponents_unsigned _)

/-- The magnitude of a finite double has the same mantissa and exponent, and no sign. -/
theorem dyadic?_abs (finite : dyadic? x = some d) : dyadic? x.abs = some { d with negative := false } := by
  have bound := x.toBits.toNat_lt
  have exponent : x.toBits.toNat % 2 ^ 63 / 2 ^ 52 % 2 ^ 11 = x.toBits.toNat / 2 ^ 52 % 2 ^ 11 := by omega
  have mantissa : x.toBits.toNat % 2 ^ 63 % 2 ^ 52 = x.toBits.toNat % 2 ^ 52 := by omega
  have sign : x.toBits.toNat % 2 ^ 63 / 2 ^ 63 = 0 := by omega
  have bits := toBits_abs finite
  simp only [dyadic?, Nat.pow_eq] at finite ⊢
  rw [bits, exponent, mantissa, sign]
  split at finite
  · cases finite
  · rename_i regular
    rw [if_neg regular]
    split at finite <;> cases finite
    · rename_i low
      rw [if_pos low]
      rfl
    · rename_i normal
      rw [if_neg normal]
      rfl

/-- A whole number is zero if its mantissa is. -/
theorem mantissa_pos_iff (whole : d.isWhole = true) : 0 < d.mantissa ↔ 0 < d.wholePart := by
  have magnitude := mantissa_of_isWhole whole
  constructor
  · intro positive
    have scaled : 0 < d.mantissa * 2 ^ d.exponent.toNat := Nat.mul_pos positive (Nat.two_pow_pos _)
    rw [magnitude] at scaled
    exact Nat.pos_of_mul_pos_right scaled
  · intro positive
    have scaled : 0 < d.wholePart * 2 ^ (-d.exponent).toNat := Nat.mul_pos positive (Nat.two_pow_pos _)
    rw [← magnitude] at scaled
    exact Nat.pos_of_mul_pos_right scaled

theorem IsInt.isWhole {n : Int} (whole : IsInt x n) (finite : dyadic? x = some d) : d.isWhole = true := by
  obtain ⟨other, same, value⟩ := whole
  cases finite.symm.trans same
  have magnitude : d.mantissa * 2 ^ d.exponent.toNat = n.natAbs * 2 ^ (-d.exponent).toNat := by
    have absolute := congrArg Int.natAbs value
    rw [Int.natAbs_mul, Int.natAbs_mul, Int.natAbs_pow, Int.natAbs_pow] at absolute
    unfold Dyadic.signed at absolute
    split at absolute
    · rwa [Int.natAbs_neg] at absolute
    · exact absolute
  unfold Dyadic.isWhole Dyadic.ratio
  rw [beq_iff_eq]
  by_cases up : 0 ≤ d.exponent
  · rw [if_pos up]
    exact Nat.mod_one _
  · have flat : d.exponent.toNat = 0 := by omega
    rw [flat, pow_zero, mul_one] at magnitude
    rw [if_neg up, magnitude]
    exact Nat.mul_mod_left _ _

end

end Binary64

/-- The digits in the order of their values. -/
def digitOrder : List Char := "0123456789abcdefghijklmnopqrstuvwxyz".toList

/-- Digits stand for a number in a radix, the first one counting most. -/
def Positional (radix : Nat) (digits : List Char) (n : Nat) : Prop :=
  ∃ values : List Nat, (∀ v ∈ values, v < radix) ∧ digits.map some = values.map (digitOrder[·]?) ∧
    Nat.ofDigits radix values.reverse = n

namespace Positional

variable {radix m n : Nat} {digits : List Char} {c : Char}

theorem nil_iff : Positional radix [] n ↔ n = 0 := by
  constructor
  · rintro ⟨values, _, same, rfl⟩
    rw [List.map_nil, eq_comm, List.map_eq_nil_iff] at same
    rw [same]
    rfl
  · rintro rfl
    exact ⟨[], nofun, rfl, rfl⟩

/-- One more digit makes the others count once more. -/
theorem concat_iff : Positional radix (digits ++ [c]) n ↔
    ∃ m v, Positional radix digits m ∧ v < radix ∧ digitOrder[v]? = some c ∧ n = v + radix * m := by
  constructor
  · rintro ⟨values, below, same, rfl⟩
    rw [List.map_append, List.map_singleton, eq_comm, List.map_eq_append_iff] at same
    obtain ⟨front, last, rfl, same, final⟩ := same
    obtain ⟨v, rfl, value⟩ := List.map_eq_singleton_iff.mp final
    refine ⟨_, v, ⟨front, fun w member => below w (List.mem_append_left _ member), same.symm, rfl⟩,
      below v (by simp), value, ?_⟩
    rw [List.reverse_concat, Nat.ofDigits_cons]
  · rintro ⟨m, v, ⟨values, below, same, rfl⟩, bound, value, rfl⟩
    refine ⟨values ++ [v], ?_, ?_, ?_⟩
    · intro w member
      rcases List.mem_append.mp member with old | last
      · exact below w old
      · rwa [List.mem_singleton.mp last]
    · rw [List.map_append, List.map_append, same, List.map_singleton, List.map_singleton, value]
    · rw [List.reverse_concat, Nat.ofDigits_cons]

theorem mem_digitOrder (spelled : Positional radix digits n) (member : c ∈ digits) : c ∈ digitOrder := by
  obtain ⟨values, _, same, _⟩ := spelled
  have among : some c ∈ values.map (digitOrder[·]?) := same ▸ List.mem_map_of_mem member
  obtain ⟨v, _, value⟩ := List.mem_map.mp among
  exact List.mem_of_getElem? value

theorem digitOrder_inj {v w : Nat} (first : digitOrder[v]? = some c) (second : digitOrder[w]? = some c) : v = w := by
  have distinct : digitOrder.Nodup := by decide
  obtain ⟨low, _⟩ := List.getElem?_eq_some_iff.mp first
  exact (List.getElem?_inj low distinct).mp (first.trans second.symm)

theorem unique (first : Positional radix digits m) (second : Positional radix digits n) : m = n := by
  induction digits using List.reverseRecOn generalizing m n with
  | nil => rw [nil_iff.mp first, nil_iff.mp second]
  | append_singleton front last ih =>
    obtain ⟨i, v, front₁, _, value₁, rfl⟩ := concat_iff.mp first
    obtain ⟨j, w, front₂, _, value₂, rfl⟩ := concat_iff.mp second
    rw [ih front₁ front₂, digitOrder_inj value₁ value₂]

end Positional

namespace Builtin

/-- The digits of a natural number: at least one, and no zero in front of others. -/
structure IsMagnitude (radix n : Nat) (digits : List Char) : Prop where
  positional : Positional radix digits n
  some' : digits ≠ []
  proper : digits.head? = some '0' → digits = ['0']

/-- The numeral of an integer: a minus sign if there is need for one, and the digits of its magnitude. -/
def IsNumeral (radix : Nat) (n : Int) (text : List Char) : Prop :=
  ∃ digits, IsMagnitude radix n.natAbs digits ∧ text = (if n < 0 then ['-'] else []) ++ digits

section

variable {radix : Nat}

theorem digitOrder_radixDigit {v : Nat} (bound : v < 36) : digitOrder[v]? = some (radixDigit v) := by
  revert bound v
  decide

theorem IsMagnitude.single {v : Nat} (high : radix ≤ 36) (bound : v < radix) : IsMagnitude radix v [radixDigit v] where
  positional := Positional.concat_iff.mpr
    ⟨0, v, Positional.nil_iff.mpr rfl, bound, digitOrder_radixDigit (by omega), by simp⟩
  some' := List.cons_ne_nil _ _
  proper zero := by
    rw [List.head?_cons, Option.some.injEq] at zero
    rw [zero]

/-- One more digit behind those of a number other than zero. -/
theorem IsMagnitude.concat {n v : Nat} {digits : List Char} (front : IsMagnitude radix n digits) (high : radix ≤ 36)
    (bound : v < radix) (positive : 0 < n) : IsMagnitude radix (v + radix * n) (digits ++ [radixDigit v]) where
  positional := Positional.concat_iff.mpr
    ⟨n, v, front.positional, bound, digitOrder_radixDigit (by omega), rfl⟩
  some' := by simp
  proper zero := by
    rw [List.head?_append_of_ne_nil _ front.some'] at zero
    have own := front.positional
    rw [front.proper zero] at own
    have none' : Positional radix ['0'] 0 := Positional.concat_iff.mpr
      ⟨0, 0, Positional.nil_iff.mpr rfl, by omega, rfl, rfl⟩
    have same := own.unique none'
    omega

/-- Each step writes the last digit of what is left, in front of the digits behind it. -/
theorem numeralFrom_isMagnitude (low : 2 ≤ radix) (high : radix ≤ 36) (fuel n : Nat) (written : List Char)
    (fits : n < radix ^ (fuel + 1)) :
    ∃ digits, numeralFrom radix (fuel + 1) n written = digits ++ written ∧ IsMagnitude radix n digits := by
  induction fuel generalizing n written with
  | zero =>
    rw [Nat.zero_add, Nat.pow_one] at fits
    exact ⟨[radixDigit n], by rw [numeralFrom, if_pos fits]; rfl, .single high fits⟩
  | succ fuel ih =>
    rw [numeralFrom]
    by_cases small : n < radix
    · exact ⟨[radixDigit n], by rw [if_pos small]; rfl, .single high small⟩
    · have left : n / radix < radix ^ (fuel + 1) := Nat.div_lt_of_lt_mul (by rwa [Nat.pow_succ, Nat.mul_comm] at fits)
      obtain ⟨digits, same, front⟩ := ih (n / radix) (radixDigit (n % radix) :: written) left
      have last : n % radix < radix := Nat.mod_lt n (by omega)
      have positive : 0 < n / radix := Nat.div_pos (by omega) (by omega)
      refine ⟨digits ++ [radixDigit (n % radix)], ?_, ?_⟩
      · rw [if_neg small, same, List.append_assoc]
        rfl
      · have whole := front.concat high last positive
        rwa [Nat.mod_add_div] at whole

theorem numeral_isMagnitude (low : 2 ≤ radix) (high : radix ≤ 36) {n : Nat} (fits : n ≤ Word.max64) :
    IsMagnitude radix n (numeral radix n) := by
  have bound : n < radix ^ (63 + 1) :=
    Nat.lt_of_lt_of_le (Nat.lt_succ_of_le fits) (Nat.pow_le_pow_left low 64)
  obtain ⟨digits, same, spelled⟩ := numeralFrom_isMagnitude low high 63 n [] bound
  rw [List.append_nil] at same
  rwa [numeral, same]

/-- A text is the numeral of one integer only. -/
theorem IsNumeral.unique {m n : Int} {text : List Char} (first : IsNumeral radix m text)
    (second : IsNumeral radix n text) : m = n := by
  obtain ⟨ds, left, rfl⟩ := first
  obtain ⟨es, right, same⟩ := second
  -- A minus sign is no digit.
  have unsigned {k : Nat} {digits rest : List Char} (spelled : IsMagnitude radix k digits) : digits ≠ '-' :: rest := by
    rintro rfl
    exact absurd (spelled.positional.mem_digitOrder (List.mem_cons_self ..)) (by decide)
  by_cases below : m < 0
  · by_cases under : n < 0
    · rw [if_pos below, if_pos under, List.append_cancel_left_eq] at same
      have magnitude := left.positional.unique (same ▸ right.positional)
      omega
    · rw [if_pos below, if_neg under] at same
      exact absurd same.symm (unsigned right)
  · by_cases under : n < 0
    · rw [if_neg below, if_pos under] at same
      exact absurd same (unsigned left)
    · rw [if_neg below, if_neg under, List.append_cancel_left_eq] at same
      have magnitude := left.positional.unique (same ▸ right.positional)
      omega

/-- What is left of an integer in 64 bits and a sign. -/
def clamped64 (n : Int) : Int := max (-(Word.max64 : Int)) (min n Word.max64)

theorem toRadix_isNumeral (low : 2 ≤ radix) (high : radix ≤ 36) {x : Float} {n : Int} (whole : Binary64.IsInt x n) :
    IsNumeral radix (clamped64 n) (toRadix x radix).toList := by
  obtain ⟨d, finite, rfl⟩ := whole.exists_truncate
  have exact' : d.isWhole = true := whole.isWhole finite
  have integral : Binary64.isWhole x = true := by
    rw [Binary64.isWhole, finite]
    exact exact'
  have magnitude : Binary64.toNatClamped Word.max64 x.abs = (clamped64 d.truncate).natAbs := by
    rw [Binary64.toNatClamped, Binary64.dyadic?_abs finite]
    show min Word.max64 d.wholePart = _
    unfold clamped64 Dyadic.truncate
    split <;> omega
  have below : x < 0 ↔ clamped64 d.truncate < 0 := by
    have bound : 0 < Word.max64 := by decide
    rw [Binary64.lt_zero_iff finite, Binary64.mantissa_pos_iff exact', clamped64, Dyadic.truncate]
    cases d.negative with
    | true =>
      rw [if_pos rfl]
      exact ⟨fun positive => by omega, fun negative => ⟨rfl, by omega⟩⟩
    | false =>
      rw [if_neg Bool.false_ne_true]
      exact ⟨fun both => absurd both.1 Bool.false_ne_true, fun negative => by omega⟩
  have digits : IsMagnitude radix (clamped64 d.truncate).natAbs
      (numeral radix (Binary64.toNatClamped Word.max64 x.abs)) := by
    rw [magnitude]
    exact numeral_isMagnitude low high (by unfold clamped64; omega)
  refine ⟨_, digits, ?_⟩
  rw [toRadix, integral, if_neg (by decide), String.toList_ofList]
  by_cases negative : x < 0
  · rw [if_pos negative, if_pos (below.mp negative)]
    rfl
  · rw [if_neg negative, if_neg (mt below.mpr negative)]
    rfl

/-- A whole number in a radix is written as a numeral of what 64 bits leave of it, and so of itself exactly if it has
no more bits. -/
theorem method_toString_isNumeral {m k : Number} {n : Int} (whole : Binary64.IsInt m.toFloat n)
    (base : Binary64.IsInt k.toFloat radix) (low : 2 ≤ radix) (high : radix ≤ 36) (other : radix ≠ 10) :
    ∃ text, method (.number m) "toString" [.number k] = .ok (.string text) ∧
      IsNumeral radix (clamped64 n) text.toList ∧
      (IsNumeral radix n text.toList ↔ n.natAbs ≤ Word.max64) := by
  have given : Binary64.toNatClamped Word.max32 k.toFloat = radix := by
    obtain ⟨d, finite, value⟩ := base.exists_truncate
    have bound : 36 ≤ Word.max32 := by decide
    rw [Binary64.toNatClamped, finite]
    unfold Dyadic.truncate at value
    dsimp only
    split <;> split at value <;> omega
  have called : method (.number m) "toString" [.number k] = .ok (.string (toRadix m.toFloat radix)) := by
    have chosen : method (.number m) "toString" [.number k] =
        if Binary64.toNatClamped Word.max32 k.toFloat < 2 ∨ 36 < Binary64.toNatClamped Word.max32 k.toFloat then
          .error (.radix (Binary64.toNatClamped Word.max32 k.toFloat))
        else .ok (.string (if Binary64.toNatClamped Word.max32 k.toFloat = 10 then Json.formatNumber m.toFloat
          else toRadix m.toFloat (Binary64.toNatClamped Word.max32 k.toFloat))) := rfl
    rw [chosen, given, if_neg (by omega), if_neg other]
  have written := toRadix_isNumeral low high whole
  refine ⟨_, called, written, fun own => ?_, fun fits => ?_⟩
  · have same := own.unique written
    unfold clamped64 at same
    omega
  · have same : clamped64 n = n := by
      unfold clamped64
      omega
    rwa [same] at written

end

/-- The least integer of 64 bits, which is a double. -/
theorem method_toString_isNumeral_at_lowest :
    Binary64.IsInt (Number.int (-9223372036854775808)).toFloat (-9223372036854775808) ∧
    Binary64.IsInt (Number.int 16).toFloat (16 : Nat) ∧
    method (.number (.int (-9223372036854775808))) "toString" [.number (.int 16)] =
      .ok (.string "-8000000000000000") ∧
    IsNumeral 16 (-9223372036854775808) "-8000000000000000".toList := by
  have lowest : Binary64.dyadic? (Binary64.ofInt (-9223372036854775808)) = some ⟨true, 2 ^ 52, 11⟩ := by
    decide +kernel
  have whole : Binary64.IsInt (Number.int (-9223372036854775808)).toFloat (-9223372036854775808) :=
    ⟨_, lowest, by decide⟩
  have base : Binary64.IsInt (Number.int 16).toFloat (16 : Nat) := Binary64.isInt_ofInt (by decide)
  obtain ⟨text, called, _, exact'⟩ := method_toString_isNumeral whole base (by decide) (by decide) (by decide)
  have answer : method (.number (.int (-9223372036854775808))) "toString" [.number (.int 16)] =
      .ok (.string "-8000000000000000") := by rfl
  rw [answer, Except.ok.injEq, Json.string.injEq] at called
  subst called
  exact ⟨whole, base, answer, exact'.mpr (by decide)⟩

/-- The numeral of a number of 65 bits has only 64 of them. -/
theorem toString_cuts_large : ∃ x, Binary64.IsInt x 18446744073709551616 ∧
    method (.number (.float x)) "toString" [.number (.int 16)] = .ok (.string "ffffffffffffffff") ∧
    ¬ IsNumeral 16 18446744073709551616 "ffffffffffffffff".toList := by
  have large : Binary64.dyadic? (Float.ofBits 0x43F0000000000000) = some ⟨false, 2 ^ 52, 12⟩ := by decide +kernel
  have whole : Binary64.IsInt (Float.ofBits 0x43F0000000000000) 18446744073709551616 := ⟨_, large, by decide⟩
  have answer : toRadix (Float.ofBits 0x43F0000000000000) 16 = "ffffffffffffffff" := by rfl
  have written : IsNumeral 16 (clamped64 18446744073709551616) (toRadix (Float.ofBits 0x43F0000000000000) 16).toList :=
    toRadix_isNumeral (by decide) (by decide) whole
  rw [answer] at written
  exact ⟨_, whole, by rfl, fun own => absurd (own.unique written) (by decide)⟩

end Builtin

end StateScript
