import StateScript.Eval.Basic
import StateScript.Proofs.ArrayActions
import StateScript.Proofs.Occurrences

/-!
Methods of texts that count or cut characters. Searching, slicing and the length of a text agree on where its
characters stand, and joining undoes splitting.
-/

namespace StateScript

namespace Binary64

/-- Rounding leaves a large number large. -/
theorem le_nearestWhole {n : Nat} (large : 2 ^ 53 ≤ n) : 2 ^ 53 ≤ nearestWhole n := by
  have positive : 0 < n := by omega
  have high := Nat.lt_log2_self (n := n)
  have long : 53 < n.log2 + 1 := (Nat.pow_lt_pow_iff_right (by decide : 1 < 2)).mp (Nat.lt_of_le_of_lt large high)
  obtain ⟨normal, _⟩ := significand_bounds positive
  rw [nearestWhole, if_neg (by omega)]
  calc 2 ^ 53 = 2 ^ 52 * 2 ^ 1 := rfl
    _ ≤ significand n * 2 ^ (n.log2 - 52) := Nat.mul_le_mul normal (Nat.pow_le_pow_right (by decide) (by omega))

/-- An integer of more than 53 bits becomes a double at least that large, with the same sign, or infinite. -/
theorem ofInt_large {n : Int} (large : 2 ^ 53 ≤ n.natAbs) : ofInt n = infinity (n < 0) ∨
    ∃ d, dyadic? (ofInt n) = some d ∧ d.negative = decide (n < 0) ∧ 2 ^ 53 ≤ d.wholePart := by
  have positive : 0 < n.natAbs := by omega
  by_cases overflow : 2047 * 2 ^ 52 ≤ (n.natAbs.log2 + 1022) * 2 ^ 52 + significand n.natAbs
  · rw [ofInt, nearest_eq positive, if_pos overflow]
    exact Or.inl rfl
  · rcases dyadic?_nearest n.natAbs with ⟨_, infinite⟩ | ⟨d, finite, unsigned, _, part, _⟩
    · rw [nearest_eq positive, if_neg overflow] at infinite
      obtain ⟨normal, _⟩ := significand_bounds positive
      cases infinite.symm.trans (dyadic?_ofBits false (by omega) (by omega))
    · have far : 2 ^ 53 ≤ d.wholePart := part ▸ le_nearestWhole large
      unfold ofInt
      cases decide (n < 0) with
      | true => exact Or.inr ⟨_, dyadic?_nearest_negative finite, rfl, far⟩
      | false => exact Or.inr ⟨d, finite, unsigned, far⟩

end Binary64

namespace Builtin

/-- The position that an integer names in a sequence: a negative one counts from the end, and none lies outside. -/
def positionOf (length : Nat) (n : Int) : Nat := (max 0 (min (if n < 0 then length + n else n) length)).toNat

/-- A number counts as an integer where positions go up to a length: it is that integer, or it is an integer that a
double can only come near, which makes no difference unless positions go further than doubles are exact. -/
inductive CountsAs (length : Nat) : Number → Int → Prop
  | exact {m : Number} {n : Int} : Binary64.IsInt m.toFloat n → CountsAs length m n
  | rounded (n : Int) : length ≤ 2 ^ 53 → CountsAs length (.int n) n

section

variable {length : Nat} {n : Int}

theorem clampedPosition_of_isInt {x : Float} (whole : Binary64.IsInt x n) :
    clampedPosition x length = positionOf length n := by
  have clamped := (ArrayEdit.spliceRange x none length).start n whole
  unfold positionOf
  omega

/-- An integer that no double need be equal to lies behind every position, in front of the sequence or at its end. -/
theorem clampedPosition_of_large (large : 2 ^ 53 ≤ n.natAbs) (short : length ≤ 2 ^ 53) :
    clampedPosition (Binary64.ofInt n) length = positionOf length n := by
  unfold clampedPosition positionOf
  rcases Binary64.ofInt_large large with infinite | ⟨d, finite, sign, far⟩
  · rw [infinite]
    by_cases below : n < 0
    · have none' : Binary64.dyadic? (Binary64.infinity true) = none := by decide +kernel
      have negative : ¬ (0 : Float) < Binary64.infinity true := by decide
      rw [decide_eq_true below, none', if_pos below]
      dsimp only
      rw [if_neg negative]
      omega
    · have none' : Binary64.dyadic? (Binary64.infinity false) = none := by decide +kernel
      have positive : (0 : Float) < Binary64.infinity false := by decide
      rw [decide_eq_false below, none', if_neg below]
      dsimp only
      rw [if_pos positive]
      omega
  · rw [finite]
    dsimp only
    rw [Dyadic.truncate, sign]
    by_cases below : n < 0
    · rw [decide_eq_true below, if_pos rfl, if_pos below]
      split <;> omega
    · rw [decide_eq_false below, if_neg Bool.false_ne_true, if_neg below]
      split <;> omega

theorem CountsAs.relativeIndex {m : Number} (counts : CountsAs length m n) (default : Nat) :
    relativeIndex (.number m) length default = positionOf length n := by
  show clampedPosition m.toFloat length = positionOf length n
  cases counts with
  | exact whole => exact clampedPosition_of_isInt whole
  | rounded _ short =>
    by_cases small : n.natAbs < 2 ^ 53
    · exact clampedPosition_of_isInt (Binary64.isInt_ofInt small)
    · exact clampedPosition_of_large (Nat.not_lt.mp small) short

end

end Builtin

namespace Text

/-- The characters of a text at the positions from `start` up to `stop`. -/
def within (start stop : Nat) (cs : List Char) : List Char :=
  (cs.zipIdx.filter fun placed => start ≤ placed.2 ∧ placed.2 < stop).map Prod.fst

theorem filter_zipIdx (start stop k : Nat) (cs : List Char) :
    ((cs.zipIdx k).filter fun placed => start ≤ placed.2 ∧ placed.2 < stop).map Prod.fst =
      (cs.take (stop - k)).drop (start - k) := by
  induction cs generalizing k with
  | nil => simp
  | cons c rest ih =>
    rw [List.zipIdx_cons, List.filter_cons]
    split
    · rename_i inside
      obtain ⟨low, high⟩ : start ≤ k ∧ k < stop := by simpa using inside
      rw [List.map_cons, ih, show stop - k = stop - (k + 1) + 1 by omega, show start - k = 0 by omega,
        show start - (k + 1) = 0 by omega]
      rfl
    · rename_i outside
      have apart : ¬ (start ≤ k ∧ k < stop) := by simpa using outside
      rw [ih]
      by_cases behind : k < stop
      · rw [show stop - k = stop - (k + 1) + 1 by omega, show start - k = start - (k + 1) + 1 by omega]
        rfl
      · rw [show stop - k = 0 by omega, show stop - (k + 1) = 0 by omega]
        simp

theorem between_eq_within (start stop : Nat) (cs : List Char) :
    Builtin.between cs start stop = within start stop cs :=
  (filter_zipIdx start stop 0 cs).symm

/-- As many characters as there are, from a position on. -/
theorem between_positionOf (cs : List Char) (i n : Nat) :
    Builtin.between cs (Builtin.positionOf cs.length i) (Builtin.positionOf cs.length (i + n : Nat)) =
      (cs.drop i).take n := by
  have clamped (k : Nat) : Builtin.positionOf cs.length k = min k cs.length := by
    unfold Builtin.positionOf
    omega
  rw [Builtin.between, List.drop_take, clamped, clamped]
  rcases Nat.le_total i cs.length with inside | beyond
  · rw [Nat.min_eq_left inside, List.take_eq_take_iff, List.length_drop]
    omega
  · rw [Nat.min_eq_right beyond, List.drop_eq_nil_of_le beyond, List.drop_length]
    simp

end Text

namespace Builtin

/-- An integer is the least position from which on `t` can be cut out of `s`, or -1 as there is none. -/
structure FirstPosition (s t : String) (found : Int) : Prop where
  inside : found ≠ -1 → 0 ≤ found ∧ found + t.length ≤ s.length
  here : found ≠ -1 → ∀ m n, CountsAs s.length m found → CountsAs s.length n (found + t.length) →
    method (.string s) "slice" [.number m, .number n] = .ok (.string t)
  least : ∀ i : Nat, found = -1 ∨ i < found → ∀ m n, CountsAs s.length m i → CountsAs s.length n (i + t.length) →
    method (.string s) "slice" [.number m, .number n] ≠ .ok (.string t)

section

variable {s t : String} {m n : Number} {a b : Int}

theorem method_slice (first : CountsAs s.length m a) (second : CountsAs s.length n b) :
    method (.string s) "slice" [.number m, .number n] =
      .ok (.string (String.ofList (between s.toList (positionOf s.length a) (positionOf s.length b)))) := by
  show Except.ok (textValue (between s.toList (relativeIndex (.number m) s.toList.length 0)
    (relativeIndex (.number n) s.toList.length s.toList.length))) = _
  rw [String.length_toList, first.relativeIndex, second.relativeIndex]
  rfl

/-- As many characters as a text has are that text exactly where it occurs. -/
theorem method_slice_eq_iff {i : Nat} (first : CountsAs s.length m i) (second : CountsAs s.length n (i + t.length)) :
    method (.string s) "slice" [.number m, .number n] = .ok (.string t) ↔ t.toList <+: s.toList.drop i := by
  have cut : between s.toList (positionOf s.length i) (positionOf s.length (i + t.length)) =
      (s.toList.drop i).take t.toList.length := by
    have part := Text.between_positionOf s.toList i t.toList.length
    rwa [String.length_toList, String.length_toList, Int.natCast_add] at part
  rw [method_slice first second, cut, List.prefix_iff_eq_take, Except.ok.injEq, Json.string.injEq, String.ofList_eq]
  exact eq_comm

theorem firstPosition_none (absent : Text.find? t.toList s.toList = none) : FirstPosition s t (-1) where
  inside other := absurd rfl other
  here other := absurd rfl other
  least i _ m n first second := by
    rw [Ne, method_slice_eq_iff first second]
    intro here
    have inside : t.toList <:+: s.toList := here.isInfix.trans (List.drop_suffix i s.toList).isInfix
    rw [← Text.isSome_find?, absent] at inside
    cases inside

theorem firstPosition_some {i : Nat} (found : Text.find? t.toList s.toList = some i) : FirstPosition s t i := by
  obtain ⟨fits, stands, least⟩ := Text.find?_eq_some found
  refine ⟨fun _ => ?_, fun _ m n first second => ?_, fun j earlier m n first second => ?_⟩
  · rw [String.length_toList, String.length_toList] at fits
    omega
  · exact (method_slice_eq_iff first second).mpr stands
  · rw [Ne, method_slice_eq_iff first second]
    exact least j (by omega)

end

/-- Positions in a text mean the same to a search, to slicing and to its length. -/
theorem method_positions (s t : String) :
    Eval.project (.string s) [.key "length"] = .nat s.length ∧
    (∃ found : Int, method (.string s) "indexOf" [.string t] = .ok (.int found) ∧
      method (.string s) "includes" [.string t] = .ok (.bool (found != -1)) ∧ FirstPosition s t found) ∧
    ∀ (a b : Int) (m n : Number), CountsAs s.length m a → CountsAs s.length n b →
      method (.string s) "slice" [.number m, .number n] =
        .ok (.string (String.ofList (Text.within (positionOf s.length a) (positionOf s.length b) s.toList))) := by
  have index : method (.string s) "indexOf" [.string t] = .ok (positionValue (Text.find? t.toList s.toList)) := rfl
  have includes : method (.string s) "includes" [.string t] =
      .ok (.bool (Text.find? t.toList s.toList).isSome) := rfl
  refine ⟨rfl, ?_, fun a b m n first second => ?_⟩
  · rw [index, includes]
    cases found : Text.find? t.toList s.toList with
    | none => exact ⟨-1, rfl, rfl, firstPosition_none found⟩
    | some i =>
      have other : ((i : Int) != -1) = true := by simp
      exact ⟨i, rfl, by rw [other]; rfl, firstPosition_some found⟩
  · rw [method_slice first second, Text.between_eq_within]

/-- From the second last character of a text on, up to an integer that no double is equal to. -/
theorem method_positions_at_faces :
    CountsAs "añ😀b😀".length (.int (-2)) (-2) ∧
    CountsAs "añ😀b😀".length (.int 9007199254740993) 9007199254740993 ∧
    method (.string "añ😀b😀") "slice" [.number (.int (-2)), .number (.int 9007199254740993)] = .ok (.string "b😀") ∧
    method (.string "añ😀b😀") "includes" [.string "😀"] = .ok (.bool true) ∧ FirstPosition "añ😀b😀" "😀" 2 := by
  have start : CountsAs "añ😀b😀".length (.int (-2)) (-2) := .exact (Binary64.isInt_ofInt (by decide))
  have stop : CountsAs "añ😀b😀".length (.int 9007199254740993) 9007199254740993 := .rounded _ (by decide)
  obtain ⟨_, ⟨found, index, includes, first⟩, slices⟩ := method_positions "añ😀b😀" "😀"
  obtain rfl : found = 2 := by
    have here : method (.string "añ😀b😀") "indexOf" [.string "😀"] = .ok (.int 2) := by rfl
    rw [here] at index
    cases index
    rfl
  refine ⟨start, stop, ?_, includes, first⟩
  rw [slices (-2) 9007199254740993 _ _ start stop]
  rfl

theorem itemTexts_strings (texts : List String) : Json.itemTexts (texts.map .string) = texts := by
  induction texts with
  | nil => rfl
  | cons text rest ih => exact congrArg (text :: ·) ih

/-- Splitting at a separator and joining with it gives the text back, whatever value the separator is. The parts are
single characters where the separator is empty, and otherwise there is none left in them. -/
theorem method_join_split (s : String) (separator : Json) : ∃ parts : List String,
    method (.string s) "split" [separator] = .ok (.array (parts.map .string)) ∧
    method (.array (parts.map .string)) "join" [separator] = .ok (.string s) ∧
    (separator ≠ .null → ∀ part ∈ parts, (separator.toText = "" → part.length = 1) ∧
      (separator.toText ≠ "" → ¬ separator.toText.toList <:+: part.toList)) := by
  by_cases none' : separator = .null
  · subst none'
    have split : method (.string s) "split" [.null] = .ok (.array [.string (String.ofList s.toList)]) := rfl
    have join : method (.array [.string s]) "join" [.null] = .ok (.string (",".intercalate [s])) := rfl
    rw [String.ofList_toList] at split
    rw [String.intercalate_singleton] at join
    exact ⟨[s], split, join, fun some' => absurd rfl some'⟩
  have split : method (.string s) "split" [separator] =
      .ok (.array ((Text.split separator.toText.toList s.toList).map textValue)) := by
    cases separator with
    | null => exact absurd rfl none'
    | bool | number | string | array | object => rfl
  have join (items : List Json) : method (.array items) "join" [separator] =
      .ok (.string (separator.toText.intercalate (Json.itemTexts items))) := by
    cases separator with
    | null => exact absurd rfl none'
    | bool | number | string | array | object => rfl
  refine ⟨(Text.split separator.toText.toList s.toList).map String.ofList, ?_, ?_, fun _ part member => ?_⟩
  · rw [split, List.map_map]
    rfl
  · rw [join, itemTexts_strings, Except.ok.injEq, Json.string.injEq, ← String.toList_inj, String.toList_intercalate,
      List.map_map]
    have same : String.toList ∘ String.ofList = id := funext fun cs => String.toList_ofList
    rw [same, List.map_id, Text.intercalate_split]
  · obtain ⟨piece, among, rfl⟩ := List.mem_map.mp member
    rw [String.length_ofList, String.toList_ofList]
    refine ⟨fun empty => ?_, fun some' => ?_⟩
    · rw [empty] at among
      exact Text.length_of_mem_split among
    · exact Text.split_unbroken (mt String.toList_eq_nil_iff.mp some') among

/-- Occurrences that overlap: the first one splits, and what is left of the second stays in the part behind it. -/
theorem method_join_split_at_overlaps :
    method (.array [.string "b", .string "ab"]) "join" [.string "aa"] = .ok (.string "baaab") ∧
      ¬ "aa".toList <:+: "ab".toList := by
  obtain ⟨parts, split, join, unbroken⟩ := method_join_split "baaab" (.string "aa")
  obtain rfl : parts = ["b", "ab"] := by
    have here : method (.string "baaab") "split" [.string "aa"] = .ok (.array (["b", "ab"].map .string)) := by rfl
    rw [here, Except.ok.injEq, Json.array.injEq] at split
    exact (List.map_injective_iff.mpr (fun _ _ => Json.string.inj) split).symm
  exact ⟨join, (unbroken nofun "ab" (by simp)).2 (by decide)⟩

end Builtin

end StateScript
