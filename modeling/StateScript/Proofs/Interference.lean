import StateScript.Path.Match
import StateScript.Proofs.Addresses
import StateScript.Proofs.WriteLaws

/-!
Which writes change what is read at a path. Two segments name one place if they are the same member of an object or
the same item of an array, and a write changes what is read elsewhere only where the two paths name the same places
as far as both go. Whether paths intersect is decided by their segments alone, and misses one case: two keys that
spell one position differently are one place in an array, and are taken for two.
-/

namespace StateScript

namespace Segment

/-- Whether two segments name the same place in some value: a member of an object, or an item of an array. -/
def meets (a b : Segment) : Bool := a.text == b.text || (a.place?.isSome && a.place? == b.place?)

/-- Two keys that spell one position differently. -/
def areTwins : Segment → Segment → Bool
  | key a, key b => a != b && (position? a).isSome && position? a == position? b
  | _, _ => false

end Segment

namespace Path

/-- Whether two paths name the same places as far as both go. -/
def meet (a b : Path) : Bool := (a.zip b).all fun pair => pair.1.meets pair.2

/-- Whether two paths name the same places as far as both go, and somewhere do so by keys that spell one
position differently. -/
def meetAtTwins (a b : Path) : Bool := meet a b && (a.zip b).any fun pair => pair.1.areTwins pair.2

theorem meet_cons (s t : Segment) (q p : Path) : meet (s :: q) (t :: p) = (s.meets t && meet q p) := rfl

end Path

namespace Json

/-- What is read at a path, where a missing value counts as null. -/
def look (value : Json) (path : Path) : Json := (value.get? path).getD .null

theorem look_cons (value : Json) (segment : Segment) (rest : Path) :
    value.look (segment :: rest) = ((value.child? segment).getD .null).look rest := by
  unfold look
  rw [get?]
  cases value.child? segment with
  | some child => rfl
  | none =>
    cases rest with
    | nil => rfl
    | cons next more => cases next <;> rfl

/-- Nothing is read below an empty container, as nothing is below null. -/
theorem look_emptyFor (segment next : Segment) (rest : Path) :
    (emptyFor segment).look (next :: rest) = null.look (next :: rest) := by
  have missing : (emptyFor segment).child? next = none := by
    cases segment with
    | index i =>
      rw [emptyFor, child?_items]
      cases next.place? <;> rfl
    | key | wildcard => cases next <;> rfl
  have none' : null.child? next = none := by cases next <;> rfl
  rw [look_cons, look_cons, missing, none']

theorem look_prepared (value : Json) (path : Path) (next : Segment) (rest : Path) :
    (value.prepared path).look (next :: rest) = value.look (next :: rest) := by
  cases empty : value.isNull with
  | false => rw [prepared_eq_self empty]
  | true =>
    rw [isNull_iff] at empty
    subst empty
    cases path with
    | nil => rfl
    | cons segment more => exact look_emptyFor segment next rest

theorem look_started (value : Json) (path : Path) (next : Segment) (rest : Path) :
    (value.started path).look (next :: rest) = value.look (next :: rest) := by
  cases empty : value.isNull with
  | false => rw [started_eq_self empty]
  | true =>
    rw [isNull_iff] at empty
    subst empty
    match path with
    | [] => rfl
    | [segment] => exact look_emptyFor segment next rest
    | segment :: second :: more => exact look_emptyFor .wildcard next rest

/-- Padding shows nowhere: what is missing counts as null. -/
theorem getD_padded (items : List Json) (i j : Nat) : (padded items i)[j]?.getD .null = items[j]?.getD .null := by
  unfold padded
  by_cases within : j < items.length
  · rw [List.getElem?_append_left within]
  · rw [List.getElem?_append_right (Nat.not_lt.mp within), List.getElem?_eq_none (Nat.not_lt.mp within),
      List.getElem?_replicate]
    split <;> rfl

/-- A write leaves what is read at a path that names another place. -/
theorem look_writeBelow {value : Json} (new : Json) {q p : Path} (apart : Path.meet q p = false) :
    (writeBelow value q new).1.look p = value.look p := by
  induction q generalizing value p with
  | nil => cases apart
  | cons s q ih =>
    cases p with
    | nil => cases apart
    | cons t p =>
      rw [Path.meet_cons] at apart
      -- Where the first segments meet, the paths part behind them, and so go on there.
      have behind (meets : s.meets t = true) (old : Json) :
          (writeBelow (old.prepared q) q new).1.look p = old.look p := by
        rw [meets, Bool.true_and] at apart
        rw [ih apart]
        cases p with
        | nil => cases q <;> cases apart
        | cons next rest => exact look_prepared old q next rest
      cases value with
      | object ms =>
        simp only [writeBelow]
        rw [look_cons, look_cons]
        by_cases wild : t = .wildcard
        · subst wild
          rfl
        · rw [child?_object wild, child?_object wild]
          by_cases same : t.text = s.text
          · rw [same, Members.find?_insert_self, Option.getD_some]
            exact behind (by simp [Segment.meets, same]) _
          · rw [Members.find?_insert_ne same]
      | array items =>
        simp only [writeBelow]
        cases addressed : slot items s with
        | error fault => rfl
        | ok i =>
          have place := place?_of_slot addressed
          simp only
          rw [look_cons, look_cons, child?_items, child?_items]
          cases other : t.place? with
          | none => rfl
          | some j =>
            simp only [Option.bind_some]
            by_cases same : j = i
            · subst same
              rw [List.getElem?_set_self (lt_length_padded items j), Option.getD_some,
                behind (by simp [Segment.meets, place, other]), List.getD_eq_getElem?_getD, getD_padded]
            · rw [List.getElem?_set_ne (Ne.symm same), getD_padded]
      | null | bool | number | string => rfl

/-- A write that succeeds and changes what is read at a path. -/
def Changes (root : Json) (q : Path) (new : Json) (p : Path) : Prop :=
  (root.write q new).2 = none ∧ (root.write q new).1.look p ≠ root.look p

theorem Changes.meet {root new : Json} {q p : Path} (changes : root.Changes q new p) : Path.meet q p = true := by
  obtain ⟨success, different⟩ := changes
  cases apart : Path.meet q p with
  | true => rfl
  | false =>
    cases p with
    | nil => cases q <;> cases apart
    | cons next rest =>
      refine absurd ?_ different
      unfold write at success ⊢
      cases refused : forbidden? q with
      | some fault => rfl
      | none => exact (look_writeBelow new apart).trans (look_started root q next rest)

/-- A container in which two segments that meet name one child. -/
theorem exists_shared {s t : Segment} (plainS : s ≠ .wildcard) (plainT : t ≠ .wildcard) (meets : s.meets t = true)
    (child : Json) : ∃ container : Json, container.child? s = some child ∧ container.child? t = some child ∧
      ∀ new, (container.setChild s new).child? t = some new := by
  simp only [Segment.meets, Bool.or_eq_true, Bool.and_eq_true, beq_iff_eq, Option.isSome_iff_exists] at meets
  rcases meets with same | ⟨⟨i, place⟩, same⟩
  · have found : Members.find? s.text [(s.text, child)] = some child := by simp [Members.find?]
    refine ⟨.object [(s.text, child)], ?_, ?_, fun new => ?_⟩
    · rw [child?_object plainS, found]
    · rw [child?_object plainT, ← same, found]
    · rw [setChild, child?_object plainT, ← same, Members.find?_insert_self]
  · have other : t.place? = some i := same.symm.trans place
    have item : (List.replicate i null ++ [child])[i]? = some child := by simp
    refine ⟨.array (List.replicate i .null ++ [child]), ?_, ?_, fun new => ?_⟩
    · rw [child?_items, place, Option.bind_some, item]
    · rw [child?_items, other, Option.bind_some, item]
    · rw [setChild_items place, child?_items, other, Option.bind_some, List.getElem?_set_self (by simp)]

theorem exists_get? {path : Path} (plain : .wildcard ∉ path) (value : Json) : ∃ root : Json,
    root.get? path = some value := by
  induction path with
  | nil => exact ⟨value, rfl⟩
  | cons segment rest ih =>
    simp only [List.mem_cons, not_or] at plain
    obtain ⟨child, found⟩ := ih plain.2
    obtain ⟨container, there, _⟩ := exists_shared (Ne.symm plain.1) (Ne.symm plain.1) (by simp [Segment.meets]) child
    exact ⟨container, by rw [get?, there, Option.bind_some, found]⟩

/-- Where two paths name the same places, a value can be replaced at one that is read at the other, above it or
below it. -/
theorem exists_replaced {q p : Path} (plainQ : .wildcard ∉ q) (plainP : .wildcard ∉ p)
    (meets : Path.meet q p = true) : ∃ root left : Json, root.replace? q .null = some left ∧
      left.look p ≠ root.look p := by
  induction q generalizing p with
  | nil =>
    obtain ⟨root, found⟩ := exists_get? plainP (.bool true)
    have nothing : null.look p = null := by cases p with
      | nil => rfl
      | cons next rest => cases next <;> rfl
    refine ⟨root, .null, rfl, ?_⟩
    rw [nothing, look, found]
    simp
  | cons s q ih =>
    cases p with
    | nil =>
      obtain ⟨root, found⟩ := exists_get? plainQ (.bool true)
      obtain ⟨left, replaced⟩ := exists_replace? found .null
      refine ⟨root, left, replaced, fun same => ?_⟩
      have again := get?_replace? replaced
      rw [show left = root from same, found] at again
      cases again
    | cons t p =>
      simp only [List.mem_cons, not_or] at plainQ plainP
      rw [Path.meet_cons, Bool.and_eq_true] at meets
      obtain ⟨child, below, replaced, different⟩ := ih plainQ.2 plainP.2 meets.2
      obtain ⟨container, there, shared, put⟩ :=
        exists_shared (Ne.symm plainQ.1) (Ne.symm plainP.1) meets.1 child
      refine ⟨container, container.setChild s below, ?_, ?_⟩
      · rw [replace?_cons, there, Option.bind_some, replaced, Option.map_some]
      · rw [look_cons, look_cons, put, shared]
        exact different

/-- Some write at a path changes what is read at another one exactly if it may be written and the two name the
same places as far as both go. -/
theorem exists_changes_iff {q p : Path} (plainQ : .wildcard ∉ q) (plainP : .wildcard ∉ p) :
    (∃ root new : Json, root.Changes q new p) ↔ forbidden? q = none ∧ Path.meet q p = true := by
  constructor
  · rintro ⟨root, new, changes⟩
    exact ⟨permitted_of_write changes.1, changes.meet⟩
  · rintro ⟨permitted, meets⟩
    obtain ⟨root, left, replaced, different⟩ := exists_replaced plainQ plainP meets
    obtain ⟨old, found⟩ := exists_get?_of_replace? replaced
    obtain ⟨same, again, written⟩ := write_of_get? found permitted .null
    rw [replaced] at again
    refine ⟨root, .null, ?_⟩
    unfold Changes
    rw [written, ← Option.some.inj again]
    exact ⟨rfl, different⟩

end Json

theorem position?_le {text : String} {i : Nat} (found : position? text = some i) : i ≤ Word.max64 := by
  unfold position? at found
  dsimp only at found
  split at found
  all_goals
    split at found
    · cases found
    · split at found
      · rename_i fits
        exact Option.some.inj found ▸ fits
      · cases found

theorem position?_toString {i : Nat} (fits : i ≤ Word.max64) : position? (toString i) = some i := by
  have spelled := (isDigits_toString i).position?
  rwa [String.ofList_toList, Decimal.naturalOf_toString, if_pos fits] at spelled

namespace Segment

/-- Segments that meet match, or are keys that spell one position differently. -/
theorem meets_iff {s t : Segment} (fitsS : ∀ i, s = .index i → i ≤ Word.max64)
    (fitsT : ∀ i, t = .index i → i ≤ Word.max64) (plainS : s ≠ .wildcard) (plainT : t ≠ .wildcard) :
    s.meets t = true ↔ s.matchesSegment t = true ∨ s.areTwins t = true := by
  cases s with
  | wildcard => exact absurd rfl plainS
  | key a =>
    cases t with
    | wildcard => exact absurd rfl plainT
    | key b =>
      by_cases same : a = b <;> simp [meets, matchesSegment, areTwins, text, place?, same]
    | index j =>
      have spelled := position?_toString (fitsT j rfl)
      simp only [meets, matchesSegment, areTwins, text, place?, Bool.or_eq_true, Bool.and_eq_true, beq_iff_eq,
        Bool.false_eq_true, or_false]
      constructor
      · rintro (same | ⟨_, same⟩)
        · rw [same, spelled]
        · exact same
      · exact fun same => Or.inr ⟨by rw [same]; rfl, same⟩
  | index i =>
    cases t with
    | wildcard => exact absurd rfl plainT
    | key b =>
      have spelled := position?_toString (fitsS i rfl)
      simp only [meets, matchesSegment, areTwins, text, place?, Bool.or_eq_true, Bool.and_eq_true, beq_iff_eq,
        Bool.false_eq_true, or_false, Option.isSome_some, true_and]
      constructor
      · rintro (same | same)
        · rw [← same, spelled]
        · exact same.symm
      · exact fun same => Or.inr same.symm
    | index j =>
      simp only [meets, matchesSegment, areTwins, text, place?, Bool.or_eq_true, Bool.and_eq_true, beq_iff_eq,
        Bool.false_eq_true, or_false, Option.isSome_some, true_and, Option.some.injEq]
      exact ⟨fun same => same.elim Nat.repr_inj.mp id, Or.inr⟩

theorem matchesSegment_of_areTwins {s t : Segment} (twins : s.areTwins t = true) : s.matchesSegment t = false := by
  cases s with
  | key a =>
    cases t with
    | key b =>
      simp only [areTwins, Bool.and_eq_true] at twins
      simpa [matchesSegment] using twins.1.1
    | index | wildcard => cases twins
  | index | wildcard => cases twins

theorem matchesSegment_comm (s t : Segment) : s.matchesSegment t = t.matchesSegment s := by
  cases s <;> cases t <;> simp [matchesSegment, Bool.beq_comm]

theorem index_le_of_ofDotted {raw : List Char} {i : Nat} (read : ofDotted raw = .index i) : i ≤ Word.max64 := by
  unfold ofDotted at read
  split at read
  · cases read
  · simp only at read
    split at read
    · rename_i j found
      split at read
      · cases read
        exact position?_le found
      · cases read
    · cases read

end Segment

namespace Path

theorem agree_comm (a b : Path) : agree a b = agree b a := by
  induction a generalizing b with
  | nil => cases b <;> rfl
  | cons s a ih =>
    cases b with
    | nil => rfl
    | cons t b => rw [agree, agree, Segment.matchesSegment_comm, ih]

theorem agree_eq_all (a b : Path) : agree a b = (a.zip b).all fun pair => pair.1.matchesSegment pair.2 := by
  induction a generalizing b with
  | nil => rfl
  | cons s a ih =>
    cases b with
    | nil => rfl
    | cons t b => rw [agree, ih, List.zip_cons_cons, List.all_cons]

theorem index_le_of_dotted {current : List Char} {i : Nat} (member : .index i ∈ dotted current) :
    i ≤ Word.max64 := by
  unfold dotted at member
  split at member
  · cases member
  · exact Segment.index_le_of_ofDotted (List.mem_singleton.mp member).symm

theorem index_le_of_bracketed {inner : List Char} {completed : List Segment}
    (read : bracketed inner = .ok completed) {i : Nat} (member : .index i ∈ completed) : i ≤ Word.max64 := by
  simp only [bracketed] at read
  split at read
  · cases read
  · cases read
    exact Segment.index_le_of_ofDotted (List.mem_singleton.mp member).symm

theorem index_le_of_step {mode after : Mode} {c : Char} {completed : List Segment}
    (stepped : step mode c = .ok (after, completed)) {i : Nat} (member : .index i ∈ completed) :
    i ≤ Word.max64 := by
  cases mode with
  | plain current afterBracket =>
    simp only [step] at stepped
    split at stepped
    · split at stepped
      · cases stepped
      · cases stepped
        exact index_le_of_dotted member
    · split at stepped
      · cases stepped
        exact index_le_of_dotted member
      · cases stepped
        cases member
  | opened =>
    simp only [step] at stepped
    split at stepped
    · cases stepped
      cases member
    · split at stepped
      · cases stepped
      · cases stepped
        cases member
  | bracket inner =>
    simp only [step] at stepped
    split at stepped
    · obtain ⟨segments, inside, same⟩ := map_eq_ok.mp stepped
      cases same
      exact index_le_of_bracketed inside member
    · cases stepped
      cases member
  | quoted quote inner =>
    simp only [step] at stepped
    split at stepped <;> (cases stepped; cases member)
  | closing inner =>
    simp only [step] at stepped
    split at stepped
    · cases stepped
      cases List.mem_singleton.mp member
    · cases stepped

theorem index_le_of_finish {mode : Mode} {completed : List Segment} (finished : finish mode = .ok completed)
    {i : Nat} (member : .index i ∈ completed) : i ≤ Word.max64 := by
  cases mode with
  | plain current afterBracket =>
    simp only [finish] at finished
    split at finished
    · cases finished
    · cases finished
      exact index_le_of_dotted member
  | opened | bracket | quoted | closing => cases finished

theorem index_le_of_readFrom {mode : Mode} {cs : List Char} {path : Path} (read : readFrom mode cs = .ok path)
    {i : Nat} (member : .index i ∈ path) : i ≤ Word.max64 := by
  induction cs generalizing mode path with
  | nil => exact index_le_of_finish read member
  | cons c rest ih =>
    rw [readFrom] at read
    obtain ⟨⟨after, completed⟩, stepped, further⟩ := bind_eq_ok.mp read
    obtain ⟨more, behind, whole⟩ := bind_eq_ok.mp further
    cases whole
    rcases List.mem_append.mp member with now | later
    · exact index_le_of_step stepped now
    · exact ih behind later

/-- Each index that a text spells fits 64 bits. -/
theorem index_le_of_parse {text : String} {path : Path} (parsed : parse text = .ok path) {i : Nat}
    (member : .index i ∈ path) : i ≤ Word.max64 := by
  have found := read_of_parse parsed
  simp only [read] at found
  split at found
  · cases found
  · exact index_le_of_readFrom found member

theorem withoutWildcard_of_plain {path : Path} (plain : .wildcard ∉ path) : withoutWildcard path = path := by
  have ends : endsInWildcard path = false := by
    unfold endsInWildcard
    rw [beq_eq_false_iff_ne]
    exact fun last => plain (List.mem_of_getLast? last)
  simp [withoutWildcard, ends]

/-- Of paths that meet, those do not agree that meet at keys which spell one position differently. -/
theorem agree_eq_false_iff {a b : Path} (plainA : .wildcard ∉ a) (plainB : .wildcard ∉ b)
    (fitsA : ∀ i, .index i ∈ a → i ≤ Word.max64) (fitsB : ∀ i, .index i ∈ b → i ≤ Word.max64)
    (meets : meet a b = true) : agree a b = false ↔ meetAtTwins a b = true := by
  rw [meetAtTwins, meets, Bool.true_and, agree_eq_all, List.all_eq_false, List.any_eq_true]
  constructor
  · rintro ⟨⟨s, t⟩, member, apart⟩
    obtain ⟨inA, inB⟩ := List.of_mem_zip member
    have either := (Segment.meets_iff (fun i same => fitsA i (same ▸ inA)) (fun i same => fitsB i (same ▸ inB))
      (fun same => plainA (same ▸ inA)) (fun same => plainB (same ▸ inB))).mp
      (List.all_eq_true.mp meets (s, t) member)
    exact ⟨(s, t), member, either.resolve_left apart⟩
  · rintro ⟨⟨s, t⟩, member, twins⟩
    refine ⟨(s, t), member, ?_⟩
    simp [Segment.matchesSegment_of_areTwins twins]

/-- A write that changes what is read at another path has a path that intersects it, unless the two paths name the
same places by keys that spell a position differently and the write may be made. -/
theorem textsIntersect_of_changes_iff {p q : String} {a b : Path} (reads : parse p = .ok a)
    (writes : parse q = .ok b) (plainA : .wildcard ∉ a) (plainB : .wildcard ∉ b) :
    (∀ root new : Json, root.Changes b new a → textsIntersect p q = true) ↔
      ¬ (Json.forbidden? b = none ∧ meetAtTwins b a = true) := by
  have decided : textsIntersect p q = agree b a := by
    simp only [textsIntersect, read_of_parse reads, read_of_parse writes, intersect,
      withoutWildcard_of_plain plainA, withoutWildcard_of_plain plainB, agree_comm a b]
  have twins := agree_eq_false_iff plainB plainA (fun _ => index_le_of_parse writes)
    (fun _ => index_le_of_parse reads)
  rw [decided]
  constructor
  · rintro sound ⟨permitted, atTwins⟩
    have meets : meet b a = true := (Bool.and_eq_true_iff.mp atTwins).1
    obtain ⟨root, new, changes⟩ := (Json.exists_changes_iff plainB plainA).mpr ⟨permitted, meets⟩
    have apart := (twins meets).mpr atTwins
    rw [sound root new changes] at apart
    cases apart
  · intro exception root new changes
    obtain ⟨permitted, meets⟩ := (Json.exists_changes_iff plainB plainA).mp ⟨root, new, changes⟩
    cases agrees : agree b a with
    | true => rfl
    | false => exact absurd ⟨permitted, (twins meets).mp agrees⟩ exception

theorem textsIntersect_of_changes_iff_at_leadingZero :
    parse "list[7]" = .ok [.key "list", .index 7] ∧ parse "list['07']" = .ok [.key "list", .key "07"] ∧
      Segment.wildcard ∉ [.key "list", .index 7] ∧ Segment.wildcard ∉ [.key "list", .key "07"] ∧
      ∀ root new : Json, root.Changes [.key "list", .key "07"] new [.key "list", .index 7] →
        textsIntersect "list[7]" "list['07']" = true := by
  have reads : parse "list[7]" = .ok [.key "list", .index 7] := rfl
  have writes : parse "list['07']" = .ok [.key "list", .key "07"] := rfl
  have plainA : Segment.wildcard ∉ [.key "list", .index 7] := by decide
  have plainB : Segment.wildcard ∉ [.key "list", .key "07"] := by decide
  exact ⟨reads, writes, plainA, plainB,
    (textsIntersect_of_changes_iff reads writes plainA plainB).mpr (by decide +kernel)⟩

/-- The first item is written through one key and read through another, and the two do not intersect. -/
theorem twin_keys_change_unseen : parse "['0']" = .ok [.key "0"] ∧ parse "+0" = .ok [.key "+0"] ∧
    (Json.array [.bool true]).Changes [.key "+0"] .null [.key "0"] ∧ textsIntersect "['0']" "+0" = false := by
  refine ⟨rfl, rfl, ⟨rfl, fun same => ?_⟩, by decide +kernel⟩
  have written : ((Json.array [.bool true]).write [.key "+0"] .null).1.look [.key "0"] = .null := rfl
  rw [written] at same
  cases same

end Path

end StateScript
