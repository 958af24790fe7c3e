import StateScript.Proofs.WellNamed

/-!
Parsed trees are shallow. A builder is told at which depth its node stands, and puts an operand as
many levels further down as there are operators or links around it; so whatever mixture of chains,
literals, calls and conditionals a text holds, no node stands below the deepest level, and a descent
from the root passes no more nodes than there are levels.
-/

namespace StateScript

namespace Expr

theorem exceedsDepth_succ {limit : Nat} {e : Expr} :
    e.exceedsDepth (limit + 1) = true ↔ ∃ child ∈ e.children, child.exceedsDepth limit = true := by
  rw [exceedsDepth, List.any_eq_true]

/-- Nodes below a tree, each a child of the one before. -/
def Descends (e : Expr) (below : List Expr) : Prop :=
  List.IsChain (fun parent child => child ∈ parent.children) (e :: below)

/-- A tree has more levels than the limit exactly if a descent from its root passes more nodes. -/
theorem exceedsDepth_iff {limit : Nat} {e : Expr} :
    e.exceedsDepth limit = true ↔ ∃ below, e.Descends below ∧ limit < (e :: below).length := by
  induction limit generalizing e with
  | zero => exact ⟨fun _ => ⟨[], List.IsChain.singleton e, Nat.zero_lt_one⟩, fun _ => rfl⟩
  | succ limit ih =>
    rw [exceedsDepth_succ]
    constructor
    · rintro ⟨child, mem, deep⟩
      obtain ⟨below, chain, longer⟩ := ih.mp deep
      exact ⟨child :: below, List.IsChain.cons_cons mem chain, Nat.succ_lt_succ longer⟩
    · rintro ⟨below, chain, longer⟩
      cases below with
      | nil => exact absurd (Nat.lt_of_succ_lt_succ longer) (Nat.not_lt_zero limit)
      | cons child rest =>
        obtain ⟨mem, chain⟩ := List.isChain_cons_cons.mp chain
        exact ⟨child, mem, ih.mpr ⟨rest, chain, Nat.lt_of_succ_lt_succ longer⟩⟩

/-- Nothing of a tree whose root stands at some depth stands below the deepest level. -/
def FitsAt (depth : Nat) (e : Expr) : Prop := ∀ limit, maxNesting < depth + limit → e.exceedsDepth limit = false

section

variable {depth level : Nat} {e : Expr}

theorem FitsAt.mono (fits : e.FitsAt level) (higher : depth ≤ level) : e.FitsAt depth :=
  fun limit beyond => fits limit (Nat.lt_of_lt_of_le beyond (Nat.add_le_add_right higher limit))

/-- A node fits if its children fit one level further down. -/
theorem FitsAt.node (inside : depth ≤ maxNesting) (children : ∀ child ∈ e.children, child.FitsAt (depth + 1)) :
    e.FitsAt depth := by
  intro limit beyond
  cases limit with
  | zero => exact absurd beyond (Nat.not_lt.mpr inside)
  | succ limit =>
    rw [← Bool.not_eq_true, exceedsDepth_succ]
    rintro ⟨child, mem, deep⟩
    have shallow := children child mem limit (by omega)
    exact absurd deep (Bool.eq_false_iff.mp shallow)

/-- A node without children fits everywhere. -/
theorem FitsAt.leaf (inside : depth ≤ maxNesting) (bare : e.children = []) : e.FitsAt depth :=
  .node inside fun _ mem => absurd (bare ▸ mem) List.not_mem_nil

end

end Expr

namespace Phrase

open StateScript.Expr (FitsAt)

theorem deeper_eq_ok_iff {depth levels below : Nat} :
    deeper depth levels = .ok below ↔ below = depth + levels ∧ depth + levels ≤ maxNesting := by
  unfold deeper
  split
  · constructor
    · nofun
    · omega
  · constructor
    · rintro ⟨⟩
      exact ⟨rfl, by omega⟩
    · rintro ⟨rfl, _⟩
      rfl

section

variable {depth : Nat}

theorem fitsAt_infixNode {op : InfixOp} {left right : Expr} (inside : depth ≤ maxNesting)
    (first : left.FitsAt (depth + 1)) (second : right.FitsAt (depth + 1)) :
    (infixNode op left right).FitsAt depth := by
  refine .node inside fun child mem => ?_
  have among : child = left ∨ child = right := by
    cases op <;> simpa [infixNode, Expr.children] using mem
  obtain rfl | rfl := among
  · exact first
  · exact second

/-- Each unary operator takes one of the levels that the operand was put down. -/
theorem fitsAt_signedNode {ops : List (UnaryOp × Span)} {operand : Expr}
    (inside : depth + ops.length ≤ maxNesting) (inner : operand.FitsAt (depth + ops.length)) :
    (signedNode ops operand).FitsAt depth := by
  induction ops generalizing depth with
  | nil => exact inner
  | cons op rest ih =>
    simp only [List.length_cons] at inside inner
    have below : (signedNode rest operand).FitsAt (depth + 1) :=
      ih (by omega) (inner.mono (by omega))
    refine .node (by omega) fun child mem => ?_
    have same : child = signedNode rest operand := List.mem_singleton.mp mem
    exact same ▸ below

end

mutual

/-- What is built for a depth fits there. -/
theorem build_fitsAt (p : Phrase) {depth : Nat} {e : Expr} (inside : depth ≤ maxNesting)
    (built : p.build depth = .ok e) : e.FitsAt depth := by
  match p with
  | .number digits span =>
    cases built
    exact .leaf inside rfl
  | .string raw span =>
    obtain ⟨text, _, made⟩ := bind_eq_ok.mp built
    cases made
    exact .leaf inside rfl
  | .bool value span =>
    cases built
    exact .leaf inside rfl
  | .null span =>
    cases built
    exact .leaf inside rfl
  | .name text span =>
    cases built
    exact .leaf inside rfl
  | .list items span =>
    obtain ⟨below, further, rest⟩ := bind_eq_ok.mp built
    obtain ⟨rfl, room⟩ := deeper_eq_ok_iff.mp further
    obtain ⟨es, elements, made⟩ := bind_eq_ok.mp rest
    cases made
    exact .node inside (buildList_fitsAt items room elements)
  | .record fields span =>
    obtain ⟨below, further, rest⟩ := bind_eq_ok.mp built
    obtain ⟨rfl, room⟩ := deeper_eq_ok_iff.mp further
    obtain ⟨ps, properties, made⟩ := bind_eq_ok.mp rest
    cases made
    exact .node inside (buildFields_fitsAt fields room properties)
  | .linked base links =>
    obtain ⟨below, further, rest⟩ := bind_eq_ok.mp built
    obtain ⟨rfl, room⟩ := deeper_eq_ok_iff.mp further
    obtain ⟨inner, operand, hung⟩ := bind_eq_ok.mp rest
    exact buildLinks_fitsAt links room (Nat.le_refl _) (build_fitsAt base room operand) hung
  | .signed ops operand =>
    obtain ⟨below, further, rest⟩ := bind_eq_ok.mp built
    obtain ⟨rfl, room⟩ := deeper_eq_ok_iff.mp further
    obtain ⟨inner, bare, made⟩ := bind_eq_ok.mp rest
    cases made
    exact fitsAt_signedNode room (build_fitsAt operand room bare)
  | .chain first operands =>
    obtain ⟨below, further, rest⟩ := bind_eq_ok.mp built
    obtain ⟨rfl, room⟩ := deeper_eq_ok_iff.mp further
    obtain ⟨inner, operand, grouped⟩ := bind_eq_ok.mp rest
    exact buildChain_fitsAt operands room (Nat.le_refl _) (build_fitsAt first room operand) grouped
  | .choice test consequent alternate span =>
    obtain ⟨below, further, rest⟩ := bind_eq_ok.mp built
    obtain ⟨rfl, room⟩ := deeper_eq_ok_iff.mp further
    obtain ⟨c, condition, rest⟩ := bind_eq_ok.mp rest
    obtain ⟨a, yes, rest⟩ := bind_eq_ok.mp rest
    obtain ⟨b, no, made⟩ := bind_eq_ok.mp rest
    cases made
    refine .node inside ?_
    simp only [Expr.children, List.mem_cons, List.not_mem_nil, or_false]
    rintro child (rfl | rfl | rfl)
    · exact build_fitsAt test room condition
    · exact build_fitsAt consequent room yes
    · exact build_fitsAt alternate room no
  termination_by structural p

theorem buildList_fitsAt (ps : List Phrase) {depth : Nat} {es : List Expr} (inside : depth ≤ maxNesting)
    (built : buildList depth ps = .ok es) : ∀ e ∈ es, e.FitsAt depth := by
  match ps with
  | [] =>
    cases built
    exact nofun
  | p :: more =>
    obtain ⟨e, first, rest⟩ := bind_eq_ok.mp built
    obtain ⟨others, behind, made⟩ := bind_eq_ok.mp rest
    cases made
    exact List.forall_mem_cons.mpr ⟨build_fitsAt p inside first, buildList_fitsAt more inside behind⟩
  termination_by structural ps

theorem buildFields_fitsAt (fs : List (PhraseKey × Phrase)) {depth : Nat} {ps : List (String × Expr)}
    (inside : depth ≤ maxNesting) (built : buildFields depth fs = .ok ps) :
    ∀ e ∈ ps.map Prod.snd, e.FitsAt depth := by
  match fs with
  | [] =>
    cases built
    exact nofun
  | (key, p) :: more =>
    obtain ⟨label, e, others, first, behind, rfl⟩ := buildFields_cons_eq_ok built
    exact List.forall_mem_cons.mpr ⟨build_fitsAt p inside first, buildFields_fitsAt more inside behind⟩
  termination_by structural fs

/-- The base stands below all the links that are still to come, and what a link brings along stands
at `below`, which is no higher. -/
theorem buildLinks_fitsAt (ls : List PhraseLink) {depth below : Nat} {base e : Expr} (inside : below ≤ maxNesting)
    (room : depth + ls.length ≤ below) (inner : base.FitsAt (depth + ls.length))
    (built : buildLinks below base ls = .ok e) : e.FitsAt depth := by
  match ls with
  | [] =>
    cases built
    exact inner
  | l :: more =>
    obtain ⟨hung, first, rest⟩ := bind_eq_ok.mp built
    have link : hung.FitsAt (depth + more.length) :=
      buildLink_fitsAt l inside room inner first
    exact buildLinks_fitsAt more inside (Nat.le_of_succ_le room) link rest
  termination_by structural ls

theorem buildLink_fitsAt (l : PhraseLink) {depth below : Nat} {base e : Expr} (inside : below ≤ maxNesting)
    (room : depth + 1 ≤ below) (inner : base.FitsAt (depth + 1)) (built : buildLink below base l = .ok e) :
    e.FitsAt depth := by
  have higher : depth ≤ maxNesting := Nat.le_trans (Nat.le_of_succ_le room) inside
  match l with
  | .member property optional span =>
    cases built
    exact .node higher (List.forall_mem_singleton.mpr inner)
  | .index key optional span =>
    obtain ⟨k, computed, made⟩ := bind_eq_ok.mp built
    cases made
    have brought := (build_fitsAt key inside computed).mono room
    exact .node higher (List.forall_mem_cons.mpr ⟨inner, List.forall_mem_singleton.mpr brought⟩)
  | .call args span =>
    obtain ⟨es, passed, made⟩ := bind_eq_ok.mp built
    cases made
    have brought := fun e mem => (buildList_fitsAt args inside passed e mem).mono room
    exact .node higher (List.forall_mem_cons.mpr ⟨inner, brought⟩)
  termination_by structural l

theorem buildChain_fitsAt (ps : List (InfixOp × Phrase)) {depth below : Nat} {left e : Expr}
    (inside : below ≤ maxNesting) (room : depth + ps.length ≤ below) (first : left.FitsAt (depth + ps.length))
    (built : buildChain below left ps = .ok e) : e.FitsAt depth := by
  match ps with
  | [] =>
    cases built
    exact first
  | (op, p) :: more =>
    obtain ⟨right, operand, rest⟩ := bind_eq_ok.mp built
    have second := (build_fitsAt p inside operand).mono room
    have joined : (infixNode op left right).FitsAt (depth + more.length) :=
      fitsAt_infixNode (Nat.le_trans (Nat.le_of_succ_le room) inside) first second
    exact buildChain_fitsAt more inside (Nat.le_of_succ_le room) joined rest
  termination_by structural ps

end

end Phrase

namespace Expr

/-- A parsed expression has no more levels than the deepest nesting and its root, and so no descent
through it passes more nodes. -/
theorem parse_shallow {source : String} {e : Expr} (parsed : parse source = .ok e) :
    e.exceedsDepth (maxNesting + 1) = false ∧
      ∀ below, e.Descends below → (e :: below).length ≤ maxNesting + 1 := by
  obtain ⟨_, _, phrase, _, built⟩ := recognised_of_parse parsed
  have fits : e.FitsAt 0 := phrase.build_fitsAt (Nat.zero_le maxNesting) built
  have shallow : e.exceedsDepth (maxNesting + 1) = false := fits (maxNesting + 1) (by omega)
  refine ⟨shallow, fun below descends => ?_⟩
  by_contra longer
  exact Bool.eq_false_iff.mp shallow (exceedsDepth_iff.mpr ⟨below, descends, Nat.not_le.mp longer⟩)

/-- Operators in front of links, with a conditional in a literal among the arguments of a call. -/
def deepSource : String := String.ofList (List.replicate 251 '!' ++ "f(-a, [b ? c : d]).x[k]".toList)

/-- The bound is reached: one operator more, and the text would be refused. -/
theorem parse_shallow_at_deepSource :
    ∃ e, parse deepSource = .ok e ∧ e.exceedsDepth maxNesting = true ∧
      e.exceedsDepth (maxNesting + 1) = false ∧
      ∀ below, e.Descends below → (e :: below).length ≤ maxNesting + 1 := by
  have full : (parse deepSource).toOption.map (exceedsDepth maxNesting) = some true := by decide +kernel
  cases parsed : parse deepSource with
  | error why => simp [parsed, Except.toOption] at full
  | ok e => exact ⟨e, rfl, by simpa [parsed, Except.toOption] using full, parse_shallow parsed⟩

end Expr

end StateScript
