import StateScript.Proofs.WellNamed

/-!
Trees as they lie in their source. A span marks a part of the text, and the parts of the children of a node lie
behind one another in the part of the node. What a phrase is built into lies where the phrase was read, however
operators, links and signs are grouped.
-/

namespace StateScript

/-- A place behind some characters: their bytes, the line ends among them, and the characters since the last of
these. -/
structure Place.Behind (p : Place) (before : List Char) : Prop where
  offset : p.offset = (String.ofList before).utf8ByteSize
  line : p.line = before.count '\n'
  column : p.column = (before.reverse.takeWhile (· != '\n')).length

theorem Place.Behind.after {p : Place} {before : List Char} (behind : p.Behind before) (c : Char) :
    (p.after c).Behind (before ++ [c]) := by
  obtain ⟨offset, line, column⟩ := behind
  have size : (String.ofList (before ++ [c])).utf8ByteSize = p.offset + c.utf8Size := by
    rw [offset]
    simp [String.utf8ByteSize_ofList]
  unfold Place.after
  split
  · rename_i newline
    subst newline
    exact ⟨size.symm, by simp [line], by simp⟩
  · rename_i other
    exact ⟨size.symm, by simp [line, other], by simp [column, other]⟩

/-- A span marks a part of a text: it starts behind some first characters and stops, further on, behind some more. -/
structure Span.Marks (span : Span) (text : List Char) : Prop where
  starts : ∃ before, before <+: text ∧ span.start.Behind before
  stops : ∃ before, before <+: text ∧ span.stop = (String.ofList before).utf8ByteSize
  nonempty : span.start.offset < span.stop

/-- A span marks a part of a text that lies between two byte offsets. -/
structure Span.Lies (text : List Char) (first last : Nat) (span : Span) : Prop where
  marks : span.Marks text
  starts : first ≤ span.start.offset
  stops : span.stop ≤ last

/-- Things that lie behind one another between two offsets. -/
def InRow {α : Type} (lies : Nat → Nat → α → Prop) : Nat → Nat → List α → Prop
  | first, last, [] => first ≤ last
  | first, last, a :: rest =>
    ∃ start stop, first ≤ start ∧ start ≤ stop ∧ lies start stop a ∧ InRow lies stop last rest

namespace InRow

variable {α : Type} {lies : Nat → Nat → α → Prop} {first last : Nat} {as : List α}

theorem le (row : InRow lies first last as) : first ≤ last := by
  induction as generalizing first with
  | nil => exact row
  | cons a rest ih =>
    obtain ⟨start, stop, before, forward, _, behind⟩ := row
    have further := ih behind
    omega

theorem wider {start stop : Nat} (row : InRow lies start stop as) (before : first ≤ start) (after : stop ≤ last) :
    InRow lies first last as := by
  induction as generalizing first start with
  | nil => exact (before.trans row).trans after
  | cons a rest ih =>
    obtain ⟨here, next, further, forward, lies, behind⟩ := row
    exact ⟨here, next, before.trans further, forward, lies, ih behind (Nat.le_refl next)⟩

end InRow

namespace Expr

/-- A tree that marks its source: every node marks a part of it that is not empty, inside the part of its parent and
behind the parts of its elder siblings. -/
structure MarksSource (text : List Char) (e : Expr) : Prop where
  marks : ∀ node ∈ e.nodes, node.span.Marks text
  inside : ∀ node ∈ e.nodes, ∀ child ∈ node.children,
    node.span.start.offset ≤ child.span.start.offset ∧ child.span.stop ≤ node.span.stop
  ordered : ∀ node ∈ e.nodes, node.children.Pairwise fun a b => a.span.stop ≤ b.span.start.offset

/-- A tree that marks its source lies between two offsets of it. -/
structure Lies (text : List Char) (first last : Nat) (e : Expr) : Prop where
  tree : e.MarksSource text
  span : e.span.Lies text first last

section

variable {text : List Char} {first middle last : Nat}

theorem Lies.wider {e : Expr} {start stop : Nat} (lies : e.Lies text start stop) (before : first ≤ start)
    (after : stop ≤ last) : e.Lies text first last where
  tree := lies.tree
  span := ⟨lies.span.marks, before.trans lies.span.starts, lies.span.stops.trans after⟩

/-- Trees in a row lie where the row does, each behind the ones before it. -/
theorem Lies.of_inRow {es : List Expr} (row : InRow (Lies text) first last es) :
    (∀ e ∈ es, e.Lies text first last) ∧ es.Pairwise fun a b => a.span.stop ≤ b.span.start.offset := by
  induction es generalizing first with
  | nil => exact ⟨nofun, .nil⟩
  | cons e rest ih =>
    obtain ⟨start, stop, before, forward, here, behind⟩ := row
    obtain ⟨each, ordered⟩ := ih behind
    refine ⟨List.forall_mem_cons.mpr ⟨here.wider before behind.le, fun a member => ?_⟩,
      List.pairwise_cons.mpr ⟨fun a member => ?_, ordered⟩⟩
    · exact (each a member).wider (before.trans forward) (Nat.le_refl last)
    · exact here.span.stops.trans (each a member).span.starts

/-- A node marks its source if it marks a part that holds its children in a row. -/
theorem MarksSource.node {e : Expr} (marks : e.span.Marks text)
    (row : InRow (Lies text) e.span.start.offset e.span.stop e.children) : e.MarksSource text := by
  obtain ⟨each, ordered⟩ := Lies.of_inRow row
  have split {good : Expr → Prop} (root : good e) (below : ∀ child ∈ e.children, ∀ node ∈ child.nodes, good node) :
      ∀ node ∈ e.nodes, good node := by
    rw [nodes_eq]
    refine List.forall_mem_cons.mpr ⟨root, fun node member => ?_⟩
    obtain ⟨child, among, within⟩ := List.mem_flatMap.mp member
    exact below child among node within
  refine ⟨split marks fun child among => (each child among).tree.marks,
    split (fun child among => ?_) fun child among => (each child among).tree.inside,
    split ordered fun child among => (each child among).tree.ordered⟩
  exact ⟨(each child among).span.starts, (each child among).span.stops⟩

/-- A node between two offsets with its children in a row inside it. -/
theorem Lies.node {e : Expr} (span : e.span.Lies text first last)
    (row : InRow (Lies text) e.span.start.offset e.span.stop e.children) : e.Lies text first last :=
  ⟨.node span.marks row, span⟩

theorem Lies.leaf {e : Expr} (span : e.span.Lies text first last) (bare : e.children = []) :
    e.Lies text first last :=
  .node span (bare ▸ span.marks.nonempty.le)

theorem Lies.own {e : Expr} (lies : e.Lies text first last) : e.Lies text e.span.start.offset e.span.stop :=
  ⟨lies.tree, lies.span.marks, Nat.le_refl _, Nat.le_refl _⟩

/-- A tree at the front of others, in a row that begins where the tree does. -/
theorem Lies.inRow_cons {e : Expr} {es : List Expr} (lies : e.Lies text first middle)
    (behind : InRow (Lies text) middle last es) : InRow (Lies text) e.span.start.offset last (e :: es) := by
  have forward : e.span.start.offset ≤ middle := lies.span.marks.nonempty.le.trans lies.span.stops
  exact ⟨_, middle, Nat.le_refl _, forward, lies.own.wider (Nat.le_refl _) lies.span.stops, behind⟩

theorem Lies.inRow_singleton {e : Expr} (lies : e.Lies text first last) :
    InRow (Lies text) e.span.start.offset e.span.stop [e] :=
  ⟨_, _, Nat.le_refl _, lies.span.marks.nonempty.le, lies.own, Nat.le_refl _⟩

end

end Expr

/-- Around two spans of which one lies behind the other is everything from the start of the first one on. -/
theorem Span.merge_eq {a b : Span} {text : List Char} (first : a.Marks text) (second : b.Marks text)
    (behind : a.stop ≤ b.start.offset) : a.merge b = ⟨a.start, b.stop⟩ := by
  have nonempty := first.nonempty
  have further := second.nonempty
  unfold Span.merge
  rw [if_pos (by omega), Nat.max_eq_right (by omega)]

section

variable {text : List Char} {first middle last : Nat}

theorem Span.Lies.merge {a b : Span} (left : a.Lies text first middle) (right : b.Lies text middle last) :
    (a.merge b).Lies text first last := by
  have behind : a.stop ≤ b.start.offset := left.stops.trans right.starts
  have nonempty := left.marks.nonempty
  have further := right.marks.nonempty
  rw [merge_eq left.marks right.marks behind]
  refine ⟨⟨left.marks.starts, right.marks.stops, ?_⟩, left.starts, right.stops⟩
  dsimp only
  omega

namespace Phrase

open StateScript.Expr (Lies)

/-- Whatever a phrase is built into lies between two offsets. -/
def Builds (text : List Char) (first last : Nat) (p : Phrase) : Prop :=
  ∀ depth e, p.build depth = .ok e → e.Lies text first last

/-- Whatever a link is hung onto, the result lies between the start of that and the end of the link. -/
def BuildsOn (text : List Char) (first last : Nat) (l : PhraseLink) : Prop :=
  ∀ origin depth base e, base.Lies text origin first → buildLink depth base l = .ok e → e.Lies text origin last

theorem inRow_buildList {ps : List Phrase} {depth : Nat} {es : List Expr} (row : InRow (Builds text) first last ps)
    (built : buildList depth ps = .ok es) : InRow (Lies text) first last es := by
  induction ps generalizing first es with
  | nil =>
    cases built
    exact row
  | cons p rest ih =>
    obtain ⟨start, stop, before, forward, builds, behind⟩ := row
    obtain ⟨e, here, more⟩ := bind_eq_ok.mp built
    obtain ⟨others, further, made⟩ := bind_eq_ok.mp more
    cases made
    exact ⟨start, stop, before, forward, builds depth e here, ih behind further⟩

theorem inRow_buildFields {fs : List (PhraseKey × Phrase)} {depth : Nat} {ps : List (String × Expr)}
    (row : InRow (fun start stop field => Builds text start stop field.2) first last fs)
    (built : buildFields depth fs = .ok ps) : InRow (Lies text) first last (ps.map Prod.snd) := by
  induction fs generalizing first ps with
  | nil =>
    cases built
    exact row
  | cons field rest ih =>
    obtain ⟨start, stop, before, forward, builds, behind⟩ := row
    obtain ⟨label, e, others, here, further, rfl⟩ := buildFields_cons_eq_ok built
    exact ⟨start, stop, before, forward, builds depth e here, ih behind further⟩

/-- Links are hung onto an operand from the left to the right. -/
theorem lies_buildLinks {ls : List PhraseLink} {depth origin : Nat} {base e : Expr}
    (base' : base.Lies text origin first) (row : InRow (BuildsOn text) first last ls)
    (built : buildLinks depth base ls = .ok e) : e.Lies text origin last := by
  induction ls generalizing first base with
  | nil =>
    cases built
    exact base'.wider (Nat.le_refl _) row
  | cons l rest ih =>
    obtain ⟨start, stop, before, forward, builds, behind⟩ := row
    obtain ⟨hung, here, more⟩ := bind_eq_ok.mp built
    exact ih (builds origin depth base hung (base'.wider (Nat.le_refl _) before) here) behind more

/-- A tree and others behind it, in a row in the span around the tree and something that they lie in. -/
theorem inRow_merge {e : Expr} {es : List Expr} {behind : Span} (lies : e.Lies text first middle)
    (further : behind.Lies text middle last) (row : InRow (Lies text) behind.start.offset behind.stop es) :
    InRow (Lies text) (e.span.merge behind).start.offset (e.span.merge behind).stop (e :: es) := by
  rw [Span.merge_eq lies.span.marks further.marks (lies.span.stops.trans further.starts)]
  exact lies.inRow_cons (row.wider further.starts (Nat.le_refl _))

theorem lies_infixNode {op : InfixOp} {left right : Expr} (here : left.Lies text first middle)
    (there : right.Lies text middle last) : (infixNode op left right).Lies text first last := by
  have span := here.span.merge there.span
  have row := inRow_merge here there.span there.inRow_singleton
  cases op with
  | binary op => exact .node span row
  | logical op => exact .node span row

/-- Signs are put around an operand from the right to the left. -/
theorem lies_signedNode {ops : List (UnaryOp × Span)} {operand : Expr}
    (row : InRow (fun start stop op => op.2.Lies text start stop) first middle ops)
    (inner : operand.Lies text middle last) : (signedNode ops operand).Lies text first last := by
  induction ops generalizing first with
  | nil => exact inner.wider row (Nat.le_refl last)
  | cons op rest ih =>
    obtain ⟨start, stop, before, forward, sign, behind⟩ := row
    have below : (signedNode rest operand).Lies text stop last := ih behind
    have span := sign.merge below.span
    -- The sign is no child of its node, so the operand lies in the span but not at its start.
    have row : InRow (Lies text) (op.2.merge (signedNode rest operand).span).start.offset
        (op.2.merge (signedNode rest operand).span).stop [signedNode rest operand] := by
      rw [Span.merge_eq sign.marks below.span.marks (sign.stops.trans below.span.starts)]
      refine below.inRow_singleton.wider ?_ (Nat.le_refl _)
      exact sign.marks.nonempty.le.trans (sign.stops.trans below.span.starts)
    have node : (signedNode (op :: rest) operand).Lies text start last := .node span row
    exact node.wider before (Nat.le_refl last)

theorem lies_buildChain {ps : List (InfixOp × Phrase)} {depth : Nat} {left e : Expr}
    (here : left.Lies text first middle)
    (row : InRow (fun start stop operand => Builds text start stop operand.2) middle last ps)
    (built : buildChain depth left ps = .ok e) : e.Lies text first last := by
  induction ps generalizing middle left with
  | nil =>
    cases built
    exact here.wider (Nat.le_refl first) row
  | cons p rest ih =>
    obtain ⟨start, stop, before, forward, builds, behind⟩ := row
    obtain ⟨right, operand, more⟩ := bind_eq_ok.mp built
    have there : right.Lies text middle stop := (builds depth right operand).wider before (Nat.le_refl stop)
    exact ih (lies_infixNode here there) behind more

section

variable {span : Span} (span' : span.Lies text first last)

include span'

theorem builds_number (digits : List Char) : Builds text first last (.number digits span) := by
  intro depth e built
  cases built
  exact .leaf span' rfl

theorem builds_string (raw : List Char) : Builds text first last (.string raw span) := by
  intro depth e built
  obtain ⟨decoded, _, made⟩ := bind_eq_ok.mp built
  cases made
  exact .leaf span' rfl

theorem builds_bool (value : Bool) : Builds text first last (.bool value span) := by
  intro depth e built
  cases built
  exact .leaf span' rfl

theorem builds_null : Builds text first last (.null span) := by
  intro depth e built
  cases built
  exact .leaf span' rfl

theorem builds_name (name : String) : Builds text first last (.name name span) := by
  intro depth e built
  cases built
  exact .leaf span' rfl

theorem builds_list {items : List Phrase} (row : InRow (Builds text) span.start.offset span.stop items) :
    Builds text first last (.list items span) := by
  intro depth e built
  obtain ⟨below, _, rest⟩ := bind_eq_ok.mp built
  obtain ⟨es, elements, made⟩ := bind_eq_ok.mp rest
  cases made
  exact .node span' (inRow_buildList row elements)

theorem builds_record {fields : List (PhraseKey × Phrase)}
    (row : InRow (fun start stop field => Builds text start stop field.2) span.start.offset span.stop fields) :
    Builds text first last (.record fields span) := by
  intro depth e built
  obtain ⟨below, _, rest⟩ := bind_eq_ok.mp built
  obtain ⟨ps, properties, made⟩ := bind_eq_ok.mp rest
  cases made
  exact .node span' (inRow_buildFields row properties)

theorem builds_choice {test consequent alternate : Phrase}
    (row : InRow (Builds text) span.start.offset span.stop [test, consequent, alternate]) :
    Builds text first last (.choice test consequent alternate span) := by
  intro depth e built
  obtain ⟨below, _, rest⟩ := bind_eq_ok.mp built
  obtain ⟨c, condition, rest⟩ := bind_eq_ok.mp rest
  obtain ⟨a, yes, rest⟩ := bind_eq_ok.mp rest
  obtain ⟨b, no, made⟩ := bind_eq_ok.mp rest
  cases made
  have parts : buildList below [test, consequent, alternate] = .ok [c, a, b] := by
    simp only [buildList, condition, yes, no]
    rfl
  exact .node span' (inRow_buildList row parts)

theorem buildsOn_member (property : String) (optional : Bool) :
    BuildsOn text first last (.member property optional span) := by
  intro origin depth base e here built
  cases built
  exact .node (here.span.merge span') (inRow_merge here span' span'.marks.nonempty.le)

theorem buildsOn_index {key : Phrase} (optional : Bool) (inner : Builds text span.start.offset span.stop key) :
    BuildsOn text first last (.index key optional span) := by
  intro origin depth base e here built
  obtain ⟨k, computed, made⟩ := bind_eq_ok.mp built
  cases made
  have row : InRow (Lies text) span.start.offset span.stop [k] :=
    ⟨_, _, Nat.le_refl _, span'.marks.nonempty.le, inner depth k computed, Nat.le_refl _⟩
  exact .node (here.span.merge span') (inRow_merge here span' row)

theorem buildsOn_call {args : List Phrase} (row : InRow (Builds text) span.start.offset span.stop args) :
    BuildsOn text first last (.call args span) := by
  intro origin depth base e here built
  obtain ⟨es, passed, made⟩ := bind_eq_ok.mp built
  cases made
  exact .node (here.span.merge span') (inRow_merge here span' (inRow_buildList row passed))

end

section

variable {p : Phrase} (inner : Builds text first middle p)

include inner

theorem Builds.wider {start stop : Nat} (before : start ≤ first) (after : middle ≤ stop) :
    Builds text start stop p :=
  fun depth e built => (inner depth e built).wider before after

theorem builds_linked {links : List PhraseLink} (row : InRow (BuildsOn text) middle last links) :
    Builds text first last (.linked p links) := by
  intro depth e built
  obtain ⟨below, _, rest⟩ := bind_eq_ok.mp built
  obtain ⟨base, operand, hung⟩ := bind_eq_ok.mp rest
  exact lies_buildLinks (inner below base operand) row hung

theorem builds_chain {rest : List (InfixOp × Phrase)}
    (row : InRow (fun start stop operand => Builds text start stop operand.2) middle last rest) :
    Builds text first last (.chain p rest) := by
  intro depth e built
  obtain ⟨below, _, more⟩ := bind_eq_ok.mp built
  obtain ⟨left, operand, grouped⟩ := bind_eq_ok.mp more
  exact lies_buildChain (inner below left operand) row grouped

end

theorem builds_signed {ops : List (UnaryOp × Span)} {operand : Phrase}
    (row : InRow (fun start stop op => op.2.Lies text start stop) first middle ops)
    (inner : Builds text middle last operand) : Builds text first last (.signed ops operand) := by
  intro depth e built
  obtain ⟨below, _, rest⟩ := bind_eq_ok.mp built
  obtain ⟨bare, made, done⟩ := bind_eq_ok.mp rest
  cases done
  exact lies_signedNode row (inner below bare made)

end Phrase

end

end StateScript
