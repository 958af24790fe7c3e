import StateScript.Expr.Reader
import StateScript.Proofs.Spellings

/-!
The names of expressions. Whatever the grammar recognises has names that are spelled as names, and
the tree that is built from it has no others.
-/

namespace StateScript

namespace Phrase

mutual

/-- Every name of a phrase is spelled as one. -/
def WellNamed : Phrase → Prop
  | .name text _ => Lexeme.IsName text
  | .list items _ => WellNamedList items
  | .record fields _ => WellNamedFields fields
  | .linked base links => WellNamed base ∧ WellNamedLinks links
  | .signed _ operand => WellNamed operand
  | .chain first rest => WellNamed first ∧ WellNamedOperands rest
  | .choice test consequent alternate _ =>
    WellNamed test ∧ WellNamed consequent ∧ WellNamed alternate
  | .number .. => True
  | .string .. => True
  | .bool .. => True
  | .null _ => True
  termination_by structural p => p

def WellNamedList : List Phrase → Prop
  | [] => True
  | p :: rest => WellNamed p ∧ WellNamedList rest
  termination_by structural ps => ps

def WellNamedFields : List (PhraseKey × Phrase) → Prop
  | [] => True
  | (_, p) :: rest => WellNamed p ∧ WellNamedFields rest
  termination_by structural fs => fs

def WellNamedLinks : List PhraseLink → Prop
  | [] => True
  | l :: rest => WellNamedLink l ∧ WellNamedLinks rest
  termination_by structural ls => ls

def WellNamedLink : PhraseLink → Prop
  | .member .. => True
  | .index key _ _ => WellNamed key
  | .call args _ => WellNamedList args
  termination_by structural l => l

def WellNamedOperands : List (InfixOp × Phrase) → Prop
  | [] => True
  | (_, p) :: rest => WellNamed p ∧ WellNamedOperands rest
  termination_by structural ps => ps

end

theorem wellNamedList_of_forall {ps : List Phrase} (each : ∀ p ∈ ps, p.WellNamed) : WellNamedList ps := by
  induction ps with
  | nil => trivial
  | cons p rest ih =>
    exact ⟨each p (List.mem_cons_self ..), ih fun q member => each q (List.mem_cons_of_mem _ member)⟩

theorem wellNamedFields_of_forall {fs : List (PhraseKey × Phrase)} (each : ∀ f ∈ fs, f.2.WellNamed) :
    WellNamedFields fs := by
  induction fs with
  | nil => trivial
  | cons f rest ih =>
    exact ⟨each f (List.mem_cons_self ..), ih fun g member => each g (List.mem_cons_of_mem _ member)⟩

theorem wellNamedLinks_of_forall {ls : List PhraseLink} (each : ∀ l ∈ ls, WellNamedLink l) :
    WellNamedLinks ls := by
  induction ls with
  | nil => trivial
  | cons l rest ih =>
    exact ⟨each l (List.mem_cons_self ..), ih fun m member => each m (List.mem_cons_of_mem _ member)⟩

theorem wellNamedOperands_of_forall {ps : List (InfixOp × Phrase)} (each : ∀ p ∈ ps, p.2.WellNamed) :
    WellNamedOperands ps := by
  induction ps with
  | nil => trivial
  | cons p rest ih =>
    exact ⟨each p (List.mem_cons_self ..), ih fun q member => each q (List.mem_cons_of_mem _ member)⟩

end Phrase

namespace Grammar

section

variable {α β : Type}

theorem bind_apply (rule : Recogniser α) (next : α → Recogniser β) (cursor : Cursor) (furthest : Place) :
    (rule >>= next) cursor furthest = match rule cursor furthest with
      | (some (a, behind), later) => next a behind later
      | (none, later) => (none, later) := by
  simp only [bind, StateT.bind, OptionT.bind, OptionT.mk]
  rcases rule cursor furthest with ⟨_ | ⟨a, behind⟩, later⟩ <;> rfl

theorem orElse_apply (rule other : Recogniser α) (cursor : Cursor) (furthest : Place) :
    (rule <|> other) cursor furthest = match rule cursor furthest with
      | (some found, later) => (some found, later)
      | (none, later) => other cursor later := by
  show (OptionT.orElse (rule cursor) fun _ => other cursor) furthest = _
  simp only [OptionT.orElse, OptionT.mk, bind, StateT.bind]
  rcases rule cursor furthest with ⟨_ | ⟨a, behind⟩, later⟩ <;> rfl

section

variable {rule other : Recogniser α} {cursor : Cursor} {furthest : Place} {result : α × Cursor}

/-- What a sequence finds, its second rule finds behind something that its first rule finds. -/
theorem found_of_bind {next : α → Recogniser β} {result : β × Cursor}
    (found : ((rule >>= next) cursor furthest).1 = some result) : ∃ a between later,
      (rule cursor furthest).1 = some (a, between) ∧ (next a between later).1 = some result := by
  rw [bind_apply] at found
  rcases outcome : rule cursor furthest with ⟨_ | ⟨a, between⟩, later⟩
  · simp [outcome] at found
  · rw [outcome] at found
    exact ⟨a, between, later, rfl, found⟩

theorem found_of_orElse (found : ((rule <|> other) cursor furthest).1 = some result) :
    (rule cursor furthest).1 = some result ∨ ∃ later, (other cursor later).1 = some result := by
  rw [orElse_apply] at found
  rcases outcome : rule cursor furthest with ⟨_ | first, later⟩
  · rw [outcome] at found
    exact Or.inr ⟨later, found⟩
  · rw [outcome] at found
    exact Or.inl found

theorem found_of_named (found : (named rule cursor furthest).1 = some result) :
    (rule cursor furthest).1 = some result := by
  unfold Grammar.named at found
  split at found
  · cases found
  · exact found

end

variable {good : α → Prop} {fine : β → Prop} {rule other : Recogniser α}

/-- Whatever a rule gives has a property. -/
def Yields (good : α → Prop) (rule : Recogniser α) : Prop :=
  ∀ cursor furthest a behind, (rule cursor furthest).1 = some (a, behind) → good a

theorem Yields.trivial : Yields (fun _ => True) rule := fun _ _ _ _ _ => True.intro

theorem Yields.pure {a : α} (holds : good a) : Yields good (pure a) := by
  intro cursor furthest b behind found
  cases found
  exact holds

theorem Yields.failure : Yields good failure := by
  intro cursor furthest a behind found
  cases found

theorem Yields.bind {next : α → Recogniser β} (first : Yields good rule)
    (rest : ∀ a, good a → Yields fine (next a)) : Yields fine (rule >>= next) := by
  intro cursor furthest b behind found
  obtain ⟨a, between, later, front, back⟩ := found_of_bind found
  exact rest a (first cursor furthest a between front) between later b behind back

/-- A rule behind one whose result does not matter. -/
theorem Yields.after {next : α → Recogniser β} (rest : ∀ a, Yields fine (next a)) :
    Yields fine (rule >>= next) :=
  Yields.bind Yields.trivial fun a _ => rest a

theorem Yields.orElse (first : Yields good rule) (second : Yields good other) :
    Yields good (rule <|> other) := by
  intro cursor furthest a behind found
  rcases found_of_orElse found with here | ⟨later, there⟩
  · exact first cursor furthest a behind here
  · exact second cursor later a behind there

theorem Yields.named (inner : Yields good rule) : Yields good (named rule) :=
  fun cursor furthest a behind found => inner cursor furthest a behind (found_of_named found)

theorem Yields.firstOf {rules : List (Recogniser α)} (each : ∀ rule ∈ rules, Yields good rule) :
    Yields good (firstOf rules) := by
  induction rules with
  | nil => exact Yields.failure
  | cons rule rest ih =>
    exact Yields.orElse (each rule (List.mem_cons_self ..))
      (ih fun other member => each other (List.mem_cons_of_mem _ member))

theorem Yields.optional (inner : Yields good rule) :
    Yields (fun found => ∀ a ∈ found, good a) (optional rule) := by
  apply Yields.orElse
  · rw [map_eq_pure_bind]
    exact inner.bind fun a holds => Yields.pure (by simpa using holds)
  · exact Yields.pure (by simp)

theorem Yields.many (each : Yields good rule) (limit : Nat) :
    Yields (fun found => ∀ a ∈ found, good a) (many limit rule) := by
  induction limit with
  | zero => exact Yields.pure (by simp)
  | succ limit ih =>
    apply Yields.orElse
    · refine each.bind fun a holds => ih.bind fun more rest => Yields.pure ?_
      intro b member
      rcases List.mem_cons.mp member with rfl | behind
      · exact holds
      · exact rest b behind
    · exact Yields.pure (by simp)

theorem Yields.separated (each : Yields good rule) (limit : Nat) :
    Yields (fun found => ∀ a ∈ found, good a) (separated limit rule) := by
  refine each.optional.bind fun first holds => ?_
  cases first with
  | none => exact Yields.pure (by simp)
  | some a =>
    refine Yields.bind (Yields.many (Yields.after fun _ => each) limit) fun more rest => Yields.pure ?_
    intro b member
    rcases List.mem_cons.mp member with rfl | behind
    · exact holds b rfl
    · exact rest b behind

end

theorem scanned_apply (length? : List Char → Option Nat) (cursor : Cursor) (furthest : Place) :
    scanned length? cursor furthest = (match length? cursor.rest with
      | some n => taken n
      | none => failure) cursor furthest := rfl

theorem taken_of_scanned {length? : List Char → Option Nat} {cursor : Cursor} {furthest : Place}
    {result : (List Char × Span) × Cursor} (found : (scanned length? cursor furthest).1 = some result) :
    ∃ n, length? cursor.rest = some n ∧ (taken n cursor furthest).1 = some result := by
  rw [scanned_apply] at found
  cases scan : length? cursor.rest with
  | none =>
    rw [scan] at found
    cases found
  | some n =>
    rw [scan] at found
    exact ⟨n, rfl, found⟩

/-- A scanned word is the front of some text that the scanner accepts. -/
theorem scanned_yields (spelled : List Char → Prop) {length? : List Char → Option Nat}
    (accepts : ∀ cs n, length? cs = some n → spelled (cs.take n)) :
    Yields (fun found => spelled found.1) (scanned length?) := by
  intro cursor furthest found behind given
  obtain ⟨n, scan, front⟩ := taken_of_scanned given
  cases front
  exact accepts cursor.rest n scan

theorem nameSuchThat_yields (accepts : String → Bool) :
    Yields (fun found => Lexeme.IsName found.1) (nameSuchThat accepts) := by
  have spelled : Yields (fun found => Lexeme.IsName (String.ofList found.1)) (scanned Lexeme.nameLength?) :=
    scanned_yields (fun cs => Lexeme.IsName (String.ofList cs)) fun _ _ scan =>
      Lexeme.isName_of_nameLength? scan
  refine spelled.bind fun (cs, span) name => ?_
  show Yields _ (if accepts (String.ofList cs) then _ else _)
  split
  · exact Yields.pure name
  · exact Yields.failure

section

variable {limit : Nat} {expression : Recogniser Phrase} (inner : Yields Phrase.WellNamed expression)

include inner

theorem listLiteral_yields : Yields Phrase.WellNamed (listLiteral limit expression) := by
  refine Yields.named (Yields.after fun _ => Yields.after fun _ => ?_)
  refine (inner.separated limit).bind fun items each => ?_
  refine Yields.after fun _ => Yields.after fun _ => Yields.pure ?_
  exact Phrase.wellNamedList_of_forall each

theorem property_yields : Yields (fun field => field.2.WellNamed) (property expression) := by
  refine Yields.named (Yields.after fun _ => Yields.after fun _ => ?_)
  exact inner.bind fun value named => Yields.pure named

theorem recordLiteral_yields : Yields Phrase.WellNamed (recordLiteral limit expression) := by
  refine Yields.named (Yields.after fun _ => Yields.after fun _ => ?_)
  refine ((property_yields inner).separated limit).bind fun fields each => ?_
  refine Yields.after fun _ => Yields.after fun _ => Yields.pure ?_
  exact Phrase.wellNamedFields_of_forall each

theorem primary_yields : Yields Phrase.WellNamed (primary limit expression) := by
  have parenthesised : Yields Phrase.WellNamed (do
      let _ ← word ['(']
      let inner ← expression
      let _ ← word [')']
      return inner) :=
    Yields.after fun _ => inner.bind fun p named => Yields.after fun _ => Yields.pure named
  have name : Yields Phrase.WellNamed (do
      let found ← identifier
      return .name found.1 found.2) :=
    (nameSuchThat_yields _).named.bind fun found named => Yields.pure named
  apply Yields.firstOf
  simp only [List.forall_mem_cons]
  refine ⟨?number, ?string, ?yes, ?no, ?null, ?undefined, listLiteral_yields inner,
    recordLiteral_yields inner, name, parenthesised, by simp⟩
  case string => exact Yields.after fun _ => Yields.pure trivial
  all_goals exact Yields.named (Yields.after fun _ => Yields.pure trivial)

theorem link_yields : Yields Phrase.WellNamedLink (link limit expression) := by
  have index (opening : List Char) (optional : Bool) : Yields Phrase.WellNamedLink (named do
      let start := (← get).place
      let _ ← word opening
      let key ← expression
      let close ← word [']']
      return .index key optional ⟨start, close.stop⟩) :=
    Yields.named (Yields.after fun _ => Yields.after fun _ => inner.bind fun key named =>
      Yields.after fun _ => Yields.pure named)
  have call : Yields Phrase.WellNamedLink (named do
      let start := (← get).place
      let _ ← word ['(']
      let args ← separated limit expression
      let close ← word [')']
      return .call args ⟨start, close.stop⟩) :=
    Yields.named (Yields.after fun _ => Yields.after fun _ => (inner.separated limit).bind
      fun args each => Yields.after fun _ => Yields.pure (Phrase.wellNamedList_of_forall each))
  apply Yields.firstOf
  simp only [List.forall_mem_cons]
  refine ⟨index _ _, ?optionalMember, ?member, index _ _, call, by simp⟩
  all_goals
    exact Yields.named (Yields.after fun _ => Yields.after fun _ => Yields.after fun _ =>
      Yields.pure trivial)

theorem linked_yields : Yields Phrase.WellNamed (linked limit expression) := by
  refine Yields.named ((primary_yields inner).bind fun base named => ?_)
  refine ((link_yields inner).many limit).bind fun links each => ?_
  split
  · exact Yields.pure named
  · exact Yields.pure ⟨named, Phrase.wellNamedLinks_of_forall each⟩

theorem signed_yields : Yields Phrase.WellNamed (signed limit expression) := by
  refine Yields.named (Yields.after fun ops => ?_)
  split
  · exact linked_yields inner
  · exact (linked_yields inner).bind fun operand named => Yields.pure named

theorem chain_yields (levels : List (List (String × InfixOp))) :
    Yields Phrase.WellNamed (chain limit expression levels) := by
  induction levels with
  | nil => exact signed_yields inner
  | cons level tighter ih =>
    refine Yields.named (ih.bind fun first named => ?_)
    have operand : Yields (fun operand => operand.2.WellNamed) (do
        let op ← firstOf (level.map fun entry => operator entry.1 entry.2)
        return (op, ← chain limit expression tighter)) :=
      Yields.after fun _ => ih.bind fun p named => Yields.pure named
    refine (operand.many limit).bind fun rest each => ?_
    split
    · exact Yields.pure named
    · exact Yields.pure ⟨named, Phrase.wellNamedOperands_of_forall each⟩

theorem conditional_yields : Yields Phrase.WellNamed (conditional limit expression) := by
  refine Yields.named (Yields.after fun _ => (chain_yields inner levels).bind fun test named => ?_)
  have branches : Yields (fun branches => branches.1.WellNamed ∧ branches.2.WellNamed) (do
      questionMark
      let consequent ← expression
      let _ ← word [':']
      return (consequent, ← expression)) :=
    Yields.after fun _ => inner.bind fun consequent first => Yields.after fun _ =>
      inner.bind fun alternate second => Yields.pure ⟨first, second⟩
  refine branches.optional.bind fun branches both => ?_
  split
  · exact Yields.pure named
  · exact Yields.after fun _ => Yields.pure ⟨named, both _ rfl⟩

end

theorem expression_yields (limit allowance : Nat) :
    Yields Phrase.WellNamed (expression limit allowance) := by
  induction allowance with
  | zero => exact Yields.failure
  | succ allowance ih => exact conditional_yields ih

/-- What the grammar recognises is well named. -/
theorem recognise_wellNamed {allowance : Nat} {cs : List Char} {p : Phrase}
    (recognised : recognise allowance cs = .ok p) : p.WellNamed := by
  have whole : Yields Phrase.WellNamed (do
      let phrase ← expression (cs.length + 1) allowance
      named do if (← get).rest.isEmpty then return phrase else failure) := by
    refine (expression_yields _ _).bind fun phrase named => Yields.named (Yields.after fun _ => ?_)
    split
    · exact Yields.pure named
    · exact Yields.failure
  unfold recognise at recognised
  simp only at recognised
  split at recognised
  · rename_i found
    cases recognised
    exact whole _ _ _ _ (congrArg Prod.fst found)
  · cases recognised

end Grammar

namespace Expr

/-- Every name among some nodes is spelled as one. -/
def OnlyNames (nodes : List Expr) : Prop :=
  ∀ text span, Expr.name text span ∈ nodes → Lexeme.IsName text

@[simp] theorem onlyNames_nil : OnlyNames [] := by
  simp [OnlyNames]

@[simp] theorem onlyNames_append {a b : List Expr} : OnlyNames (a ++ b) ↔ OnlyNames a ∧ OnlyNames b := by
  simp only [OnlyNames, List.mem_append]
  constructor
  · exact fun both => ⟨fun t s m => both t s (Or.inl m), fun t s m => both t s (Or.inr m)⟩
  · rintro ⟨left, right⟩ t s (m | m)
    · exact left t s m
    · exact right t s m

@[simp] theorem onlyNames_cons {e : Expr} {rest : List Expr} :
    OnlyNames (e :: rest) ↔ (∀ text span, e = .name text span → Lexeme.IsName text) ∧ OnlyNames rest := by
  simp only [OnlyNames, List.mem_cons]
  constructor
  · exact fun both => ⟨fun t s same => both t s (Or.inl same.symm), fun t s m => both t s (Or.inr m)⟩
  · rintro ⟨first, more⟩ t s (same | m)
    · exact first t s same.symm
    · exact more t s m

end Expr

namespace Phrase

open StateScript.Expr (OnlyNames nodes nodesOfList nodesOfProperties)

theorem onlyNames_infixNode {op : InfixOp} {left right : Expr} (first : OnlyNames left.nodes)
    (second : OnlyNames right.nodes) : OnlyNames (infixNode op left right).nodes := by
  cases op <;> simp [infixNode, nodes, first, second]

theorem onlyNames_signedNode {ops : List (UnaryOp × Span)} {operand : Expr}
    (inner : OnlyNames operand.nodes) : OnlyNames (signedNode ops operand).nodes := by
  induction ops with
  | nil => exact inner
  | cons op rest ih =>
    have unfolded : signedNode (op :: rest) operand = .unary op.1 (signedNode rest operand)
      (op.2.merge (signedNode rest operand).span) := rfl
    simp [unfolded, nodes, ih]

theorem buildFields_cons_eq_ok {key : PhraseKey} {p : Phrase} {more : List (PhraseKey × Phrase)} {depth : Nat}
    {ps : List (String × Expr)} (built : buildFields depth ((key, p) :: more) = .ok ps) :
    ∃ label e others, p.build depth = .ok e ∧ buildFields depth more = .ok others ∧ ps = (label, e) :: others := by
  have labelled : ∃ label, (do
      let e ← p.build depth
      return (label, e) :: (← buildFields depth more)) = .ok ps := by
    cases key with
    | plain label => exact ⟨label, built⟩
    | quoted raw span =>
      obtain ⟨label, _, rest⟩ := bind_eq_ok.mp built
      exact ⟨label, rest⟩
  obtain ⟨label, built⟩ := labelled
  obtain ⟨e, first, rest⟩ := bind_eq_ok.mp built
  obtain ⟨others, behind, made⟩ := bind_eq_ok.mp rest
  cases made
  exact ⟨label, e, others, first, behind, rfl⟩

mutual

/-- The tree of a well named phrase has no other names. -/
theorem build_onlyNames (p : Phrase) {depth : Nat} {e : Expr} (named : p.WellNamed)
    (built : p.build depth = .ok e) : OnlyNames e.nodes := by
  match p with
  | .number digits span =>
    cases built
    simp [nodes]
  | .string raw span =>
    obtain ⟨text, _, made⟩ := bind_eq_ok.mp built
    cases made
    simp [nodes]
  | .bool value span =>
    cases built
    simp [nodes]
  | .null span =>
    cases built
    simp [nodes]
  | .name text span =>
    cases built
    have spelled : Lexeme.IsName text := named
    simpa [nodes] using spelled
  | .list items span =>
    obtain ⟨below, _, rest⟩ := bind_eq_ok.mp built
    obtain ⟨es, elements, made⟩ := bind_eq_ok.mp rest
    cases made
    simpa [nodes] using buildList_onlyNames items named elements
  | .record fields span =>
    obtain ⟨below, _, rest⟩ := bind_eq_ok.mp built
    obtain ⟨ps, properties, made⟩ := bind_eq_ok.mp rest
    cases made
    simpa [nodes] using buildFields_onlyNames fields named properties
  | .linked base links =>
    obtain ⟨below, _, rest⟩ := bind_eq_ok.mp built
    obtain ⟨inner, operand, hung⟩ := bind_eq_ok.mp rest
    exact buildLinks_onlyNames links named.2 (build_onlyNames base named.1 operand) hung
  | .signed ops operand =>
    obtain ⟨below, _, rest⟩ := bind_eq_ok.mp built
    obtain ⟨inner, bare, made⟩ := bind_eq_ok.mp rest
    cases made
    exact onlyNames_signedNode (build_onlyNames operand named bare)
  | .chain first operands =>
    obtain ⟨below, _, rest⟩ := bind_eq_ok.mp built
    obtain ⟨inner, operand, grouped⟩ := bind_eq_ok.mp rest
    exact buildChain_onlyNames operands named.2 (build_onlyNames first named.1 operand) grouped
  | .choice test consequent alternate span =>
    obtain ⟨below, _, rest⟩ := bind_eq_ok.mp built
    obtain ⟨c, condition, rest⟩ := bind_eq_ok.mp rest
    obtain ⟨a, yes, rest⟩ := bind_eq_ok.mp rest
    obtain ⟨b, no, made⟩ := bind_eq_ok.mp rest
    cases made
    simp [nodes, build_onlyNames test named.1 condition, build_onlyNames consequent named.2.1 yes,
      build_onlyNames alternate named.2.2 no]
  termination_by structural p

theorem buildList_onlyNames (ps : List Phrase) {depth : Nat} {es : List Expr} (named : WellNamedList ps)
    (built : buildList depth ps = .ok es) : OnlyNames (nodesOfList es) := by
  match ps with
  | [] =>
    cases built
    simp [nodesOfList]
  | p :: more =>
    obtain ⟨e, first, rest⟩ := bind_eq_ok.mp built
    obtain ⟨others, behind, made⟩ := bind_eq_ok.mp rest
    cases made
    simp [nodesOfList, build_onlyNames p named.1 first, buildList_onlyNames more named.2 behind]
  termination_by structural ps

theorem buildFields_onlyNames (fs : List (PhraseKey × Phrase)) {depth : Nat} {ps : List (String × Expr)}
    (named : WellNamedFields fs) (built : buildFields depth fs = .ok ps) :
    OnlyNames (nodesOfProperties ps) := by
  match fs with
  | [] =>
    cases built
    simp [nodesOfProperties]
  | (key, p) :: more =>
    obtain ⟨label, e, others, first, behind, rfl⟩ := buildFields_cons_eq_ok built
    simp [nodesOfProperties, build_onlyNames p named.1 first, buildFields_onlyNames more named.2 behind]
  termination_by structural fs

theorem buildLinks_onlyNames (ls : List PhraseLink) {depth : Nat} {base e : Expr}
    (named : WellNamedLinks ls) (inner : OnlyNames base.nodes) (built : buildLinks depth base ls = .ok e) :
    OnlyNames e.nodes := by
  match ls with
  | [] =>
    cases built
    exact inner
  | l :: more =>
    obtain ⟨hung, first, rest⟩ := bind_eq_ok.mp built
    exact buildLinks_onlyNames more named.2 (buildLink_onlyNames l named.1 inner first) rest
  termination_by structural ls

theorem buildLink_onlyNames (l : PhraseLink) {depth : Nat} {base e : Expr} (named : WellNamedLink l)
    (inner : OnlyNames base.nodes) (built : buildLink depth base l = .ok e) : OnlyNames e.nodes := by
  match l with
  | .member property optional span =>
    cases built
    simpa [nodes] using inner
  | .index key optional span =>
    obtain ⟨k, computed, made⟩ := bind_eq_ok.mp built
    cases made
    simp [nodes, inner, build_onlyNames key named computed]
  | .call args span =>
    obtain ⟨es, passed, made⟩ := bind_eq_ok.mp built
    cases made
    simp [nodes, inner, buildList_onlyNames args named passed]
  termination_by structural l

theorem buildChain_onlyNames (ps : List (InfixOp × Phrase)) {depth : Nat} {left e : Expr}
    (named : WellNamedOperands ps) (first : OnlyNames left.nodes)
    (built : buildChain depth left ps = .ok e) : OnlyNames e.nodes := by
  match ps with
  | [] =>
    cases built
    exact first
  | (op, p) :: more =>
    obtain ⟨right, operand, rest⟩ := bind_eq_ok.mp built
    exact buildChain_onlyNames more named.2
      (onlyNames_infixNode first (build_onlyNames p named.1 operand)) rest
  termination_by structural ps

end

end Phrase

namespace Expr

theorem parse_eq_ok {source : String} {tree : Expr} (parsed : parse source = .ok tree) :
    read (Text.trim source.toList) = .ok tree := by
  simp only [parse] at parsed
  cases given : read (Text.trim source.toList) with
  | error fault =>
    rw [given] at parsed
    cases parsed
  | ok e =>
    rw [given] at parsed
    cases parsed
    rfl

/-- What is read was recognised and then built, its root at depth zero. -/
theorem recognised_of_read {cs : List Char} {e : Expr} (tree : read cs = .ok e) :
    ∃ phrase, Grammar.recognise (cs.length + 1) cs = .ok phrase ∧ phrase.build 0 = .ok e := by
  unfold read at tree
  split at tree
  · cases tree
  · split at tree
    · cases tree
    · split at tree
      · rename_i phrase recognised
        exact ⟨phrase, recognised, tree⟩
      · cases tree

theorem recognised_of_parse {source : String} {e : Expr} (parsed : parse source = .ok e) :
    ∃ n cs phrase, Grammar.recognise n cs = .ok phrase ∧ phrase.build 0 = .ok e := by
  obtain ⟨phrase, recognised, built⟩ := recognised_of_read (parse_eq_ok parsed)
  exact ⟨_, _, phrase, recognised, built⟩

/-- The names of an expression that was parsed are spelled as names. -/
theorem parse_onlyNames {source : String} {e : Expr} (parsed : parse source = .ok e) :
    OnlyNames e.nodes := by
  obtain ⟨n, cs, phrase, recognised, built⟩ := recognised_of_parse parsed
  exact Phrase.build_onlyNames phrase (Grammar.recognise_wellNamed recognised) built

end Expr

end StateScript
