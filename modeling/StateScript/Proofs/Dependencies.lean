import StateScript.Proofs.Lookups

/-!
Dependencies are sound: where the names that the dependencies of an expression start with have the
same values, and so have the builtins that it looks up, the expression has the same outcome.
-/

namespace StateScript

theorem NameSet.mem_insert {name n : String} {names : NameSet} :
    n ∈ NameSet.insert name names ↔ n = name ∨ n ∈ names := by
  induction names with
  | nil => simp [NameSet.insert]
  | cons first rest ih =>
    unfold NameSet.insert
    split
    · rename_i same
      simp [same]
    · split
      · simp
      · simp only [List.mem_cons, ih]
        exact or_left_comm

@[simp] theorem NameSet.mem_ofList {n : String} {names : List String} :
    n ∈ NameSet.ofList names ↔ n ∈ names := by
  induction names with
  | nil => rfl
  | cons name rest ih =>
    have unfolded : NameSet.ofList (name :: rest) = NameSet.insert name (NameSet.ofList rest) := rfl
    rw [unfolded, NameSet.mem_insert, ih, List.mem_cons]

theorem rootOfPath_name {n : String} (name : Lexeme.IsName n) : rootOfPath n = n := by
  simp only [rootOfPath, Path.read_name name, Segment.text]

theorem rootOfPath_wildcardOf_name {n : String} (name : Lexeme.IsName n) :
    rootOfPath (Path.wildcardOf n) = n := by
  simp only [rootOfPath, Path.read_wildcardOf_name name, Segment.text]

namespace Expr

/-- Some paths account for a name: it stands for a builtin, or it is one of the paths, alone or with
everything below it. -/
def Covers (paths : List String) (n : String) : Prop :=
  n ∈ nonStateNames ∨ n ∈ paths ∨ Path.wildcardOf n ∈ paths

theorem Covers.mono {a b : List String} {n : String} (covers : Covers a n) (subset : a ⊆ b) : Covers b n := by
  rcases covers with builtin | path | below
  · exact Or.inl builtin
  · exact Or.inr (Or.inl (subset path))
  · exact Or.inr (Or.inr (subset below))

theorem covers_stateReads {n : String} {paths : List String} (covers : n ∈ paths ∨ Path.wildcardOf n ∈ paths) :
    Covers (stateReads n paths) n := by
  unfold stateReads
  split
  · rename_i builtin
    exact Or.inl (by simpa using builtin)
  · exact Or.inr covers

/-- A chain reads its root, and its computed parts read the other names that it looks up. -/
theorem covers_chainReads {chain : Expr} {below : List String}
    (inside : ∀ n ∈ chain.lookups, chain.chainRoot? = some n ∨ Covers below n) :
    ∀ n ∈ chain.lookups, Covers (chain.chainReads below) n := by
  intro n member
  unfold chainReads
  cases static : chain.staticPath? with
  | some found =>
    obtain ⟨root, path⟩ := found
    rw [lookups_of_staticPath? chain static, List.mem_singleton] at member
    subst member
    exact covers_stateReads (Or.inr (by simp))
  | none =>
    rcases inside n member with root | covers
    · have front : Covers (stateReads n [Path.wildcardOf n]) n := covers_stateReads (Or.inr (by simp))
      rw [root]
      exact front.mono (List.subset_append_left ..)
    · exact covers.mono (List.subset_append_right ..)

theorem outsideChain {root : Prop} {paths : List String} {n : String}
    (covers : (false = true ∧ root) ∨ Covers paths n) : Covers paths n := by
  rcases covers with ⟨never, _⟩ | covers
  · cases never
  · exact covers

mutual

/-- What an expression reads covers what it looks up; inside a chain, the root of the chain apart. -/
theorem reads_cover (e : Expr) (inChain : Bool) :
    ∀ n ∈ e.lookups, (inChain = true ∧ e.chainRoot? = some n) ∨ Covers (reads inChain e) n := by
  match e with
  | .bool .. => simp [lookups]
  | .number .. => simp [lookups]
  | .string .. => simp [lookups]
  | .null _ => simp [lookups]
  | .name m s =>
    intro n member
    rw [lookups, List.mem_singleton] at member
    subst member
    cases inChain with
    | true => exact Or.inl ⟨rfl, rfl⟩
    | false => exact Or.inr (covers_stateReads (Or.inl (by simp)))
  | .member object p o s =>
    have inside : ∀ n ∈ (Expr.member object p o s).lookups,
        (Expr.member object p o s).chainRoot? = some n ∨ Covers (reads true object) n := by
      simpa [lookups, chainRoot?] using reads_cover object true
    cases inChain with
    | true => simpa [reads] using inside
    | false => exact fun n member => Or.inr (covers_chainReads inside n member)
  | .index object key o s =>
    -- The key is a computed part: what it reads counts inside a longer chain too.
    have inside : ∀ n ∈ (Expr.index object key o s).lookups,
        (Expr.index object key o s).chainRoot? = some n ∨
          Covers (reads false key ++ reads true object) n := by
      intro n member
      rw [lookups, List.mem_append] at member
      rcases member with chain | computed
      · rcases reads_cover object true n chain with ⟨_, root⟩ | covers
        · exact Or.inl root
        · exact Or.inr (covers.mono (List.subset_append_right ..))
      · exact Or.inr ((outsideChain (reads_cover key false n computed)).mono
          (List.subset_append_left ..))
    cases inChain with
    | true => simpa [reads] using inside
    | false => exact fun n member => Or.inr (covers_chainReads inside n member)
  | .call callee args s =>
    intro n member
    refine Or.inr ?_
    have passed (behind : n ∈ lookupsOfList args) : Covers (reads inChain (.call callee args s)) n :=
      (readsOfList_cover args n behind).mono (by cases callee <;> exact List.subset_append_right ..)
    cases callee with
    | member object p o t =>
      rw [lookups, List.mem_append] at member
      rcases member with receiver | behind
      · cases owner : object.isNamespaceName with
        | true => simp [owner] at receiver
        | false =>
          have looked : n ∈ object.lookups := by simpa [owner] using receiver
          exact (outsideChain (reads_cover object false n looked)).mono (by simp [reads, owner])
      · exact passed behind
    | _ => exact passed (by simpa [lookups] using member)
  | .list elements s =>
    exact fun n member => Or.inr (readsOfList_cover elements n member)
  | .record properties s =>
    exact fun n member => Or.inr (readsOfProperties_cover properties n member)
  | .unary op operand s =>
    exact fun n member => Or.inr (outsideChain (reads_cover operand false n member))
  | .binary op left right s | .logical op left right s =>
    intro n member
    rw [lookups, List.mem_append] at member
    rcases member with first | second
    · exact Or.inr ((outsideChain (reads_cover left false n first)).mono
        (List.subset_append_left ..))
    · exact Or.inr ((outsideChain (reads_cover right false n second)).mono
        (List.subset_append_right ..))
  | .ternary c a b s =>
    intro n member
    rw [lookups, List.mem_append, List.mem_append] at member
    rcases member with (first | second) | third
    · exact Or.inr ((outsideChain (reads_cover c false n first)).mono (by simp [reads]))
    · exact Or.inr ((outsideChain (reads_cover a false n second)).mono (by simp [reads]))
    · exact Or.inr ((outsideChain (reads_cover b false n third)).mono (by simp [reads]))
  termination_by structural e

theorem readsOfList_cover (es : List Expr) : ∀ n ∈ lookupsOfList es, Covers (readsOfList es) n := by
  match es with
  | [] => simp [lookupsOfList]
  | e :: rest =>
    intro n member
    rw [lookupsOfList, List.mem_append] at member
    rcases member with first | behind
    · exact (outsideChain (reads_cover e false n first)).mono (List.subset_append_left ..)
    · exact (readsOfList_cover rest n behind).mono (List.subset_append_right ..)
  termination_by structural es

theorem readsOfProperties_cover (ps : List (String × Expr)) :
    ∀ n ∈ lookupsOfProperties ps, Covers (readsOfProperties ps) n := by
  match ps with
  | [] => simp [lookupsOfProperties]
  | (key, e) :: rest =>
    intro n member
    rw [lookupsOfProperties, List.mem_append] at member
    rcases member with first | behind
    · exact (outsideChain (reads_cover e false n first)).mono (List.subset_append_left ..)
    · exact (readsOfProperties_cover rest n behind).mono (List.subset_append_right ..)
  termination_by structural ps

end

/-- Every name that a parsed expression looks up stands for a builtin or is the root of a path that the
expression depends on. -/
theorem mem_dependencyRoots {source : String} {e : Expr} (parsed : parse source = .ok e) {n : String}
    (member : n ∈ e.lookups) : n ∈ nonStateNames ∨ n ∈ dependencyRoots e.dependencies := by
  have name := lookups_isName e (parse_onlyNames parsed) n member
  simp only [dependencyRoots, NameSet.mem_ofList, List.mem_map, dependencies]
  rcases outsideChain (reads_cover e false n member) with builtin | path | below
  · exact Or.inl builtin
  · exact Or.inr ⟨n, path, rootOfPath_name name⟩
  · exact Or.inr ⟨Path.wildcardOf n, below, rootOfPath_wildcardOf_name name⟩

end Expr

namespace Resolver

/-- The outcome of a parsed expression, interpreted or read directly, depends only on the roots of its
dependencies and on the builtin names that it looks up. -/
theorem outcome_of_dependencyRoots {source : String} {e : Expr} (parsed : Expr.parse source = .ok e)
    (options : EvalOptions) {r₁ r₂ : Resolver}
    (roots : ∀ n ∈ dependencyRoots e.dependencies, r₁.lookup n = r₂.lookup n)
    (builtins : ∀ n ∈ e.lookups, n ∈ nonStateNames → r₁.lookup n = r₂.lookup n) :
    Eval.run options r₁ e = Eval.run options r₂ e ∧
      ∀ direct, Direct.ofExpr? e = some direct → direct.call r₁ = direct.call r₂ := by
  have same : Eval.SameOn r₁ r₂ e.lookups := by
    intro n member
    rcases Expr.mem_dependencyRoots parsed member with builtin | root
    · exact builtins n member builtin
    · exact roots n root
  exact ⟨Eval.run_congr (.refl options) same, fun _ simple => Direct.call_congr simple same⟩

/-- `a.b + NaN` where only a name that it does not look up differs. -/
theorem outcome_of_dependencyRoots_at_sum :
    ∃ e, Expr.parse "a.b + NaN" = .ok e ∧
      (∀ n ∈ dependencyRoots e.dependencies, (ofJson (.object [("a", .bool true)])).lookup n =
        (ofJson (.object [("a", .bool true), ("c", .null)])).lookup n) ∧
      (∀ n ∈ e.lookups, n ∈ nonStateNames → (ofJson (.object [("a", .bool true)])).lookup n =
        (ofJson (.object [("a", .bool true), ("c", .null)])).lookup n) ∧
      Eval.run {} (ofJson (.object [("a", .bool true)])) e =
        Eval.run {} (ofJson (.object [("a", .bool true), ("c", .null)])) e := by
  have names : (Expr.parse "a.b + NaN").toOption.map (fun e => (dependencyRoots e.dependencies, e.lookups)) =
      some (["a"], ["a", "NaN"]) := by decide +kernel
  cases parsed : Expr.parse "a.b + NaN" with
  | error e => simp [parsed, Except.toOption] at names
  | ok e =>
    simp only [parsed, Except.toOption, Option.map_some, Option.some.injEq, Prod.mk.injEq] at names
    refine ⟨e, rfl, ?_⟩
    have roots : ∀ n ∈ dependencyRoots e.dependencies, (ofJson (.object [("a", .bool true)])).lookup n =
        (ofJson (.object [("a", .bool true), ("c", .null)])).lookup n := by
      rw [names.1]
      simp only [List.mem_singleton, forall_eq]
      rfl
    have builtins : ∀ n ∈ e.lookups, n ∈ nonStateNames → (ofJson (.object [("a", .bool true)])).lookup n =
        (ofJson (.object [("a", .bool true), ("c", .null)])).lookup n := by
      rw [names.2]
      simp only [List.mem_cons, List.not_mem_nil, or_false, forall_eq_or_imp, forall_eq]
      exact ⟨fun _ => rfl, fun _ => rfl⟩
    exact ⟨roots, builtins, (outcome_of_dependencyRoots parsed {} roots builtins).1⟩

/-- A builtin name is looked up although nothing depends on it. -/
theorem outcome_not_of_dependencyRoots :
    ¬ ∀ (source : String) (e : Expr), Expr.parse source = .ok e →
      ∀ (options : EvalOptions) (r₁ r₂ : Resolver),
        (∀ n ∈ dependencyRoots e.dependencies, r₁.lookup n = r₂.lookup n) →
          Eval.run options r₁ e = Eval.run options r₂ e ∧
            ∀ direct, Direct.ofExpr? e = some direct → direct.call r₁ = direct.call r₂ := by
  intro sound
  have parsed : Expr.parse "NaN" = .ok (.name "NaN" ⟨.origin, 3⟩) := rfl
  have independent : dependencyRoots (Expr.name "NaN" ⟨.origin, 3⟩).dependencies = [] := rfl
  obtain ⟨same, _⟩ := sound "NaN" _ parsed {} (.ofJson (.object [])) (.ofJson (.object [("NaN", .bool true)]))
    (by simp [independent])
  have unbound : Eval.run {} (.ofJson (.object [])) (.name "NaN" ⟨.origin, 3⟩) = (.ok .null, 1) := rfl
  have bound : Eval.run {} (.ofJson (.object [("NaN", .bool true)])) (.name "NaN" ⟨.origin, 3⟩) =
      (.ok (.bool true), 1) := rfl
  rw [unbound, bound] at same
  cases same

end Resolver

end StateScript
