import StateScript.Proofs.Braces
import StateScript.Proofs.EngineMemory

/-!
Expressions between markers. A template ends an expression at the first closing pair, wherever that
stands, so a source means the same between markers exactly if it holds no such pair itself.
-/

namespace StateScript

namespace Text

theorem breakOn_append {needle text before behind : List Char} (found : breakOn needle text = some (before, behind))
    (more : List Char) : breakOn needle (text ++ more) = some (before, behind ++ more) := by
  induction text generalizing before with
  | nil =>
    simp only [breakOn] at found
    split at found
    · rename_i empty
      cases found
      rw [List.isEmpty_iff.mp empty]
      cases more <;> rfl
    · cases found
  | cons c rest ih =>
    simp only [breakOn] at found
    rw [List.cons_append, breakOn]
    split at found
    · rename_i here
      cases found
      have front := List.isPrefixOf_iff_prefix.mp here
      have still : needle.isPrefixOf (c :: (rest ++ more)) :=
        List.isPrefixOf_iff_prefix.mpr (front.trans (List.prefix_append (c :: rest) more))
      rw [if_pos still, ← List.cons_append, List.drop_append_of_le_length front.length_le]
    · rename_i elsewhere
      obtain ⟨⟨front, back⟩, later, same⟩ := Option.map_eq_some_iff.mp found
      cases same
      -- The needle fits into the rest, so it is no longer than the text and cannot reach behind it.
      have fits : needle.length ≤ (c :: rest).length := by
        have length := congrArg List.length (breakOn_eq_some later)
        simp only [List.length_append] at length
        simp only [List.length_cons]
        omega
      have absent : ¬ needle.isPrefixOf (c :: (rest ++ more)) = true := by
        intro here
        have front := List.isPrefixOf_iff_prefix.mp here
        exact elsewhere (List.isPrefixOf_iff_prefix.mpr
          (List.prefix_of_prefix_length_le front (List.prefix_append (c :: rest) more) fits))
      rw [if_neg absent, ih later]
      rfl

theorem trim_split (cs : List Char) : ∃ front back, cs = front ++ (trim cs ++ back) ∧
    (∀ c ∈ front, isBlank c = true) ∧ ∀ c ∈ back, isBlank c = true := by
  refine ⟨cs.takeWhile isBlank, ((trimStart cs).reverse.takeWhile isBlank).reverse, ?_, ?_, ?_⟩
  · rw [trim, trimEnd, ← List.reverse_append, List.takeWhile_append_dropWhile, List.reverse_reverse, trimStart,
      List.takeWhile_append_dropWhile]
  · exact List.all_eq_true.mp List.all_takeWhile
  · intro c member
    exact List.all_eq_true.mp List.all_takeWhile c (List.mem_reverse.mp member)

theorem trim_blank (cs : List Char) : trim (' ' :: cs) = trim cs := rfl

theorem trim_append_blank (cs : List Char) : trim (cs ++ [' ']) = trim cs := by
  have back (cs : List Char) : trimEnd (cs ++ [' ']) = trimEnd cs := by
    rw [trimEnd, List.reverse_append]
    rfl
  rw [trim, trim, trimStart, List.dropWhile_append]
  split
  · rename_i blank
    rw [trimStart, List.isEmpty_iff.mp blank]
    rfl
  · exact back _

theorem isPlain_of_isBlank {c : Char} (blank : isBlank c = true) : BraceScan.isPlain c = true := by
  simp only [BraceScan.isPlain, Bool.and_eq_true, bne_iff_ne]
  refine ⟨⟨⟨?_, ?_⟩, ?_⟩, ?_⟩ <;> rintro rfl <;> simp [isBlank] at blank

theorem balanced_trim {cs : List Char} (balanced : Balanced (trim cs)) : Balanced cs := by
  obtain ⟨front, back, same, blank, blank'⟩ := trim_split cs
  rw [same]
  exact (balanced_of_plain fun c member => isPlain_of_isBlank (blank c member)).append
    (balanced.append (balanced_of_plain fun c member => isPlain_of_isBlank (blank' c member)))

end Text

namespace Expr

theorem parse_balanced {source : String} {tree : Expr} (parsed : parse source = .ok tree) :
    Balanced source.toList := Text.balanced_trim (read_balanced (parse_eq_ok parsed))

/-- What stands before a closing pair in an expression is no expression. -/
theorem parse_before_closing {source : String} {tree : Expr} (parsed : parse source = .ok tree)
    {before behind : List Char} (closed : Text.breakOn Template.closing source.toList = some (before, behind))
    (other : Expr) : parse (String.ofList before) ≠ .ok other := by
  intro front
  have whole := parse_balanced parsed
  rw [Text.breakOn_eq_some closed, List.append_assoc] at whole
  have level := parse_balanced front
  rw [String.toList_ofList] at level
  exact Balanced.not_before_closing (b := '\x7d' :: behind) whole level

/-- No expression starts with an opening pair. -/
theorem parse_opening {source : String} (opens : Template.opening <+: Text.trim source.toList) (tree : Expr) :
    parse source ≠ .ok tree := by
  intro parsed
  obtain ⟨rest, same⟩ := opens
  obtain ⟨p, recognised, _⟩ := recognised_of_read (parse_eq_ok parsed)
  refine Grammar.recognise_of_refuses ?_ p recognised
  rw [← same]
  exact Grammar.expression_refuses_braces _ _ rest

end Expr

namespace Error

@[simp] theorem expression_withExpression {source : String} {e : Error} (unnamed : e.context.expression = none) :
    (e.withExpression source).context.expression = some source := by
  unfold withExpression
  rw [unnamed]
  cases e <;> rfl

theorem expression_mapError {α : Type} {source : String} {result : Except Error α}
    (unnamed : ∀ e, result = .error e → e.context.expression = none) {e : Error}
    (failed : result.mapError (withExpression source) = .error e) : e.context.expression = some source := by
  cases result with
  | ok a => cases failed
  | error inner =>
    cases failed
    exact expression_withExpression (unnamed inner rfl)

end Error

theorem ParseFault.expression_error (source : String) (fault : ParseFault) :
    (fault.error source).context.expression = some source := by
  cases fault <;> exact Error.expression_withExpression rfl

theorem EvalFault.expression_error (fault : EvalFault) : fault.error.context.expression = none := by
  cases fault with
  | call fault => cases fault <;> rfl
  | _ => rfl

namespace Template

/-- A source between markers. -/
def marked (source : String) : String := "\x7b\x7b " ++ source ++ " \x7d\x7d"

theorem toList_marked (source : String) :
    (marked source).toList = opening ++ ' ' :: (source.toList ++ ' ' :: closing) := by
  simp [marked, opening, closing, String.toList_append]

theorem trim_stripMarkers (source : String) :
    Text.trim (stripMarkers source).toList = (stripMarkers source).toList := by
  unfold stripMarkers
  rw [String.toList_ofList]
  cases marked : single? source.toList with
  | none => exact Text.trim_trim _
  | some inner => exact (single?_eq_some marked).1

theorem stripMarkers_of_single? {source : String} (none' : single? source.toList = none) :
    stripMarkers source = String.ofList (Text.trim source.toList) := by
  rw [stripMarkers, none', Option.getD_none]

theorem trim_marked (source : String) : Text.trim (marked source).toList = (marked source).toList := by
  apply Text.trim_eq_self
  · intro c first
    rw [toList_marked] at first
    cases first
    rfl
  · intro c last
    have ends : (marked source).toList.getLast? = some '\x7d' := by
      simp [toList_marked, closing, List.getLast?_cons]
    rw [ends] at last
    cases last
    rfl

theorem piecesFrom_ne_nil (fuel : Nat) {cs : List Char} (some' : cs ≠ []) : piecesFrom fuel cs ≠ [] := by
  have text : textPiece cs ≠ [] := by simp [textPiece, some']
  cases fuel with
  | zero => exact text
  | succ fuel =>
    simp only [piecesFrom]
    split
    · exact text
    · split
      · exact text
      · simp

/-- The first piece of a text with an opening pair at its front. -/
theorem pieces_of_opening {cs inner rest : List Char} (closed : Text.breakOn closing cs = some (inner, rest)) :
    ∃ fuel, pieces (opening ++ cs) = .expression (Text.trim inner) :: piecesFrom fuel rest := by
  refine ⟨cs.length + 1, ?_⟩
  have opened : Text.breakOn opening (opening ++ cs) = some ([], cs) := rfl
  have fuel : (opening ++ cs).length = cs.length + 1 + 1 := by simp [opening]
  rw [pieces, fuel]
  simp only [piecesFrom, opened, closed]
  rfl

/-- A text without closing pairs is broken at one that stands apart from it. -/
theorem breakOn_closing {cs : List Char} (unclosed : ¬ closing <:+: cs) :
    Text.breakOn closing (cs ++ ' ' :: closing) = some (cs ++ [' '], []) := by
  induction cs with
  | nil => rfl
  | cons c rest ih =>
    rw [List.infix_cons_iff, not_or] at unclosed
    have absent : ¬ closing.isPrefixOf (c :: (rest ++ ' ' :: closing)) = true := by
      intro here
      obtain ⟨first, second⟩ := List.cons_prefix_cons.mp (List.isPrefixOf_iff_prefix.mp here)
      cases rest with
      | nil => exact absurd (List.cons_prefix_cons.mp second).1 (by decide)
      | cons d more =>
        have same := (List.cons_prefix_cons.mp second).1
        exact unclosed.1 (by simp [closing, ← first, ← same])
    rw [List.cons_append, Text.breakOn, if_neg absent, ih unclosed.2]
    rfl

theorem breakOn_closing_blank (cs : List Char) : Text.breakOn closing (' ' :: cs) =
    (Text.breakOn closing cs).map fun (before, behind) => (' ' :: before, behind) := rfl

/-- A template that is one pair of markers, but for blanks around it. -/
theorem inner_of_single? {cs source : List Char} (found : single? cs = some source) : ∃ behind inner,
    Text.trim cs = opening ++ behind ∧ Text.breakOn closing behind = some (inner, []) ∧ source = Text.trim inner := by
  have text {cs : List Char} : textPiece cs ≠ [.expression source] := by
    unfold textPiece
    split <;> simp
  unfold single? at found
  split at found
  · rename_i inner only
    cases found
    unfold pieces at only
    generalize (Text.trim cs).length = fuel at only
    cases fuel with
    | zero => exact absurd only text
    | succ fuel =>
      simp only [piecesFrom] at only
      split at only
      · exact absurd only text
      · rename_i before behind opened
        split at only
        · exact absurd only text
        · rename_i inner rest closed
          have front : before = [] := by
            by_contra some'
            simp [textPiece, some'] at only
          subst front
          obtain ⟨same, last⟩ : Text.trim inner = source ∧ piecesFrom fuel rest = [] := by
            simpa [textPiece] using only
          have empty : rest = [] := by
            by_contra some'
            exact piecesFrom_ne_nil fuel some' last
          rw [empty] at closed
          exact ⟨behind, inner, Text.breakOn_eq_some opened, closed, same.symm⟩
  · cases found

/-- A template that is one pair of markers starts with the opening one. -/
theorem opening_of_single? {cs source : List Char} (found : single? cs = some source) : opening <+: Text.trim cs := by
  obtain ⟨behind, _, whole, _⟩ := inner_of_single? found
  rw [whole]
  exact List.prefix_append opening behind

/-- An opening pair is the first one if there are only blanks before it. -/
theorem breakOn_opening_blank {front : List Char} (blank : ∀ c ∈ front, Text.isBlank c = true) (behind : List Char) :
    Text.breakOn opening (front ++ (opening ++ behind)) = some (front, behind) := by
  induction front with
  | nil => rfl
  | cons c rest ih =>
    obtain ⟨first, others⟩ := List.forall_mem_cons.mp blank
    have absent : ¬ opening.isPrefixOf (c :: (rest ++ (opening ++ behind))) = true := by
      intro here
      have same := (List.cons_prefix_cons.mp (List.isPrefixOf_iff_prefix.mp here)).1
      rw [← same] at first
      exact absurd first (by decide)
    rw [List.cons_append, Text.breakOn, if_neg absent, ih others]
    rfl

/-- The expression of a template that is nothing else is one of its expressions. -/
theorem mem_expressions_of_single? {cs source : List Char} (found : single? cs = some source) :
    String.ofList source ∈ expressions cs := by
  obtain ⟨behind, inner, whole, closed, rfl⟩ := inner_of_single? found
  obtain ⟨front, back, split, blank, _⟩ := Text.trim_split cs
  rw [whole, List.append_assoc] at split
  have opened : Text.breakOn opening cs = some (front, behind ++ back) := by
    rw [split]
    exact breakOn_opening_blank blank _
  have length : cs.length = (cs.length - 1) + 1 := by
    have bound := congrArg List.length split
    simp only [List.length_append, opening, List.length_cons] at bound
    omega
  have member : .expression (Text.trim inner) ∈ pieces cs := by
    rw [pieces, length]
    simp only [piecesFrom, opened, Text.breakOn_append closed]
    exact List.mem_append_right _ List.mem_cons_self
  exact List.mem_filterMap.mpr ⟨_, member, rfl⟩

section

variable {source : String}

/-- Without closing pairs in it a source is what stands between its markers. -/
theorem single?_marked (unclosed : ¬ closing <:+: source.toList) :
    single? (marked source).toList = some (Text.trim source.toList) := by
  have closed : Text.breakOn closing (' ' :: (source.toList ++ ' ' :: closing)) =
      some (' ' :: (source.toList ++ [' ']), []) := by
    rw [breakOn_closing_blank, breakOn_closing unclosed]
    rfl
  obtain ⟨fuel, same⟩ := pieces_of_opening closed
  have last : piecesFrom fuel [] = [] := by cases fuel <;> rfl
  rw [single?, trim_marked, toList_marked, same, last, Text.trim_blank, Text.trim_append_blank]

/-- A closing pair in a source ends the expression there, and something is left behind it. -/
theorem pieces_marked {before behind : List Char}
    (closed : Text.breakOn closing source.toList = some (before, behind)) :
    ∃ more, more ≠ [] ∧ pieces (marked source).toList = .expression (Text.trim before) :: more := by
  have closed' : Text.breakOn closing (' ' :: (source.toList ++ ' ' :: closing)) =
      some (' ' :: before, behind ++ ' ' :: closing) := by
    rw [breakOn_closing_blank, Text.breakOn_append closed]
    rfl
  obtain ⟨fuel, same⟩ := pieces_of_opening closed'
  refine ⟨piecesFrom fuel (behind ++ ' ' :: closing), piecesFrom_ne_nil fuel (by simp), ?_⟩
  rw [toList_marked, ← Text.trim_blank before, ← same]

theorem stripMarkers_marked (unclosed : ¬ closing <:+: source.toList) :
    stripMarkers (marked source) = stripMarkers source := by
  rw [stripMarkers, single?_marked unclosed, stripMarkers_of_single? (single?_of_unclosed unclosed),
    Option.getD_some]

end

end Template

namespace Expr

theorem parse_trim (cs : List Char) : parse (String.ofList (Text.trim cs)) = parse (String.ofList cs) := by
  simp only [parse, String.toList_ofList, Text.trim_trim]

/-- What parses has no markers to strip. -/
theorem stripMarkers_of_parse {source : String} {tree : Expr} (parsed : parse source = .ok tree) :
    Template.stripMarkers source = String.ofList (Text.trim source.toList) := by
  apply Template.stripMarkers_of_single?
  cases found : Template.single? source.toList with
  | none => rfl
  | some inner => exact absurd parsed (parse_opening (Template.opening_of_single? found) tree)

end Expr

namespace Engine

/-- An evaluation depends on its source only through what is left without markers. -/
theorem evaluate_congr {source other : String} (same : Template.stripMarkers source = Template.stripMarkers other)
    (resolver : Resolver) (options : EvalOptions) :
    evaluate source resolver options = evaluate other resolver options := by
  unfold evaluate
  rw [same]

section

variable {engine : Engine} {source : String} {resolver : Resolver} {options : EvalOptions}

theorem expression_of_checkedTree {e : Error} (trimmed : Text.trim source.toList = source.toList)
    (failed : checkedTree source options = .error e) : e.context.expression = some source := by
  unfold checkedTree at failed
  cases parsed : Expr.parse source with
  | error fault =>
    rw [parsed] at failed
    cases failed
    simp only [Expr.parse, trimmed, String.ofList_toList] at parsed
    cases given : Expr.read source.toList with
    | ok tree =>
      rw [given] at parsed
      cases parsed
    | error fault =>
      rw [given] at parsed
      cases parsed
      exact ParseFault.expression_error source fault
  | ok tree =>
    rw [parsed, ok_bind] at failed
    have unnamed : ∀ inner, tree.check options.validation = .error inner → inner.context.expression = none := by
      intro inner refused
      unfold Expr.check at refused
      split at refused <;> cases refused
      rfl
    refine Error.expression_mapError unnamed (?_ : _ = Except.error e)
    · cases checked : tree.check options.validation with
      | ok _ =>
        rw [checked] at failed
        cases failed
      | error inner =>
        rw [checked] at failed
        cases failed
        rfl

theorem expression_of_valueOf {tree : Expr} {e : Error} (failed : valueOf source tree resolver options = .error e) :
    e.context.expression = some source := by
  unfold valueOf at failed
  split at failed
  · cases failed
  · refine Error.expression_mapError (fun inner refused => ?_) failed
    unfold Eval.interpret at refused
    cases ran : (Eval.run options resolver tree).1 with
    | ok v =>
      rw [ran] at refused
      cases refused
    | error fault =>
      rw [ran] at refused
      cases refused
      exact EvalFault.expression_error fault

/-- Every error of an evaluation names the source without its markers. -/
theorem expression_of_evaluate (sound : engine.Sound) {e : Error}
    (failed : ((evaluate source resolver options).run engine).1 = .error e) :
    e.context.expression = some (Template.stripMarkers source) := by
  unfold evaluate at failed
  have bare := Template.stripMarkers_stripMarkers source
  have trimmed := Template.trim_stripMarkers source
  generalize Template.stripMarkers source = source at bare trimmed failed ⊢
  obtain ⟨still, _, given⟩ := prepare_gives source options engine sound
  rw [run_bind] at failed
  rw [bare] at given
  rcases prepared : (prepare source options).run engine with ⟨refused | p, between⟩
  · rw [prepared] at given failed
    cases failed
    exact expression_of_checkedTree trimmed given.symm
  · rw [prepared] at still failed
    -- Past the preparation only the computation can fail; what it stores afterwards changes no error.
    obtain ⟨_, _, value⟩ := compute_gives p bare resolver options between still
    have computes : ((compute p source resolver options).run between).1 = .error e := by
      cases place : (if options.cacheResults then resolver.cacheScope p.roots else none) with
      | none =>
        simp only [place] at failed
        exact failed
      | some scope =>
        simp only [place] at failed
        rw [run_bind, run_get] at failed
        cases hit : between.results.find? scope source with
        | some entry =>
          simp only [hit] at failed
          cases failed
        | none =>
          simp only [hit] at failed
          rw [run_bind] at failed
          rcases computed : (compute p source resolver options).run between with ⟨refused | v, left⟩
          · rw [computed] at failed
            exact failed
          · rw [computed] at failed
            cases failed
    rw [value] at computes
    exact expression_of_valueOf computes

theorem evaluate_unparsed (sound : engine.Sound) (resolver : Resolver) (options : EvalOptions)
    (unparsed : ∀ tree, Expr.parse (Template.stripMarkers source) ≠ .ok tree) :
    ∃ e, ((evaluate source resolver options).run engine).1 = .error e := by
  unfold evaluate
  have bare := Template.stripMarkers_stripMarkers source
  generalize Template.stripMarkers source = source at bare unparsed ⊢
  obtain ⟨_, _, given⟩ := prepare_gives source options engine sound
  rw [run_bind]
  rw [bare] at given
  rcases prepared : (prepare source options).run engine with ⟨refused | p, between⟩
  · exact ⟨refused, rfl⟩
  · rw [prepared] at given
    have checked : checkedTree source options = .ok p.tree := given.symm
    exact absurd (parse_of_checkedTree checked) (unparsed p.tree)

/-- Of two sources only one of which parses, the results differ, if only by the source that an error names. -/
theorem evaluate_ne (sound : engine.Sound) {other : String} {tree : Expr}
    (parsed : Expr.parse (Template.stripMarkers source) = .ok tree)
    (unparsed : ∀ tree, Expr.parse (Template.stripMarkers other) ≠ .ok tree) :
    ((evaluate other resolver options).run engine).1 ≠ ((evaluate source resolver options).run engine).1 := by
  intro same
  obtain ⟨e, failed⟩ := evaluate_unparsed sound resolver options unparsed
  have named := expression_of_evaluate sound failed
  rw [expression_of_evaluate sound (same.symm.trans failed), Option.some.injEq] at named
  exact unparsed tree (named ▸ parsed)

/-- A template fails with its first expression. -/
theorem interpolate_fails {template : String} {inner : List Char} {more : List TemplatePiece} {e : Error}
    (several : Template.single? template.toList = none)
    (first : Template.pieces template.toList = .expression inner :: more)
    (failed : ((evaluate (String.ofList inner) resolver options).run engine).1 = .error e) :
    ((interpolate template resolver options).run engine).1 = .error e := by
  have markers : Template.hasMarkers template.toList = true := by
    simp [Template.hasMarkers, Template.expressions, first]
  unfold interpolate
  simp only [several, markers, if_true, first, renderPieces]
  rw [run_bind, run_bind]
  rcases outcome : (evaluate (String.ofList inner) resolver options).run engine with ⟨refused | v, left⟩
  · rw [outcome] at failed
    cases failed
    rfl
  · rw [outcome] at failed
    cases failed

/-- Without a closing pair in the source, stripping the markers is all that happens to them. -/
theorem marked_eq (unclosed : ¬ Template.closing <:+: source.toList) (resolver : Resolver) (options : EvalOptions) :
    evaluate (Template.marked source) resolver options = evaluate source resolver options ∧
      interpolate (Template.marked source) resolver options = evaluate source resolver options := by
  have bare : Template.stripMarkers (String.ofList (Text.trim source.toList)) = Template.stripMarkers source := by
    rw [← Template.stripMarkers_of_single? (Template.single?_of_unclosed unclosed),
      Template.stripMarkers_stripMarkers]
  refine ⟨evaluate_congr (Template.stripMarkers_marked unclosed) resolver options, ?_⟩
  unfold interpolate
  simp only [Template.single?_marked unclosed]
  exact evaluate_congr bare resolver options

/-- With a closing pair in it, a source that parses fails between markers, in a way that it does not fail
in alone. -/
theorem marked_ne (sound : engine.Sound) (resolver : Resolver) (options : EvalOptions) {tree : Expr} (parsed : Expr.parse source = .ok tree)
    {before behind : List Char} (closed : Text.breakOn Template.closing source.toList = some (before, behind)) :
    ((evaluate (Template.marked source) resolver options).run engine).1 ≠
        ((evaluate source resolver options).run engine).1 ∧
      ((interpolate (Template.marked source) resolver options).run engine).1 ≠
        ((evaluate source resolver options).run engine).1 := by
  have parsed' : Expr.parse (Template.stripMarkers source) = .ok tree := by
    rw [Expr.stripMarkers_of_parse parsed, Expr.parse_trim, String.ofList_toList, parsed]
  obtain ⟨more, left, first⟩ := Template.pieces_marked closed
  have several : Template.single? (Template.marked source).toList = none := by
    rw [Template.single?, Template.trim_marked, first]
    simp [left]
  have whole : ∀ other, Expr.parse (Template.stripMarkers (Template.marked source)) ≠ .ok other := by
    rw [Template.stripMarkers_of_single? several, Expr.parse_trim, String.ofList_toList]
    refine Expr.parse_opening ?_
    rw [Template.trim_marked, Template.toList_marked]
    exact List.prefix_append _ _
  have unclosed : ¬ Template.closing <:+: Text.trim before := fun inside =>
    Text.not_infix_of_breakOn Template.closing_ne_nil closed (inside.trans (Text.trim_infix before))
  have front : ∀ other,
      Expr.parse (Template.stripMarkers (String.ofList (Text.trim before))) ≠ .ok other := by
    rw [Template.stripMarkers_of_single? (by rw [String.toList_ofList]; exact Template.single?_of_unclosed unclosed),
      String.toList_ofList, Text.trim_trim, Expr.parse_trim]
    exact Expr.parse_before_closing parsed closed
  refine ⟨evaluate_ne sound parsed' whole, fun same => ?_⟩
  obtain ⟨e, failed⟩ := evaluate_unparsed sound resolver options front
  rw [interpolate_fails several first failed] at same
  exact evaluate_ne sound parsed' front (failed.trans same)

/-- Between markers a source that parses gives the same as alone, evaluated or as a template, exactly if
no closing pair stands in it. -/
theorem marked_transparent_iff (sound : engine.Sound) {tree : Expr} (parsed : Expr.parse source = .ok tree)
    (resolver : Resolver) (options : EvalOptions) :
    (((evaluate (Template.marked source) resolver options).run engine).1 =
        ((evaluate source resolver options).run engine).1 ↔ ¬ Template.closing <:+: source.toList) ∧
      (((interpolate (Template.marked source) resolver options).run engine).1 =
        ((evaluate source resolver options).run engine).1 ↔ ¬ Template.closing <:+: source.toList) := by
  by_cases unclosed : Template.closing <:+: source.toList
  · have closes : Text.breakOn Template.closing source.toList ≠ none := fun none' =>
      (Text.breakOn_eq_none_iff Template.closing_ne_nil).mp none' unclosed
    obtain ⟨⟨before, behind⟩, closed⟩ := Option.ne_none_iff_exists'.mp closes
    obtain ⟨evaluated, interpolated⟩ := marked_ne sound resolver options parsed closed
    exact ⟨by simp [evaluated, unclosed], by simp [interpolated, unclosed]⟩
  · obtain ⟨evaluated, interpolated⟩ := marked_eq unclosed resolver options
    exact ⟨by simp [evaluated, unclosed], by simp [interpolated, unclosed]⟩

end

/-- A record inside a record parses and has a value, and neither an evaluation nor a template gives that
value with markers around it. -/
theorem marked_not_transparent :
    ((evaluate "\x7ba: \x7bb: true\x7d\x7d" (.ofJson (.object [])) {}).run {}).1.toOption.map Json.compact =
        some "\x7b\"a\":\x7b\"b\":true\x7d\x7d" ∧
      ((evaluate (Template.marked "\x7ba: \x7bb: true\x7d\x7d") (.ofJson (.object [])) {}).run {}).1.toOption =
        none ∧
      ((interpolate (Template.marked "\x7ba: \x7bb: true\x7d\x7d") (.ofJson (.object [])) {}).run {}).1.toOption =
        none := by
  refine ⟨?_, ?_, ?_⟩ <;> decide +kernel

/-- A blank between two closing braces makes the difference. -/
theorem marked_transparent_iff_at_record :
    Sound {} ∧ (Expr.parse "\x7ba: \x7bb: true\x7d \x7d").toOption.isSome = true ∧
      ((evaluate (Template.marked "\x7ba: \x7bb: true\x7d \x7d") (.ofJson (.object [])) {}).run {}).1 =
        ((evaluate "\x7ba: \x7bb: true\x7d \x7d" (.ofJson (.object [])) {}).run {}).1 ∧
      ((interpolate (Template.marked "\x7ba: \x7bb: true\x7d \x7d") (.ofJson (.object [])) {}).run {}).1 =
        ((evaluate "\x7ba: \x7bb: true\x7d \x7d" (.ofJson (.object [])) {}).run {}).1 := by
  have parses : (Expr.parse "\x7ba: \x7bb: true\x7d \x7d").toOption.isSome = true := by decide +kernel
  have unclosed : ¬ Template.closing <:+: "\x7ba: \x7bb: true\x7d \x7d".toList := by decide +kernel
  cases parsed : Expr.parse "\x7ba: \x7bb: true\x7d \x7d" with
  | error e => simp [parsed, Except.toOption] at parses
  | ok tree =>
    obtain ⟨evaluated, interpolated⟩ := marked_transparent_iff (Sound.empty 0) parsed (.ofJson (.object [])) {}
    exact ⟨Sound.empty 0, by rw [← parsed]; exact parses, evaluated.mpr unclosed, interpolated.mpr unclosed⟩

end Engine

end StateScript
