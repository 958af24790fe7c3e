import StateScript.Proofs.Recognition

/-!
Two rules in step. They concur from some texts on if they find the same there, in the same place and with the same
failures on the way, and come to texts of a known kind. The grammar keeps rules in step, so what differs between
two of its rules shows only where it is reached.
-/

namespace StateScript

namespace Grammar

section

variable {α β : Type}

/-- Two rules do the same on the texts of a kind and leave texts of another kind. -/
def Concur (before after : List Char → Prop) (rule other : Recogniser α) : Prop :=
  ∀ cursor furthest, before cursor.rest → rule cursor furthest = other cursor furthest ∧
    ∀ found behind, (rule cursor furthest).1 = some (found, behind) → after behind.rest

variable {rule other second third : Recogniser α} {next further : α → Recogniser β}
  {before between after wider : List Char → Prop}

theorem Concur.pure (a : α) : Concur before before (Pure.pure a) (Pure.pure a) := by
  intro cursor furthest ready
  refine ⟨rfl, fun found behind given => ?_⟩
  cases given
  exact ready

theorem Concur.get : Concur before before (get : Recogniser Cursor) get := by
  intro cursor furthest ready
  refine ⟨rfl, fun found behind given => ?_⟩
  cases given
  exact ready

theorem Concur.failure : Concur before after (failure : Recogniser α) failure :=
  fun _ _ _ => ⟨rfl, nofun⟩

theorem Concur.mono (concur : Concur before between rule other) (reaches : ∀ text, between text → after text) :
    Concur before after rule other := by
  intro cursor furthest ready
  obtain ⟨same, leaves⟩ := concur cursor furthest ready
  exact ⟨same, fun found behind given => reaches _ (leaves found behind given)⟩

theorem Concur.of_before (concur : Concur before after rule other) (starts : ∀ text, wider text → before text) :
    Concur wider after rule other :=
  fun cursor furthest ready => concur cursor furthest (starts _ ready)

theorem Concur.bind (first : Concur before between rule other)
    (rest : ∀ a, Concur between after (next a) (further a)) :
    Concur before after (rule >>= next) (other >>= further) := by
  intro cursor furthest ready
  obtain ⟨same, leaves⟩ := first cursor furthest ready
  rw [bind_apply, bind_apply, ← same]
  rcases outcome : rule cursor furthest with ⟨_ | ⟨a, middle⟩, later⟩
  · exact ⟨rfl, nofun⟩
  · exact rest a middle later (leaves a middle (by rw [outcome]))

/-- The second choices are tried where the first ones were. -/
theorem Concur.orElse (first : Concur before after rule other) (rest : Concur before after second third) :
    Concur before after (rule <|> second) (other <|> third) := by
  intro cursor furthest ready
  obtain ⟨same, leaves⟩ := first cursor furthest ready
  rw [orElse_apply, orElse_apply, ← same]
  rcases outcome : rule cursor furthest with ⟨_ | ⟨a, middle⟩, later⟩
  · exact rest cursor later ready
  · refine ⟨rfl, fun found behind given => ?_⟩
    cases given
    exact leaves a middle (by rw [outcome])

theorem Concur.named (inner : Concur before after rule other) : Concur before after (named rule) (named other) := by
  intro cursor furthest ready
  obtain ⟨same, leaves⟩ := inner cursor furthest ready
  unfold Grammar.named
  rw [← same]
  rcases outcome : rule cursor furthest with ⟨_ | ⟨a, middle⟩, later⟩
  · exact ⟨rfl, nofun⟩
  · refine ⟨rfl, fun found behind given => ?_⟩
    cases given
    exact leaves a middle (by rw [outcome])

theorem Concur.firstOf {rules others : List (Recogniser α)} (each : List.Forall₂ (Concur before after) rules others) :
    Concur before after (firstOf rules) (firstOf others) := by
  induction each with
  | nil => exact Concur.failure
  | cons first _ ih => exact Concur.orElse first ih

theorem Concur.optional (inner : Concur before after rule other) (stays : ∀ text, before text → after text) :
    Concur before after (optional rule) (optional other) := by
  refine Concur.orElse ?_ ((Concur.pure none).mono stays)
  rw [map_eq_pure_bind, map_eq_pure_bind]
  exact inner.bind fun _ => Concur.pure _

theorem Concur.many (each : Concur before before rule other) (limit : Nat) :
    Concur before before (many limit rule) (many limit other) := by
  induction limit with
  | zero => exact Concur.pure _
  | succ limit ih =>
    exact Concur.orElse (each.bind fun _ => ih.bind fun _ => Concur.pure _) (Concur.pure _)

theorem Concur.separated (each : Concur before before rule other)
    (comma : Concur before before (word [',']) (word [','])) (limit : Nat) :
    Concur before before (separated limit rule) (separated limit other) := by
  refine (each.optional fun _ => id).bind fun first => ?_
  cases first with
  | none => exact Concur.pure _
  | some a => exact ((comma.bind fun _ => each).many limit).bind fun _ => Concur.pure _

/-- Passing some characters and the blanks behind them. -/
theorem taken_leaves {n : Nat} {cursor behind : Cursor} {furthest : Place} {found : List Char × Span}
    (given : (taken n cursor furthest).1 = some (found, behind)) :
    behind.rest = (cursor.rest.drop n).dropWhile Lexeme.isBlank := by
  cases given
  rw [Cursor.skipBlanks_rest, Cursor.advance_rest]

theorem Concur.scanned {length? : List Char → Option Nat}
    (passes : ∀ text n, length? text = some n → before text → after ((text.drop n).dropWhile Lexeme.isBlank)) :
    Concur before after (scanned length?) (scanned length?) := by
  intro cursor furthest ready
  refine ⟨rfl, fun found behind given => ?_⟩
  obtain ⟨n, scan, front⟩ := taken_of_scanned given
  rw [taken_leaves front]
  exact passes cursor.rest n scan ready

theorem Concur.word {expected : List Char}
    (passes : ∀ rest, before (expected ++ rest) → after (rest.dropWhile Lexeme.isBlank)) :
    Concur before after (word expected) (word expected) := by
  intro cursor furthest ready
  refine ⟨rfl, fun found behind given => ?_⟩
  obtain ⟨⟨rest, stands⟩, cs, front⟩ := taken_of_word given
  rw [taken_leaves front, ← stands, List.drop_left]
  exact passes rest (stands ▸ ready)

theorem Concur.nameSuchThat (accepts : String → Bool)
    (passes : ∀ text n, Lexeme.nameLength? text = some n → before text →
      after ((text.drop n).dropWhile Lexeme.isBlank)) :
    Concur before after (nameSuchThat accepts) (nameSuchThat accepts) := by
  refine (Concur.scanned passes).bind fun found => ?_
  show Concur after after (if accepts (String.ofList found.1) then _ else _)
    (if accepts (String.ofList found.1) then _ else _)
  split
  · exact Concur.pure _
  · exact Concur.failure

end

end Grammar

end StateScript
