import Cohort.Proofs.Recovery.NormalForm
import Cohort.Proofs.Sql.Consuming

/-!
How much of a statement is accounted for. The condition is read off all tokens between the `WHERE`
and the first semicolon outside parentheses, if nothing is dropped. Tokens behind that semicolon, and
those between the name of the dataset and the `WHERE`, are passed over in silence.
-/

namespace Cohort

open Sql

def splitOuter (kind : TokenKind) (depth : Nat) : List Token → Option (List Token × List Token)
  | [] => none
  | token :: rest =>
      if depth = 0 ∧ token.kind = kind then some ([], rest)
      else (splitOuter kind (depthAfter depth token) rest).map fun (front, back) =>
        (token :: front, back)

theorem where_body_split (depth : Nat) (tokens : List Token) :
    whereBody depth tokens =
      (splitOuter (.keyword .WHERE) depth tokens).map fun parts => untilSemicolon 0 parts.2 := by
  induction tokens generalizing depth with
  | nil => rfl
  | cons token rest ih =>
      simp only [whereBody, splitOuter]
      split_ifs
      · rfl
      · simp [ih, Function.comp_def]

/-- What stands in front of the first semicolon, and that semicolon with what stands behind it. -/
theorem until_semicolon_split (depth : Nat) (tokens : List Token) :
    tokens = untilSemicolon depth tokens ∧ splitOuter (.mark .semicolon) depth tokens = none ∨
      ∃ semicolon back, tokens = untilSemicolon depth tokens ++ semicolon :: back ∧
        semicolon.kind = .mark .semicolon ∧
        splitOuter (.mark .semicolon) depth tokens = some (untilSemicolon depth tokens, back) := by
  induction tokens generalizing depth with
  | nil => exact .inl ⟨rfl, rfl⟩
  | cons token rest ih =>
      simp only [untilSemicolon, splitOuter]
      split_ifs with here
      · exact .inr ⟨token, rest, rfl, here.2, rfl⟩
      · refine (ih (depthAfter depth token)).imp ?_ ?_
        · rintro ⟨whole, none_⟩
          exact ⟨by rw [← whole], by rw [none_]; rfl⟩
        · rintro ⟨semicolon, back, whole, kind, split⟩
          refine ⟨semicolon, back, ?_, kind, by rw [split]; rfl⟩
          nth_rewrite 1 [whole]
          rfl

/-- Nothing more is cut off where the first semicolon was. -/
theorem until_semicolon_again (depth : Nat) (tokens : List Token) :
    untilSemicolon depth (untilSemicolon depth tokens) = untilSemicolon depth tokens := by
  induction tokens generalizing depth with
  | nil => rfl
  | cons token rest ih =>
      rw [untilSemicolon]
      split_ifs with here
      · rfl
      · rw [untilSemicolon, if_neg here, ih]

theorem level_step {depth after : Nat} {token : Token} {ks : List TokenKind}
    (level : levelAfter depth (token.kind :: ks) = some after) :
    levelAfter (depthAfter depth token) ks = some after := by
  cases kind : token.kind with
  | mark sign =>
      rw [kind] at level
      cases sign with
      | rparen =>
          cases depth with
          | zero => cases level
          | succ depth => simpa [levelAfter, depthAfter, kind] using level
      | _ => simpa [levelAfter, depthAfter, kind] using level
  | _ => simpa [levelAfter, depthAfter, kind] using level

/-- Tokens that end at a level are passed, unless a semicolon stands among them. -/
theorem until_semicolon_level {depth after : Nat} {front : List Token} (back : List Token)
    (level : levelAfter depth (kindsOf front) = some after) :
    untilSemicolon depth (front ++ back) = front ++ untilSemicolon after back ∨
      (untilSemicolon depth (front ++ back)).length < front.length := by
  induction front generalizing depth with
  | nil =>
      obtain rfl := Option.some.inj level
      exact .inl rfl
  | cons token front ih =>
      rw [List.cons_append, untilSemicolon]
      split_ifs with here
      · exact .inr (by simp)
      · refine (ih (level_step level)).imp ?_ ?_
        · intro passed
          rw [passed]
          rfl
        · intro shorter
          simpa using shorter

/-- A semicolon outside parentheses is no part of what stands in front of it. -/
theorem no_semicolon_behind {tokens : List Token} {semicolon : Token} {rest : List Token}
    (consumes : Consumes (untilSemicolon 0 tokens) (semicolon :: rest)) :
    semicolon.kind ≠ .mark .semicolon := by
  intro kind
  obtain ⟨front, whole, ends⟩ := consumes
  have again := until_semicolon_again 0 tokens
  rw [whole] at again
  have balanced := ends.resolve_left (List.cons_ne_nil _ _)
  -- A semicolon behind balanced tokens is outside parentheses: it would have been cut off before.
  rcases until_semicolon_level (semicolon :: rest) balanced with passed | shorter
  · rw [again, untilSemicolon, if_pos ⟨rfl, kind⟩] at passed
    simp at passed
  · rw [again] at shorter
    simp at shorter

/-- Of a statement of which nothing is dropped, the condition is read off everything between the
`WHERE` and the first semicolon behind it. -/
theorem condition_consumed {sql : String} (kept : (Recovered.ofStatement sql).dropped = []) :
    ∃ front tail expr,
      splitOuter (.keyword .WHERE) 0 (tokenize (normalizeStatement sql)) = some (front, tail) ∧
      condition? sql = some expr ∧ readExpr (untilSemicolon 0 tail) = some (expr, []) := by
  obtain ⟨body, expr, rest, found, read, surplus, _, _⟩ := nothing_dropped kept
  have here : condition? sql = some expr := by simp [condition?, found, read]
  rw [where_body_split] at found
  obtain ⟨⟨front, tail⟩, split, rfl⟩ := Option.map_eq_some_iff.mp found
  refine ⟨front, tail, expr, split, here, ?_⟩
  have nothing : rest = [] := by
    cases rest with
    | nil => rfl
    | cons token rest =>
        have consumes := takes_expr _ expr _ read
        have other := no_semicolon_behind consumes
        simp [accept, expect, other] at surplus
  rw [read, nothing]

/-- The name right behind the first `FROM` outside parentheses is the dataset. -/
theorem outer_dataset_name {depth : Nat} {tokens before behind after : List Token} {name : String}
    (found : splitOuter (.keyword .FROM) depth tokens = some (before, behind))
    (named : readName behind = some (name, after)) : outerDataset depth tokens = some name := by
  induction tokens generalizing depth before with
  | nil => cases found
  | cons token rest ih =>
      simp only [splitOuter] at found
      split_ifs at found with here
      · obtain ⟨rfl, kind⟩ := here
        obtain ⟨_, rfl⟩ := Prod.mk.inj (Option.some.inj found)
        simp [outerDataset, kind, named]
      · obtain ⟨⟨front, back⟩, split, same⟩ := Option.map_eq_some_iff.mp found
        obtain ⟨_, rfl⟩ := Prod.mk.inj same
        have goesOn := ih split
        simp only [outerDataset]
        split
        · next kind _ => exact absurd ⟨rfl, kind⟩ here
        · exact goesOn

/-- If a statement ends with the first semicolon outside parentheses behind its `WHERE`, and nothing
is dropped, its condition is read off all tokens behind the `WHERE`, a semicolon at the end apart.
The name behind the outer `FROM` is the dataset. -/
theorem statement_accounted {sql : String} (kept : (Recovered.ofStatement sql).dropped = [])
    (single : ∀ parts ∈ splitOuter (.keyword .WHERE) 0 (tokenize (normalizeStatement sql)),
      ∀ ends ∈ splitOuter (.mark .semicolon) 0 parts.2, ends.2 = []) :
    ∃ front body last expr,
      splitOuter (.keyword .WHERE) 0 (tokenize (normalizeStatement sql)) =
        some (front, body ++ last) ∧
      (last = [] ∨ ∃ semicolon, last = [semicolon] ∧ semicolon.kind = .mark .semicolon) ∧
      condition? sql = some expr ∧ readExpr body = some (expr, []) ∧
      ∀ before behind name after,
        splitOuter (.keyword .FROM) 0 (tokenize (normalizeStatement sql)) = some (before, behind) →
        readName behind = some (name, after) → (Recovered.ofStatement sql).dataset = some name := by
  obtain ⟨front, tail, expr, split, here, read⟩ := condition_consumed kept
  obtain ⟨_, _, _, _, _, _, _, whole⟩ := nothing_dropped kept
  have dataset : ∀ before behind name after,
      splitOuter (.keyword .FROM) 0 (tokenize (normalizeStatement sql)) = some (before, behind) →
      readName behind = some (name, after) → (Recovered.ofStatement sql).dataset = some name := by
    intro before behind name after found named
    have first := outer_dataset_name found named
    simp only [whole, first]
  rcases until_semicolon_split 0 tail with ⟨all, _⟩ | ⟨semicolon, back, all, kind, cut⟩
  · exact ⟨front, untilSemicolon 0 tail, [], expr, by simpa [← all] using split, .inl rfl, here,
      read, dataset⟩
  · obtain rfl : back = [] := single _ split _ cut
    refine ⟨front, untilSemicolon 0 tail, [semicolon], expr, ?_, .inr ⟨semicolon, rfl, kind⟩, here,
      read, dataset⟩
    rw [← all]
    exact split

def oneStatement : String :=
  "SELECT * FROM t WHERE a = 'x' AND EXISTS (SELECT ; FROM e WHERE b = 'y');"

theorem one_statement_accounted :
    ∃ front body last expr,
      splitOuter (.keyword .WHERE) 0 (tokenize (normalizeStatement oneStatement)) =
        some (front, body ++ last) ∧
      (last = [] ∨ ∃ semicolon, last = [semicolon] ∧ semicolon.kind = .mark .semicolon) ∧
      condition? oneStatement = some expr ∧ readExpr body = some (expr, []) ∧
      ∀ before behind name after,
        splitOuter (.keyword .FROM) 0 (tokenize (normalizeStatement oneStatement)) =
          some (before, behind) →
        readName behind = some (name, after) →
          (Recovered.ofStatement oneStatement).dataset = some name := by
  have kept : (Recovered.ofStatement oneStatement).dropped = [] := by
    rw [Recovered.ofStatement, tokenize_normalized]
    decide +kernel
  have single : ∀ parts ∈ splitOuter (.keyword .WHERE) 0 (tokenize (normalizeStatement oneStatement)),
      ∀ ends ∈ splitOuter (.mark .semicolon) 0 parts.2, ends.2 = [] := by
    rw [tokenize_normalized]
    decide +kernel
  exact statement_accounted kept single

def twoStatements : String :=
  "SELECT * FROM a, b WHERE c = 'x'; DELETE FROM a"

/-- Nothing is reported of the second table and of what stands behind the first semicolon. -/
theorem two_statements_passed_over :
    (Recovered.ofStatement twoStatements).dropped = [] ∧
      (Recovered.ofStatement twoStatements).dataset = some "a" ∧
      (splitOuter (.keyword .WHERE) 0 (tokenize (normalizeStatement twoStatements))).map
          (fun parts => (kindsOf parts.1, kindsOf parts.2)) =
        some ([.keyword .SELECT, .mark .star, .keyword .FROM, .identifier "a", .mark .comma,
            .identifier "b"],
          [.identifier "c", .comparison .eq, .string "x", .mark .semicolon, .identifier "DELETE",
            .keyword .FROM, .identifier "a", .mark .semicolon]) := by
  rw [Recovered.ofStatement, tokenize_normalized]
  decide +kernel

end Cohort
