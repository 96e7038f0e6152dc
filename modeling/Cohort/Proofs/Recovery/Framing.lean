import Cohort.Proofs.Sql.Views
import Cohort.Proofs.Statement
import Cohort.Recovery

/-!
The frame of a statement: the table it selects from and the tokens of its condition.
-/

namespace Cohort

open Sql

section See

variable (view : View)

theorem depth_see (depth : Nat) (token : Token) :
    depthAfter depth (view.token token) = depthAfter depth token := by
  simp only [depthAfter, see_kind]

theorem outer_dataset_see (depth : Nat) (tokens : List Token) :
    outerDataset depth (view.see tokens) = outerDataset depth tokens := by
  induction tokens generalizing depth with
  | nil => rfl
  | cons token rest ih =>
      simp only [see_cons, outerDataset, see_kind, depth_see, ih, blind_name rest]
      cases readName rest with
      | none => rfl
      | some pair =>
          cases depth with
          | zero =>
              cases token.kind with
              | keyword word => cases word <;> rfl
              | _ => rfl
          | succ depth => rfl

theorem until_semicolon_see (depth : Nat) (tokens : List Token) :
    untilSemicolon depth (view.see tokens) = view.see (untilSemicolon depth tokens) := by
  induction tokens generalizing depth with
  | nil => rfl
  | cons token rest ih =>
      simp only [see_cons, untilSemicolon, see_kind, depth_see, ih]
      split_ifs <;> rfl

theorem where_body_see (depth : Nat) (tokens : List Token) :
    whereBody depth (view.see tokens) = (whereBody depth tokens).map view.see := by
  induction tokens generalizing depth with
  | nil => rfl
  | cons token rest ih =>
      simp only [see_cons, whereBody, see_kind, depth_see, ih, until_semicolon_see]
      split_ifs <;> rfl

end See

def depthBehind (depth : Nat) (ks : List TokenKind) : Nat :=
  ks.foldl (fun depth kind => depthAfter depth ⟨kind, [], [], 0⟩) depth

theorem outer_dataset_behind (front : List Token) (free : .keyword .FROM ∉ kindsOf front)
    (depth : Nat) (after : List Token) :
    outerDataset depth (front ++ after) =
      outerDataset (depthBehind depth (kindsOf front)) after := by
  induction front generalizing depth with
  | nil => rfl
  | cons token front ih =>
      obtain ⟨other, free⟩ := not_or.mp (List.mem_cons.not.mp free)
      rw [List.cons_append, outerDataset]
      · exact ih free (depthAfter depth token)
      · exact fun _ _ _ same _ => other same.symm

theorem where_body_behind (front : List Token) (free : .keyword .WHERE ∉ kindsOf front)
    (depth : Nat) (after : List Token) :
    whereBody depth (front ++ after) = whereBody (depthBehind depth (kindsOf front)) after := by
  induction front generalizing depth with
  | nil => rfl
  | cons token front ih =>
      obtain ⟨other, free⟩ := not_or.mp (List.mem_cons.not.mp free)
      rw [List.cons_append, whereBody, if_neg fun at_ => other at_.2.symm]
      exact ih free (depthAfter depth token)

def Recovered.ofCondition (dataset : Option String) (expr : Expr) (rest : List Token) : Recovered :=
  let surplus := (accept (.mark .semicolon) rest).2
  let trailing : List Dropped :=
    if surplus.isEmpty then [] else [⟨sourceText surplus, .trailingInput⟩]
  ⟨(recoverCriteria expr {}).1, dataset, trailing ++ (recoverCriteria expr {}).2.dropped⟩

/-- Tokens that close what they open are not cut off. -/
theorem until_semicolon_before {height : Nat} {front : List Token}
    (nested : Nested height (kindsOf front)) (depth : Nat) (back : List Token) :
    untilSemicolon depth (front ++ back) = front ++ untilSemicolon depth back := by
  generalize shape : kindsOf front = ks at nested
  induction nested generalizing depth front back with
  | nil =>
      obtain rfl : front = [] := List.map_eq_nil_iff.mp shape
      rfl
  | @flat height kind rest plain _ ih =>
      obtain ⟨token, tokens, rfl, same, shape⟩ := kinds_of_cons shape
      have open_ : token.kind ≠ .mark .semicolon := by
        rw [same]
        rintro rfl
        simp [isFlat] at plain
      have level : depthAfter depth token = depth := by
        simp only [depthAfter, same]
        cases kind with
        | mark sign => cases sign <;> simp_all [isFlat]
        | _ => rfl
      simp [untilSemicolon, open_, level, ih depth back shape]
  | @paren height height' inner rest _ _ within behind =>
      obtain ⟨opening, tokens, rfl, same, shape⟩ := kinds_of_cons shape
      obtain ⟨inside, tokens', rfl, kept, shape'⟩ := List.map_eq_append_iff.mp shape
      obtain ⟨closing, outside, rfl, same', shape''⟩ := kinds_of_cons shape'
      have up : depthAfter depth opening = depth + 1 := by simp [depthAfter, same]
      have down : depthAfter (depth + 1) closing = depth := by simp [depthAfter, same']
      have front := within (depth + 1) (closing :: (outside ++ back)) kept
      simp [untilSemicolon, same, same', up, down, front, behind depth back shape'']

def statementTokens (sql : String) : List Token :=
  let trimmed := Text.trimEnd (Text.trimStart sql.toList)
  let text := if trimmed.getLast? = some ';' then trimmed else trimmed ++ [';']
  scan text.length 0 text

/-- For evaluation: no text is put together on the way to the tokens. -/
theorem tokenize_normalized (sql : String) :
    tokenize (normalizeStatement sql) = statementTokens sql := by
  simp only [tokenize, normalizeStatement, Text.trim, String.toList_ofList]
  rfl

def statementKinds (dataset : String) (condition : List TokenKind) : List TokenKind :=
  .keyword .SELECT :: .mark .star :: .keyword .FROM :: .identifier dataset :: .keyword .WHERE ::
    (condition ++ [.mark .semicolon])

theorem outer_dataset_statement {dataset : String} {condition : List TokenKind}
    {tokens : List Token} (shape : kindsOf tokens = statementKinds dataset condition) :
    outerDataset 0 tokens = some dataset := by
  obtain ⟨select, tokens, rfl, first, shape⟩ := kinds_of_cons shape
  obtain ⟨star, tokens, rfl, second, shape⟩ := kinds_of_cons shape
  obtain ⟨from_, tokens, rfl, third, shape⟩ := kinds_of_cons shape
  obtain ⟨name, tokens, rfl, fourth, shape⟩ := kinds_of_cons shape
  simp [outerDataset, depthAfter, readName, first, second, third, fourth]

theorem where_body_statement {dataset : String} {height : Nat} {condition : List TokenKind}
    (nested : Nested height condition) {tokens : List Token}
    (shape : kindsOf tokens = statementKinds dataset condition) :
    ∃ body, whereBody 0 tokens = some body ∧ kindsOf body = condition := by
  obtain ⟨select, tokens, rfl, first, shape⟩ := kinds_of_cons shape
  obtain ⟨star, tokens, rfl, second, shape⟩ := kinds_of_cons shape
  obtain ⟨from_, tokens, rfl, third, shape⟩ := kinds_of_cons shape
  obtain ⟨name, tokens, rfl, fourth, shape⟩ := kinds_of_cons shape
  obtain ⟨where_, tokens, rfl, fifth, shape⟩ := kinds_of_cons shape
  obtain ⟨front, back, rfl, kept, behind⟩ := List.map_eq_append_iff.mp shape
  obtain ⟨semicolon, rest, rfl, last, _⟩ := kinds_of_cons behind
  have cut := @until_semicolon_before _ front (by rwa [kindsOf, kept]) 0 (semicolon :: rest)
  refine ⟨front, ?_, kept⟩
  simp [whereBody, depthAfter, first, second, third, fourth, fifth, cut, untilSemicolon, last]

section Statements

variable {source : EventSource} {dataset : String} {criteria : Criteria}

theorem statement_normalized (source : EventSource) (dataset : String) (criteria : Criteria) :
    normalizeStatement (criteria.statement source dataset) = criteria.statement source dataset := by
  obtain ⟨trimmed, last⟩ := statement_ends source dataset criteria
  simp [normalizeStatement, Text.trim_trimmed trimmed, last]

theorem statement_shape {ks : List TokenKind} (plain : IsPlain dataset)
    (writes : Writes (criteria.whereClause source dataset) ks) :
    kindsOf (tokenize (criteria.statement source dataset)) = statementKinds dataset ks := by
  have select : Closed "SELECT * FROM " [.keyword .SELECT, .mark .star, .keyword .FROM] :=
    closed_text (by decide) rfl
  have where_ : Closed " WHERE " [.keyword .WHERE] := closed_text (by decide) rfl
  have ends : Writes ";" [.mark .semicolon] := writes_text (by decide) rfl
  have written := (((select.then (writes_name plain)).close where_ (opens_text (by decide))).then
    writes).append ends (opens_text (by decide)).separates
  rw [statement_text, written.kinds_eq]
  simp [statementKinds]

/-- Only the condition of a statement has parentheses. -/
theorem statement_nesting {expr : Expr} (plain : IsPlain dataset)
    (denotes : Denotes (criteria.whereClause source dataset) expr) :
    nesting (criteria.statement source dataset) =
      nesting (criteria.whereClause source dataset) := by
  obtain ⟨_, ks, writes, nested, _, _⟩ := denotes
  rw [nesting, nesting, statement_shape plain writes, writes.kinds_eq, nested.deepest_alone,
    statementKinds]
  simpa [deepest] using nested.deepest 0 [.mark .semicolon]

/-- A statement is taken apart into its table and the condition that its clause denotes. -/
theorem of_statement {expr : Expr} (plain : IsPlain dataset)
    (denotes : Denotes (criteria.whereClause source dataset) expr)
    (shallow : nesting (criteria.whereClause source dataset) ≤ maxNesting) :
    Recovered.ofStatement (criteria.statement source dataset) =
      ⟨((recoverCriteria expr).run {}).1, some dataset,
        ((recoverCriteria expr).run {}).2.dropped⟩ := by
  obtain ⟨parsed, ks, writes, nested, some_, reads⟩ := denotes
  have shape := statement_shape plain writes
  obtain ⟨body, found, kept⟩ := where_body_statement nested shape
  have read : readExpr body = some (expr, []) :=
    Denotes.read ⟨parsed, ks, writes, nested, some_, reads⟩ shallow
      (by rw [kept, writes.kinds_eq])
  simp only [Recovered.ofStatement, statement_normalized, outer_dataset_statement shape, found, read]
  rfl

end Statements

/-- Of a statement of which nothing is dropped, there is a condition, it is read to its end, and
nothing of it is dropped. -/
theorem nothing_dropped {sql : String} (kept : (Recovered.ofStatement sql).dropped = []) :
    ∃ body expr rest,
      whereBody 0 (tokenize (normalizeStatement sql)) = some body ∧
      readExpr body = some (expr, rest) ∧ (accept (.mark .semicolon) rest).2 = [] ∧
      (recoverCriteria expr {}).2.dropped = [] ∧
      Recovered.ofStatement sql =
        ⟨(recoverCriteria expr {}).1, outerDataset 0 (tokenize (normalizeStatement sql)), []⟩ := by
  simp only [Recovered.ofStatement] at kept ⊢
  cases found : whereBody 0 (tokenize (normalizeStatement sql)) with
  | none => simp [found, nothingRecovered] at kept
  | some body =>
      cases read : readExpr body with
      | none => simp [found, read, nothingRecovered] at kept
      | some result =>
          obtain ⟨expr, rest⟩ := result
          simp only [found, read] at kept ⊢
          obtain ⟨trailing, lost⟩ := List.append_eq_nil_iff.mp kept
          refine ⟨body, expr, rest, rfl, read, ?_, lost, ?_⟩
          · by_contra surplus
            simp [surplus] at trailing
          · rw [trailing]
            exact congrArg (Recovered.mk _ _) lost

end Cohort
