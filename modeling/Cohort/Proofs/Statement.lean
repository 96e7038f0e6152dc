import Cohort.Proofs.Clause.Event
import Cohort.Proofs.Text.Words
import Cohort.Proofs.Condition
import Cohort.Statement

/-!
The condition of a statement is read back as the tree it was written for.
-/

namespace Cohort

open Sql

def Condition.expr? (source : EventSource) (table : String) : Condition → Option Expr
  | .filter f => f.expr? table
  | .event e => e.expr? source table

mutual

def Member.expr? (source : EventSource) (table : String) : Member → Option Expr
  | .condition c => c.expr? source table
  | .group g => g.expr? source table

def Group.expr? (source : EventSource) (table : String) : Group → Option Expr
  | ⟨_, combinator, members⟩ => foldExprs combinator (Member.exprs source table members)

def Member.exprs (source : EventSource) (table : String) : List Member → List (Option Expr)
  | [] => []
  | member :: rest => member.expr? source table :: Member.exprs source table rest

end

def matchAllExpr : Expr :=
  .predicate (.compare (.number "1") .eq (.number "1"))

/-- The expression that mirrors a tree. -/
def Criteria.expr (source : EventSource) (table : String) (criteria : Criteria) : Expr :=
  (foldExprs criteria.combinator
    (criteria.conditions.map (Condition.expr? source table)
      ++ criteria.groups.map (Group.expr? source table))).getD matchAllExpr

structure Condition.Readable (condition : Condition) : Prop where
  named : condition.Named IsPlain
  filters : ∀ filter ∈ condition.filters, filter.Readable

instance : DecidablePred Condition.Readable := fun condition =>
  decidable_of_iff
    (condition.Named IsPlain ∧ ∀ filter ∈ condition.filters, filter.Readable)
    ⟨fun parts => ⟨parts.1, parts.2⟩, fun whole => ⟨whole.named, whole.filters⟩⟩

theorem exprs_map (source : EventSource) (table : String) (members : List Member) :
    Member.exprs source table members = members.map (Member.expr? source table) := by
  induction members with
  | nil => rfl
  | cons member rest ih => simp [Member.exprs, ih]

section Trees

variable {source : EventSource} (plain : source.Plain) {table : String} (tablePlain : IsPlain table)

include plain tablePlain in
theorem condition_mirrors {condition : Condition} (readable : condition.Readable) :
    Mirrors (condition.clause source table) (condition.expr? source table) := by
  cases condition with
  | filter f =>
      exact filter_mirrors tablePlain readable.named
        (readable.filters f (by simp [Condition.filters])).legible
  | event e => exact event_mirrors plain tablePlain ⟨readable.named, readable.filters⟩

include plain tablePlain in
theorem member_mirrors (member : Member) (readable : ∀ c ∈ member.leaves, c.Readable) :
    Mirrors (member.clause source table) (member.expr? source table) := by
  induction member using Member.induction with
  | condition c => exact condition_mirrors plain tablePlain (readable c (by simp [Member.leaves]))
  | group id combinator members ih =>
      refine fold_mirrors combinator ?_
      rw [clauses_map, exprs_map, List.forall₂_map_left_iff, List.forall₂_map_right_iff,
        List.forall₂_same]
      intro member found
      refine ih member found fun c leaf => readable c ?_
      simp only [Member.leaves, Group.leaves]
      exact Member.mem_leaves_of.mpr ⟨member, found, leaf⟩

theorem match_all_denotes : Denotes matchAll matchAllExpr := by
  have one : ∀ room, Reads (readOperand room) [.number "1"] (.number "1") endsOperand := fun room =>
    reads_operand
      ((reads_term_within (fun args => reads_term_number args "1") room).weaken fun _ _ => rfl)
  have writes : Writes matchAll [.number "1", .comparison .eq, .number "1"] :=
    writes_text (by decide) rfl
  have nested : Nested 0 [.number "1", .comparison .eq, .number "1"] :=
    nested_flat (by simp [isFlat])
  refine (denotes_predicate writes nested rfl rfl rfl fun room _ => ?_).denotes
  exact (reads_predicate (one room) (by simp [endsOperand]) (by simp)
    (reads_compare .eq (one room))).weaken fun _ => fragment_ends_operand

include plain tablePlain in
theorem where_clause_denotes {criteria : Criteria}
    (readable : ∀ c ∈ criteria.leaves, c.Readable) :
    Denotes (criteria.whereClause source table) (criteria.expr source table) := by
  have conditions : List.Forall₂ Mirrors (criteria.conditions.map (Condition.clause source table))
      (criteria.conditions.map (Condition.expr? source table)) := by
    rw [List.forall₂_map_left_iff, List.forall₂_map_right_iff, List.forall₂_same]
    exact fun c found => condition_mirrors plain tablePlain
      (readable c (List.mem_append_left _ found))
  have groups : List.Forall₂ Mirrors (criteria.groups.map (Group.clause source table))
      (criteria.groups.map (Group.expr? source table)) := by
    rw [List.forall₂_map_left_iff, List.forall₂_map_right_iff, List.forall₂_same]
    intro group found
    refine member_mirrors plain tablePlain (.group group) fun c leaf => readable c ?_
    exact List.mem_append_right _ (List.mem_flatMap.mpr ⟨group, found, leaf⟩)
  have whole := fold_mirrors criteria.combinator (List.rel_append conditions groups)
  simp only [Criteria.whereClause, Criteria.expr]
  generalize foldClauses criteria.combinator _ = text at whole ⊢
  generalize foldExprs criteria.combinator _ = expr? at whole ⊢
  cases expr? with
  | none =>
      have empty : text = "" := whole
      subst empty
      exact match_all_denotes
  | some expr =>
      have denotes : Denotes text expr := whole
      have some_ : text.isEmpty = false := by
        by_contra empty
        have none_ : text = "" := by simpa using empty
        have filled := denotes.not_blank
        simp [none_, Text.isBlankText] at filled
      simpa [some_] using denotes

end Trees

theorem framed_ends (dataset clause : String) :
    let text := "SELECT * FROM " ++ dataset ++ " WHERE " ++ clause ++ ";"
    Text.IsTrimmed text ∧ text.toList.getLast? = some ';' := by
  intro text
  have shape : text.toList =
      'S' :: ("ELECT * FROM ".toList ++ dataset.toList ++ " WHERE ".toList ++ clause.toList
        ++ [';']) := by
    simp [text]
  have last : text.toList.getLast? = some ';' := by
    rw [shape, ← List.cons_append, List.getLast?_concat]
  refine ⟨⟨by simp [shape], ?_, ?_⟩, last⟩
  · have first : Text.isBlank 'S' = false := by decide
    simpa [shape] using first
  · have semicolon : Text.isBlank ';' = false := by decide
    simpa [last] using semicolon

/-- Nothing is trimmed off a statement. -/
theorem statement_text (source : EventSource) (dataset : String) (criteria : Criteria) :
    criteria.statement source dataset =
      "SELECT * FROM " ++ dataset ++ " WHERE " ++ criteria.whereClause source dataset ++ ";" :=
  Text.trim_trimmed (framed_ends dataset _).1

theorem statement_ends (source : EventSource) (dataset : String) (criteria : Criteria) :
    Text.IsTrimmed (criteria.statement source dataset) ∧
      (criteria.statement source dataset).toList.getLast? = some ';' := by
  rw [statement_text]
  exact framed_ends dataset _

/-- The parentheses of what a text denotes are those of the text. -/
theorem Denotes.nesting_eq {text : String} {expr : Expr} (denotes : Denotes text expr) :
    nesting text = expr.levels := by
  obtain ⟨_, ks, writes, nested, _, _⟩ := denotes
  rw [nesting, writes.kinds_eq, nested.deepest_alone]

theorem DenotesAs.nesting_le {limit : Nat} {text : String} {post : Expr → Prop}
    (denotes : DenotesAs limit text post) : nesting text ≤ limit := by
  obtain ⟨ks, writes, ⟨height, low, nested⟩, _, _⟩ := denotes
  rwa [nesting, writes.kinds_eq, nested.deepest_alone]

/-- What a text is read as if its parentheses do not nest too deep. -/
theorem DenotesAs.read {limit : Nat} {text : String} {post : Expr → Prop}
    (denotes : DenotesAs limit text post) (low : limit ≤ maxNesting) {tokens : List Token}
    (same : kindsOf tokens = kindsOf (tokenize text)) :
    ∃ expr, readExpr tokens = some (expr, []) ∧ post expr := by
  obtain ⟨ks, writes, _, some_, reads⟩ := denotes
  rw [writes.kinds_eq] at same
  obtain ⟨expr, rest, read, none_, holds⟩ :=
    reads maxNesting low tokens [] (by simpa using same) (by simp)
  have empty : rest = [] := by simpa [kindsOf] using none_
  refine ⟨expr, ?_, holds⟩
  cases tokens with
  | nil => exact absurd same.symm some_
  | cons token tokens => simpa [readExpr, empty] using read

/-- What a text denotes is read off its tokens, if its parentheses do not nest too deep. -/
theorem Denotes.read {text : String} {expr : Expr} (denotes : Denotes text expr)
    (shallow : nesting text ≤ maxNesting) {tokens : List Token}
    (same : kindsOf tokens = kindsOf (tokenize text)) : readExpr tokens = some (expr, []) := by
  rw [denotes.nesting_eq] at shallow
  obtain ⟨_, read, rfl⟩ := (denotes.as le_rfl).read shallow same
  exact read

/-- The parser reads the condition of a statement as the tree it was written for. -/
theorem where_clause_reads_back {source : EventSource} (plain : source.Plain) {table : String}
    (tablePlain : IsPlain table) {criteria : Criteria}
    (readable : ∀ condition ∈ criteria.leaves, condition.Readable)
    (shallow : nesting (criteria.whereClause source table) ≤ maxNesting) :
    readExpr (tokenize (criteria.whereClause source table)) =
        some (criteria.expr source table, []) ∧
      ∀ predicate ∈ (criteria.expr source table).everyPredicate, predicate.isParsed = true := by
  have denotes := where_clause_denotes plain tablePlain readable
  exact ⟨denotes.read shallow rfl, denotes.1⟩

def samplePurchase : Event where
  id := 3
  columnKey := "buyer"
  relatedColKey := "key"
  eventType := .performed
  frequency := some .atLeast
  count := 2
  timeValue := some 2
  timePeriod := some "month's"
  filterCombinator := .and
  filters := [.filter ⟨4, "shop", .startsWith, .string "50%';--", none⟩]
  combinator := .and
  related := [⟨5, "items", "item", [], .or,
    [⟨6, "tags", .containsAll, .array [.string "a", .string "b"], none⟩,
      ⟨7, "price", .between, .number (.int (-1)), some (.number (.int 9))⟩]⟩]

def sampleTree : Criteria where
  conditions := [.filter ⟨1, "seen", .relativeDaysAgo, .number (.int 30), none⟩]
  groups := [⟨2, .or, [.condition (.event samplePurchase),
    .group ⟨8, .and, [.condition (.filter ⟨9, "vip", .equals, .bool true, none⟩)]⟩]⟩]

/-- The sample holds a quote in a literal, nested folds, a window and a joined table. -/
theorem where_clause_reads_back_sample :
    readExpr (tokenize (sampleTree.whereClause {} "customers")) =
        some (sampleTree.expr {} "customers", []) ∧
      ∀ predicate ∈ (sampleTree.expr {} "customers").everyPredicate, predicate.isParsed = true := by
  have plain : EventSource.Plain {} := ⟨by decide, by decide⟩
  have customers : IsPlain "customers" := by decide
  have readable : ∀ condition ∈ sampleTree.leaves, condition.Readable := by decide +kernel
  have shallow : (sampleTree.expr {} "customers").levels ≤ maxNesting := by decide +kernel
  exact where_clause_reads_back plain customers readable
    ((where_clause_denotes plain customers readable).nesting_eq ▸ shallow)

end Cohort
