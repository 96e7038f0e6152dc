import Cohort.Proofs.Sql.Reprinting

/-!
The tokens of printed expressions. What the printer writes of an expression of plain names is
scanned as tokens that can be told from the expression alone.
-/

namespace Cohort.Sql

open Text (quoteMark)

def IsUnquoted (text : String) : Prop :=
  quoteMark ∉ text.toList

/-- The tokens of a number; a minus in front of it is one of its own. -/
def numberKinds (text : String) : List TokenKind :=
  match text.toList with
  | '-' :: digits => [.mark .minus, .number (String.ofList digits)]
  | _ => [.number text]

mutual

def Operand.kinds : Operand → List TokenKind
  | .column c => c.kinds
  | .string text => [.string (String.ofList (Text.doubleQuotes text.toList))]
  | .number text => numberKinds text
  | .null => [.keyword .NULL]
  | .star => [.mark .star]
  | .interval text => [.keyword .INTERVAL, .string text]
  | .call name args =>
      [.identifier name] ++ [.mark .lparen] ++ separated (.mark .comma) (Operand.kindsAll args) ++
        [.mark .rparen]
  | .sum left sign right => left.kinds ++ [.mark sign.mark] ++ right.kinds

def Operand.kindsAll : List Operand → List (List TokenKind)
  | [] => []
  | operand :: rest => operand.kinds :: Operand.kindsAll rest

end

theorem print_operands (operands : List Operand) :
    Operand.printAll operands = operands.map Operand.print := by
  induction operands with
  | nil => rfl
  | cons operand rest ih => rw [Operand.printAll, ih, List.map_cons]

theorem kinds_operands (operands : List Operand) :
    Operand.kindsAll operands = operands.map Operand.kinds := by
  induction operands with
  | nil => rfl
  | cons operand rest ih => rw [Operand.kindsAll, ih, List.map_cons]

theorem writes_number {text : String}
    (number : ∃ digits : String,
      numeral digits.toList = true ∧ (text = digits ∨ text = "-" ++ digits)) :
    Writes text (numberKinds text) := by
  obtain ⟨digits, plain, rfl | rfl⟩ := number
  · have same : numberKinds text = [.number text] := by
      rw [numberKinds]
      split
      · next rest shape =>
          rw [shape] at plain
          revert plain
          simp [numeral]
      · rfl
    rw [same]
    exact writes_numeral plain
  · have shape : ("-" ++ digits).toList = '-' :: digits.toList := by simp
    rw [numberKinds, shape]
    exact writes_negative plain shape

theorem column_sound {column : Column} (built : column.Built TokenKind.IsSound) :
    ∀ kind ∈ column.kinds, kind.IsSound := by
  obtain ⟨_ | table, name⟩ := column
  · simpa [Column.kinds] using built.2
  · have sound := built.1 table rfl
    simpa [Column.kinds, columnKinds, TokenKind.IsSound, sound] using
      And.intro sound built.2

theorem writes_operands {operands : List Operand}
    (each : ∀ operand ∈ operands, Writes operand.print operand.kinds) :
    Writes (printOperands operands) (separated (.mark .comma) (Operand.kindsAll operands)) := by
  have comma : Closed ", " [.mark .comma] := closed_text (by decide) rfl
  rw [printOperands, print_operands, kinds_operands]
  refine writes_separated comma (opens_text (by decide)) ?_
  rw [List.forall₂_map_left_iff, List.forall₂_map_right_iff, List.forall₂_same]
  exact each

theorem writes_operand {operand : Operand}
    (built : operand.Built TokenKind.IsSound IsUnquoted) : Writes operand.print operand.kinds := by
  have opening : Closed "(" [.mark .lparen] := closed_text (by decide) rfl
  have closing : Closed ")" [.mark .rparen] := closed_text (by decide) rfl
  induction operand using Operand.induction with
  | column column => exact writes_column_kinds (column_sound built)
  | string text => exact writes_literal text
  | number text => exact writes_number built
  | null => exact writes_text (by decide) rfl
  | star => exact writes_text (by decide) rfl
  | interval text => exact writes_interval built
  | call name args ih =>
      obtain ⟨plain, each⟩ := built
      rw [operands_built] at each
      have front := (writes_name plain).close opening (opens_text (by decide))
      have inner := front.then (writes_operands fun arg found => ih arg found (each arg found))
      exact (inner.close closing (opens_text (by decide))).writes
  | sum left sign right ihLeft ihRight =>
      obtain ⟨first, second, -⟩ := built
      have front := (ihLeft first).close (closed_sign sign) (opens_spaced _)
      simpa [Operand.print, Operand.kinds, String.append_assoc] using front.then (ihRight second)

def negationKinds (negated : Bool) : List TokenKind :=
  if negated then [.keyword .NOT] else []

def Predicate.kinds : Predicate → List TokenKind
  | .compare left op right => left.kinds ++ [.comparison op] ++ right.kinds
  | .between target low high negated =>
      target.kinds ++ negationKinds negated ++ [.keyword .BETWEEN] ++ low.kinds ++
        [.keyword .AND] ++ high.kinds
  | .like target pattern negated =>
      target.kinds ++ negationKinds negated ++ [.keyword .LIKE] ++ pattern.kinds
  | .isNull target negated =>
      target.kinds ++ [.keyword .IS] ++ negationKinds negated ++ [.keyword .NULL]
  | .oneOf target values negated =>
      target.kinds ++ negationKinds negated ++ [.keyword .IN, .mark .lparen] ++
        separated (.mark .comma) (Operand.kindsAll values) ++ [.mark .rparen]
  | .bare operand => operand.kinds
  | .unparsed _ => []

def Predicate.Normal (predicate : Predicate) : Prop :=
  predicate.isParsed = true ∧
    ∀ operand ∈ predicate.operands, operand.Built TokenKind.IsSound IsUnquoted

theorem closed_negation (negated : Bool) : Closed (negation negated) (negationKinds negated) := by
  cases negated with
  | false => exact fun after => rfl
  | true => exact closed_text (by decide) rfl

theorem writes_predicate {predicate : Predicate} (normal : predicate.Normal) :
    Writes predicate.print predicate.kinds := by
  obtain ⟨parsed, built⟩ := normal
  have each : ∀ operand ∈ predicate.operands, Writes operand.print operand.kinds :=
    fun operand found => writes_operand (built operand found)
  have blank : Closed " " [] := closed_text (by decide) rfl
  -- A target with the word that may stand behind it.
  have front {target : Operand} (negated : Bool) (writes : Writes target.print target.kinds) :
      Closed (target.print ++ " " ++ negation negated) (target.kinds ++ negationKinds negated) := by
    simpa using (writes.close blank (opens_text (by decide))).append (closed_negation negated)
  cases predicate with
  | compare left op right =>
      have first := (each left (by simp [Predicate.operands])).close (closed_comparison op)
        (opens_spaced _)
      simpa [Predicate.print, Predicate.kinds, String.append_assoc] using
        first.then (each right (by simp [Predicate.operands]))
  | between target low high negated =>
      have between : Closed "BETWEEN " [.keyword .BETWEEN] := closed_text (by decide) rfl
      have and_ : Closed " AND " [.keyword .AND] := closed_text (by decide) rfl
      have first := (front negated (each target (by simp [Predicate.operands]))).append between
      have second := (first.then (each low (by simp [Predicate.operands]))).close and_
        (opens_text (by decide))
      exact second.then (each high (by simp [Predicate.operands]))
  | like target pattern negated =>
      have like : Closed "LIKE " [.keyword .LIKE] := closed_text (by decide) rfl
      have first := (front negated (each target (by simp [Predicate.operands]))).append like
      exact first.then (each pattern (by simp [Predicate.operands]))
  | isNull target negated =>
      have is_ : Closed " IS " [.keyword .IS] := closed_text (by decide) rfl
      have null : Writes "NULL" [.keyword .NULL] := writes_text (by decide) rfl
      have first := (each target (by simp [Predicate.operands])).close is_ (opens_text (by decide))
      exact (first.append (closed_negation negated)).then null
  | oneOf target values negated =>
      have in_ : Closed "IN (" [.keyword .IN, .mark .lparen] := closed_text (by decide) rfl
      have closing : Closed ")" [.mark .rparen] := closed_text (by decide) rfl
      have first := (front negated (each target (by simp [Predicate.operands]))).append in_
      have inner := first.then (writes_operands fun value found =>
        each value (List.mem_cons_of_mem target found))
      exact (inner.close closing (opens_text (by decide))).writes
  | bare operand => exact each operand (by simp [Predicate.operands])
  | unparsed text => cases parsed

def partKinds {α : Type} (words : List TokenKind) (kinds : α → List TokenKind) :
    Option α → List TokenKind
  | some value => words ++ kinds value
  | none => []

mutual

def Expr.kinds : Expr → List TokenKind
  | .and items => separated (.keyword .AND) (Expr.kindsAll items)
  | .or items => separated (.keyword .OR) (Expr.kindsAll items)
  | .grouped inner => [.mark .lparen] ++ inner.kinds ++ [.mark .rparen]
  | .not inner => [.keyword .NOT] ++ inner.kinds
  | .exist negated query =>
      negationKinds negated ++ [.keyword .EXISTS, .mark .lparen] ++ query.kinds ++ [.mark .rparen]
  | .predicate p => p.kinds

def Expr.kindsAll : List Expr → List (List TokenKind)
  | [] => []
  | item :: rest => item.kinds :: Expr.kindsAll rest

def Subquery.kinds : Subquery → List TokenKind
  | ⟨table, joins, filter, groupBy, having⟩ =>
      queryKinds table joins
        (match filter with
          | some filter => .keyword .WHERE :: filter.kinds
          | none => [])
        (partKinds [.keyword .GROUP, .keyword .BY] Column.kinds groupBy)
        (partKinds [.keyword .HAVING] Predicate.kinds having)

end

theorem print_items (items : List Expr) : Expr.printAll items = items.map Expr.print := by
  induction items with
  | nil => rfl
  | cons item rest ih => rw [Expr.printAll, ih, List.map_cons]

theorem kinds_items (items : List Expr) : Expr.kindsAll items = items.map Expr.kinds := by
  induction items with
  | nil => rfl
  | cons item rest ih => rw [Expr.kindsAll, ih, List.map_cons]

theorem query_kinds (query : Subquery) :
    query.kinds = queryKinds query.table query.joins
      (partKinds [.keyword .WHERE] Expr.kinds query.filter)
      (partKinds [.keyword .GROUP, .keyword .BY] Column.kinds query.groupBy)
      (partKinds [.keyword .HAVING] Predicate.kinds query.having) := by
  obtain ⟨table, joins, _ | filter, groupBy, having⟩ := query <;> rfl

theorem writes_items {word : String} {separator : Keyword}
    (closed : Closed word [.keyword separator]) (opens : Opens word) {items : List Expr}
    (each : ∀ item ∈ items, Writes item.print item.kinds) :
    Writes (word.intercalate (Expr.printAll items))
      (separated (.keyword separator) (Expr.kindsAll items)) := by
  rw [print_items, kinds_items]
  refine writes_separated closed opens ?_
  rw [List.forall₂_map_left_iff, List.forall₂_map_right_iff, List.forall₂_same]
  exact each

theorem join_sound {join : Join} (built : join.Built TokenKind.IsSound) :
    ∀ kind ∈ join.kinds, kind.IsSound := by
  obtain ⟨table, left, right⟩ := built
  simp only [Join.kinds, List.mem_append, List.mem_cons, List.not_mem_nil, or_false]
  rintro kind ((((((rfl | rfl) | rfl) | rfl) | found) | rfl) | found)
  · trivial
  · trivial
  · exact table
  · trivial
  · exact column_sound left kind found
  · trivial
  · exact column_sound right kind found

theorem writes_joins {joins : List Join} (built : ∀ join ∈ joins, join.Built TokenKind.IsSound) :
    Writes (String.join (joins.map Join.print)) (joins.flatMap Join.kinds) ∧
      Separates (String.join (joins.map Join.print)) := by
  induction joins with
  | nil => exact ⟨writes_empty, separates_empty⟩
  | cons join rest ih =>
      obtain ⟨others, apart⟩ := ih fun other found => built other (List.mem_cons_of_mem join found)
      have first := writes_join (join_sound (built join List.mem_cons_self))
      rw [List.map_cons, String.join_cons, List.flatMap_cons]
      exact ⟨first.append others apart, ((opens_join join).append _).separates⟩

theorem writes_part {α : Type} {word : String} {words : List TokenKind} {print : α → String}
    {kinds : α → List TokenKind} (closed : Closed word words)
    (opens : word.toList.head?.any isSeparator = true) {part : Option α}
    (each : ∀ value ∈ part, Writes (print value) (kinds value)) :
    Writes (optionally word print part) (partKinds words kinds part) ∧
      Separates (optionally word print part) := by
  cases part with
  | none => exact ⟨writes_empty, separates_empty⟩
  | some value =>
      exact ⟨closed.then (each value rfl), ((opens_text opens).append _).separates⟩

theorem writes_query {query : Subquery} (built : query.Built TokenKind.IsSound Predicate.Normal)
    (filters : ∀ filter ∈ query.filter, Writes filter.print filter.kinds) :
    Writes query.print query.kinds := by
  obtain ⟨table, joined, -, grouped, counted⟩ := query_built.mp built
  have opening : Closed "SELECT 1 FROM " [.keyword .SELECT, .number "1", .keyword .FROM] :=
    closed_text (by decide) rfl
  have where_ : Closed " WHERE " [.keyword .WHERE] := closed_text (by decide) rfl
  have group : Closed " GROUP BY " [.keyword .GROUP, .keyword .BY] := closed_text (by decide) rfl
  have having_ : Closed " HAVING " [.keyword .HAVING] := closed_text (by decide) rfl
  obtain ⟨joins, apart⟩ := writes_joins joined
  obtain ⟨filter, apart'⟩ := writes_part where_ (by decide) filters
  obtain ⟨groups, apart''⟩ := writes_part group (by decide) fun column found =>
    writes_column_kinds (column_sound (grouped column found))
  obtain ⟨compares, last⟩ := writes_part having_ (by decide) fun p found =>
    writes_predicate (counted p found)
  have source := (opening.then (writes_name table)).append joins apart
  have whole := ((source.append filter apart').append groups apart'').append compares last
  rw [subquery_print, query_kinds]
  simpa [queryKinds, List.append_assoc] using whole

/-- A normal expression is written as its tokens. -/
theorem writes_expr {expr : Expr} (built : expr.Built TokenKind.IsSound Predicate.Normal) :
    Writes expr.print expr.kinds := by
  have opening : Closed "(" [.mark .lparen] := closed_text (by decide) rfl
  have closing : Closed ")" [.mark .rparen] := closed_text (by decide) rfl
  induction expr using Expr.induction_within with
  | and items ih =>
      obtain ⟨-, each, -⟩ := built
      rw [items_built] at each
      exact writes_items (closed_text (by decide) rfl) (opens_text (by decide)) fun item found =>
        ih item found (each item found)
  | or items ih =>
      obtain ⟨-, each, -⟩ := built
      rw [items_built] at each
      exact writes_items (closed_text (by decide) rfl) (opens_text (by decide)) fun item found =>
        ih item found (each item found)
  | grouped inner ih =>
      exact ((opening.then (ih built)).close closing (opens_text (by decide))).writes
  | not inner ih =>
      have not_ : Closed "NOT " [.keyword .NOT] := closed_text (by decide) rfl
      exact not_.then (ih built.1)
  | exist negated query ih =>
      have exists_ : Closed "EXISTS (" [.keyword .EXISTS, .mark .lparen] :=
        closed_text (by decide) rfl
      have filtered := (query_built.mp built).2.2.1
      have inner := writes_query built fun filter found => ih filter found (filtered filter found)
      have front := ((closed_negation negated).append exists_).then inner
      exact (front.close closing (opens_text (by decide))).writes
  | predicate p => exact writes_predicate built

end Cohort.Sql
