import Cohort.Proofs.Clause.Filter
import Cohort.Proofs.Condition

/-!
What the clauses of events denote: a sub-query on the table of events, with the tie to the outer row
in front of the filters.
-/

namespace Cohort

open Sql

def spanText (value : Int) (period : String) : String :=
  String.ofList (Json.intText value) ++ " " ++ period

def startOf (value : Int) (period : String) : Operand :=
  .sum (.call "NOW" []) .minus (.interval (spanText value period))

def Frequency.op? : Frequency → Option Comparison
  | atLeast => some .ge
  | exactly => some .eq
  | atMost => some .le
  | unknown => none

def Related.expr? (related : Related) : Option Expr :=
  foldExprs related.combinator (related.filters.map (Filter.expr? related.dataset))

namespace Event

def windowExpr (source : EventSource) (value : Int) (period : String) : Predicate :=
  .compare (.column ⟨some source.table, source.timestampColumn⟩) .ge (startOf value period)

def correlationExpr (source : EventSource) (outer : String) (event : Event) : Expr :=
  let tie : Predicate :=
    .compare (.column ⟨some source.table, event.columnKey⟩) .eq
      (.column ⟨some outer, event.relatedColKey⟩)
  match event.window? with
  | some (value, period) => .and [.predicate tie, .predicate (windowExpr source value period)]
  | none => .predicate tie

def filterExpr? (source : EventSource) (event : Event) : Option Expr :=
  foldExprs event.filterCombinator
    ((event.filters.filterMap Condition.filter?).map (Filter.expr? source.table))

def selectionExpr? (source : EventSource) (outer : String) (event : Event) : Option Expr :=
  foldExprs .and
    (some (event.correlationExpr source outer) :: event.filterExpr? source
      :: event.joinable.map Related.expr?)

def countExpr? (event : Event) : Option Predicate :=
  (event.frequency.bind Frequency.op?).map fun op =>
    .compare (.call "COUNT" [.star]) op (.number (Decimal.numberText event.count))

def timeExpr? (source : EventSource) (aggregate : String) (event : Event) : Option Predicate :=
  event.window?.map fun (value, period) =>
    .compare (.call aggregate [.column ⟨some source.table, source.timestampColumn⟩]) .ge
      (startOf value period)

def query (source : EventSource) (outer : String) (event : Event) (groupBy : Option Column)
    (having : Option Predicate) : Subquery where
  table := source.table
  joins := event.joinable.map fun related =>
    Join.onKey source.table related.dataset related.joinKey
  filter := event.selectionExpr? source outer
  groupBy := groupBy
  having := having

def expr? (source : EventSource) (outer : String) (event : Event) : Option Expr :=
  let grouped := event.query source outer (some ⟨some source.table, event.columnKey⟩)
  match event.eventType with
  | .performed => some (.exist false (grouped event.countExpr?))
  | .notPerformed => some (.exist true (event.query source outer none none))
  | .firstTime => some (.exist false (grouped (event.timeExpr? source "MIN")))
  | .lastTime => some (.exist false (grouped (event.timeExpr? source "MAX")))
  | .unknown => none

end Event

structure EventSource.Plain (source : EventSource) : Prop where
  table : IsPlain source.table
  timestampColumn : IsPlain source.timestampColumn

structure Event.Readable (event : Event) : Prop where
  named : event.Named IsPlain
  filters : ∀ filter ∈ (Condition.event event).filters, filter.Readable

theorem Event.Readable.own {event : Event} (readable : event.Readable) :
    ∀ filter ∈ event.filters.filterMap Condition.filter?, filter.Readable :=
  fun filter member => readable.filters filter (List.mem_append_left _ member)

theorem Event.Readable.related {event : Event} (readable : event.Readable) {related : Related}
    (joined : related ∈ event.joinable) : ∀ filter ∈ related.filters, filter.Readable :=
  fun filter member => readable.filters filter
    (List.mem_append_right _ (List.mem_flatMap.mpr ⟨related, joined, member⟩))

theorem int_text_no_quote (value : Int) : Text.quoteMark ∉ Json.intText value := by
  have digits : ∀ n, Text.quoteMark ∉ Decimal.digitText n := fun n member =>
    absurd (Decimal.digit_text_digits n _ member) (by decide)
  cases value with
  | ofNat n => exact digits n
  | negSucc n =>
      intro member
      rcases List.mem_cons.mp member with same | member
      · exact absurd same (by decide)
      · exact digits (n + 1) member

theorem interval_literal (value : Int) (period : String) :
    intervalLiteral value period = "INTERVAL " ++ Text.literal (spanText value period) := by
  rw [← String.toList_inj]
  have amount := Text.double_quotes_none (int_text_no_quote value)
  have blank : Text.doubleQuotes [' '] = [' '] := rfl
  simp [intervalLiteral, Text.literal, spanText, Text.double_quotes_append, amount, Text.quoteMark,
    Text.double_quotes_other (show ' ' ≠ Text.quoteMark by decide)]

def startKinds (value : Int) (period : String) : List TokenKind :=
  [.identifier "NOW", .mark .lparen, .mark .rparen, .mark .minus, .keyword .INTERVAL,
    .string (String.ofList (Text.doubleQuotes (spanText value period).toList))]

theorem writes_start (value : Int) (period : String) :
    Writes ("NOW() - " ++ intervalLiteral value period) (startKinds value period) := by
  have call : Closed "NOW() " [.identifier "NOW", .mark .lparen, .mark .rparen] :=
    closed_text (by decide) rfl
  have shape : "NOW() " ++ "- " = "NOW() - " := by decide
  have now : Closed "NOW() - " [.identifier "NOW", .mark .lparen, .mark .rparen, .mark .minus] :=
    shape ▸ call.append closed_minus
  have keyword : Closed "INTERVAL " [.keyword .INTERVAL] := closed_text (by decide) rfl
  rw [interval_literal]
  exact now.then (keyword.then (writes_literal _))

theorem since_text (text : String) :
    " >= NOW() - " ++ text = " >= " ++ ("NOW() - " ++ text) := by
  rw [← String.append_assoc]
  rfl

theorem nested_start (value : Int) (period : String) : Nested 1 (startKinds value period) :=
  .flat rfl (.paren .nil (nested_flat (by simp [isFlat])))

theorem start_reads (value : Int) (period : String) (room : Nat) (enough : 1 ≤ room) :
    Reads (readOperand room) (startKinds value period) (startOf value period) endsOperand := by
  obtain ⟨room, rfl⟩ : ∃ less, room = less + 1 := ⟨room - 1, by omega⟩
  have now : Reads (termWithin (room + 1)) [.identifier "NOW", .mark .lparen, .mark .rparen]
      (.call "NOW" []) anyKind := reads_term_call_empty (readOperand room) "NOW"
  have span := reads_term_within (fun args => reads_term_interval args
    (reads_interval_alone (spanText value period))) (room + 1)
  exact reads_sum rfl now span fun _ => operand_ends_sum

section Ties

variable {source : EventSource} (plain : source.Plain) {outer : String} (outerPlain : IsPlain outer)

include plain in
theorem window_denotes (value : Int) (period : String) :
    DenotesCondition
      (source.table ++ "." ++ source.timestampColumn ++ " >= " ++
        ("NOW() - " ++ intervalLiteral value period))
      (.predicate (Event.windowExpr source value period)) :=
  compare_denotes plain.table plain.timestampColumn (closed_text (by decide) rfl)
    (opens_text (by decide)) (writes_start value period) (nested_start value period) rfl
    (start_reads value period)

include plain outerPlain in
theorem correlation_denotes {event : Event} (named : event.Named IsPlain) :
    Denotes (event.correlation source outer) (event.correlationExpr source outer) := by
  have tie : DenotesCondition
      (source.table ++ "." ++ event.columnKey ++ " = " ++ (outer ++ "." ++ event.relatedColKey))
      (.predicate (.compare (.column ⟨some source.table, event.columnKey⟩) .eq
        (.column ⟨some outer, event.relatedColKey⟩))) :=
    compare_denotes plain.table named.columnKey (closed_text (by decide) rfl)
      (opens_text (by decide)) (writes_column outerPlain named.relatedColKey)
      (nested_column _ _ .nil) rfl fun room _ => column_reads _ _ room
  cases window : event.window? with
  | none =>
      simpa [Event.correlation, Event.correlationExpr, window, String.append_assoc] using tie.denotes
  | some span =>
      obtain ⟨value, period⟩ := span
      have both := conditions_denote .and (.cons tie (.cons (window_denotes plain value period) .nil))
        (List.cons_ne_nil _ _)
      have word : " AND " = " " ++ Combinator.and.keyword ++ " " := rfl
      simpa [Event.correlation, Event.correlationExpr, window, since_text, word, foldItems,
        Combinator.fold, String.append_assoc, String.intercalate_cons_cons] using both

theorem related_mirrors {related : Related} (named : related.Named IsPlain)
    (readable : ∀ filter ∈ related.filters, filter.Readable) :
    Mirrors related.clause related.expr? := by
  refine fold_mirrors _ ?_
  rw [List.forall₂_map_left_iff, List.forall₂_map_right_iff, List.forall₂_same]
  exact fun filter member => filter_mirrors named.dataset (named.filters filter member)
    (readable filter member).legible

include plain outerPlain in
theorem selection_denotes {event : Event} (readable : event.Readable) :
    ∃ filter, event.selectionExpr? source outer = some filter ∧
      Denotes
        (foldClauses .and (event.correlation source outer :: event.filterClause source
          :: event.joinable.map Related.clause)) filter := by
  have filters : Mirrors (event.filterClause source) (event.filterExpr? source) := by
    refine fold_mirrors _ ?_
    rw [List.forall₂_map_left_iff, List.forall₂_map_right_iff, List.forall₂_same]
    exact fun filter member => filter_mirrors plain.table
      (readable.named.filters filter member) (readable.own filter member).legible
  have related : List.Forall₂ Mirrors (event.joinable.map Related.clause)
      (event.joinable.map Related.expr?) := by
    rw [List.forall₂_map_left_iff, List.forall₂_map_right_iff, List.forall₂_same]
    exact fun related member => related_mirrors (readable.named.related related member)
      (readable.related member)
  have tie : Mirrors (event.correlation source outer)
      (some (event.correlationExpr source outer)) := correlation_denotes plain outerPlain readable.named
  have whole := fold_mirrors .and (.cons tie (.cons filters related))
  have some_ : ∃ filter, event.selectionExpr? source outer = some filter := by
    simp [Event.selectionExpr?, foldExprs, List.reduceOption_cons_of_some]
  obtain ⟨filter, found⟩ := some_
  refine ⟨filter, found, ?_⟩
  unfold Event.selectionExpr? at found
  rw [found] at whole
  exact whole

end Ties

theorem writes_joins {table : String} (plain : IsPlain table) {joins : List Related}
    (named : ∀ related ∈ joins, related.Named IsPlain) :
    Writes (String.join (joins.map (Related.join table)))
        ((joins.map fun related => (related.dataset, related.joinKey)).flatMap fun join =>
          joinKinds table join.1 join.2) ∧
      Separates (String.join (joins.map (Related.join table))) := by
  induction joins with
  | nil => exact ⟨writes_empty, separates_empty⟩
  | cons related joins ih =>
      obtain ⟨others, separates⟩ := ih fun other member =>
        named other (List.mem_cons_of_mem related member)
      have names := named related List.mem_cons_self
      have inner : Closed " INNER JOIN " [.keyword .INNER, .keyword .JOIN] :=
        closed_text (by decide) rfl
      have on : Closed " ON " [.keyword .ON] := closed_text (by decide) rfl
      have equal : Closed " = " [.comparison .eq] := closed_text (by decide) rfl
      have target := (inner.then (writes_name names.dataset)).close on (opens_text (by decide))
      have left := (target.then (writes_column plain names.joinKey)).close equal
        (opens_text (by decide))
      have whole := left.then (writes_column names.dataset names.joinKey)
      have start : Opens " INNER JOIN " := opens_text (by decide)
      have opens : Opens (Related.join table related) := by
        unfold Related.join
        simp only [String.append_assoc]
        exact start.append _
      have first : Writes (Related.join table related)
          (joinKinds table related.dataset related.joinKey) := by
        unfold Related.join
        simpa only [joinKinds, columnKinds, String.append_assoc, List.append_assoc,
          List.cons_append, List.nil_append] using whole
      rw [List.map_cons, String.join_cons]
      exact ⟨first.append others separates, (opens.append _).separates⟩

theorem nested_joins (table : String) (joins : List (String × String)) :
    Nested 0 (joins.flatMap fun join => joinKinds table join.1 join.2) := by
  induction joins with
  | nil => exact .nil
  | cons join joins ih =>
      have first : Nested 0 (joinKinds table join.1 join.2) :=
        nested_flat (by simp [joinKinds, columnKinds, isFlat])
      simpa using first.append ih

/-- A part of a sub-query that stands behind a keyword or is missing, together with its text. -/
def DenotesPart {α : Type} (keyword : Keyword) (part : Nat → Read α) (stops : TokenKind → Bool)
    (height : Nat) (text : String) (value : Option α) : Prop :=
  Separates text ∧ ∃ ks, Writes text ks ∧ Nested height ks ∧
    (∀ kind ∈ ks.head?, kind = .keyword keyword) ∧
    ∀ room, height ≤ room → Reads (readOptional keyword (part room)) ks value stops

theorem absent_denotes {α : Type} {keyword : Keyword} {part : Nat → Read α}
    {stops : TokenKind → Bool} (other : stops (.keyword keyword) = false) :
    DenotesPart keyword part stops 0 "" none := by
  refine ⟨separates_empty, [], writes_empty, .nil, by simp, fun room _ => ?_⟩
  refine (reads_absent keyword (part room)).weaken fun kind ends => ?_
  have apart : kind ≠ .keyword keyword := by
    rintro rfl
    simp [other] at ends
  simpa using apart

theorem group_denotes {table name : String} (first : IsPlain table) (second : IsPlain name) :
    DenotesPart .GROUP (fun _ => readGroupBy) (· != .keyword .GROUP) 0
      (" GROUP BY " ++ table ++ "." ++ name) (some ⟨some table, name⟩) := by
  have words : Closed " GROUP BY " [.keyword .GROUP, .keyword .BY] := closed_text (by decide) rfl
  have start : Opens " GROUP BY " := opens_text (by decide)
  have written := words.then (writes_column first second)
  simp only [String.append_assoc] at written ⊢
  refine ⟨(start.append _).separates, _, written, nested_flat (by simp [isFlat]), by simp,
    fun room _ => ?_⟩
  exact (reads_present .GROUP (reads_group_by table name)).weaken fun _ _ => rfl

def DenotesHaving (text : String) (having : Option Predicate) : Prop :=
  DenotesPart .HAVING (fun room => readPredicate (readOperand room)) (· == .mark .rparen)
    (havingLevels having) text having

theorem having_denotes {before target symbol right : String} {name : String} {op : Comparison}
    {ks ls : List TokenKind} {value value' : Operand} {height : Nat}
    (opening : Closed before [.keyword .HAVING, .identifier name, .mark .lparen])
    (start : Opens before) (argument : Writes target ks)
    (closing : Closed symbol [.mark .rparen, .comparison op]) (apart : Opens symbol)
    (compared : Writes right ls) (nested : Nested 0 ks) (nested' : Nested height ls)
    (levels : value.levels = 1) (levels' : value'.levels = height)
    (call : ∀ room, 1 ≤ room → Reads (termWithin room)
      (.identifier name :: .mark .lparen :: (ks ++ [.mark .rparen])) value anyKind)
    (reads : ∀ room, height ≤ room → Reads (readOperand room) ls value' endsOperand) :
    DenotesHaving
      (before ++ target ++ symbol ++ right) (some (.compare value op value')) := by
  have written := ((opening.then argument).close closing apart).then compared
  have highest : havingLevels (some (.compare value op value')) = max 1 height := by
    rw [← levels, ← levels']
    rfl
  have all : Nested (max 1 height)
      (.keyword .HAVING :: .identifier name :: .mark .lparen ::
        (ks ++ .mark .rparen :: (.comparison op :: ls))) :=
    .flat rfl (.flat rfl (by simpa using Nested.paren nested (.flat rfl nested')))
  rw [DenotesHaving, highest]
  refine ⟨?_, _, by simpa using written, all, by simp, fun room enough => ?_⟩
  · simp only [String.append_assoc]
    exact (start.append _).separates
  · have left := reads_operand ((call room (by omega)).weaken fun _ _ => rfl)
    have whole := reads_predicate left (by simp [endsOperand]) (by simp)
      (reads_compare op (reads room (by omega)))
    have closes : ∀ kind, (kind == TokenKind.mark .rparen) = true → endsOperand kind = true := by
      intro kind same
      rw [beq_iff_eq.mp same]
      rfl
    simpa using (reads_present .HAVING whole).weaken closes

theorem number_text_numeral (n : Nat) : numeral (Decimal.numberText n).toList = true := by
  rw [Decimal.numberText, String.toList_ofList]
  exact Decimal.numeral_digits (Decimal.digit_text_digits n) (Decimal.digit_text_some n)

theorem count_denotes (event : Event) :
    DenotesHaving event.countHaving event.countExpr? := by
  have count : Closed " HAVING COUNT(" [.keyword .HAVING, .identifier "COUNT", .mark .lparen] :=
    closed_text (by decide) rfl
  have star : Writes "*" [.mark .star] := writes_text (by decide) rfl
  have call : ∀ room, 1 ≤ room → Reads (termWithin room)
      (.identifier "COUNT" :: .mark .lparen :: ([.mark .star] ++ [.mark .rparen]))
      (.call "COUNT" [.star]) anyKind := fun room enough =>
    call_reads "COUNT" (by simp) (fun room _ => .cons (reads_operand
      ((reads_term_within reads_term_star room).weaken fun _ _ => rfl)) .nil) room enough
  have compared : ∀ (comparison : String) {symbol : String} {op : Comparison},
      " HAVING COUNT(*) " ++ comparison ++ " " = " HAVING COUNT(" ++ "*" ++ symbol →
      Closed symbol [.mark .rparen, .comparison op] → Opens symbol →
        DenotesHaving
          (" HAVING COUNT(*) " ++ comparison ++ " " ++ Decimal.numberText event.count)
          (some (.compare (.call "COUNT" [.star]) op
            (.number (Decimal.numberText event.count)))) := by
    intro comparison symbol op same closing apart
    rw [same]
    exact having_denotes count (opens_text (by decide)) star closing apart
      (writes_numeral (number_text_numeral event.count)) (nested_flat (by simp [isFlat]))
      (nested_flat (by simp [isFlat])) rfl rfl call fun room _ => reads_operand
        ((reads_term_within (fun args => reads_term_number args _) room).weaken fun _ _ => rfl)
  cases found : event.frequency with
  | none =>
      simp only [Event.countHaving, Event.countExpr?, found, Option.bind_none, Option.map_none]
      exact absent_denotes rfl
  | some frequency =>
      simp only [Event.countHaving, Event.countExpr?, found, Option.bind_some]
      cases frequency with
      | atLeast =>
          have closing : Closed ") >= " [.mark .rparen, .comparison .ge] :=
            closed_text (by decide) rfl
          exact compared ">=" rfl closing (opens_text (by decide))
      | exactly =>
          have closing : Closed ") = " [.mark .rparen, .comparison .eq] :=
            closed_text (by decide) rfl
          exact compared "=" rfl closing (opens_text (by decide))
      | atMost =>
          have closing : Closed ") <= " [.mark .rparen, .comparison .le] :=
            closed_text (by decide) rfl
          exact compared "<=" rfl closing (opens_text (by decide))
      | unknown => exact absent_denotes rfl

theorem time_denotes {source : EventSource} (plain : source.Plain) (event : Event)
    {aggregate : String} {before : String} (shape : before = " HAVING " ++ aggregate ++ "(")
    (opening : Closed before [.keyword .HAVING, .identifier aggregate, .mark .lparen])
    (start : Opens before) :
    DenotesHaving (event.timeHaving source aggregate) (event.timeExpr? source aggregate) := by
  cases window : event.window? with
  | none =>
      simp only [Event.timeHaving, Event.timeExpr?, window, Option.map_none]
      exact absent_denotes rfl
  | some span =>
      obtain ⟨value, period⟩ := span
      have closing : Closed ") >= " [.mark .rparen, .comparison .ge] := closed_text (by decide) rfl
      have call : ∀ room, 1 ≤ room → Reads (termWithin room)
          (.identifier aggregate :: .mark .lparen ::
            (columnKinds source.table source.timestampColumn ++ [.mark .rparen]))
          (.call aggregate [.column ⟨some source.table, source.timestampColumn⟩]) anyKind :=
        fun room enough => call_reads aggregate (by simp) (fun room _ =>
          .cons (column_reads source.table source.timestampColumn room) .nil) room enough
      have whole := having_denotes opening start
        (writes_column plain.table plain.timestampColumn) closing (opens_text (by decide))
        (writes_start value period) (nested_column _ _ .nil) (nested_start value period) rfl
        rfl call (start_reads value period)
      have since : ") >= NOW() - " ++ intervalLiteral value period =
          ") >= " ++ ("NOW() - " ++ intervalLiteral value period) := by
        rw [← String.append_assoc]
        rfl
      simp only [Event.timeHaving, Event.timeExpr?, window, Option.map_some]
      simpa only [shape, since, String.append_assoc] using whole

theorem count_parsed (event : Event) :
    ∀ predicate ∈ event.countExpr?, predicate.isParsed = true := by
  intro predicate found
  obtain ⟨op, _, rfl⟩ := Option.map_eq_some_iff.mp found
  rfl

theorem time_parsed (source : EventSource) (aggregate : String) (event : Event) :
    ∀ predicate ∈ event.timeExpr? source aggregate, predicate.isParsed = true := by
  intro predicate found
  obtain ⟨span, _, rfl⟩ := Option.map_eq_some_iff.mp found
  rfl

def Event.joinPairs (event : Event) : List (String × String) :=
  event.joinable.map fun related => (related.dataset, related.joinKey)

section Queries

variable {source : EventSource} (plain : source.Plain) {outer : String} (outerPlain : IsPlain outer)
  {event : Event}

section Named

variable (named : event.Named IsPlain)

include plain named in
theorem writes_selection {filter : String} {ks : List TokenKind} (condition : Writes filter ks) :
    Writes
      ("SELECT 1 FROM " ++ source.table
        ++ String.join (event.joinable.map (Related.join source.table)) ++ " WHERE " ++ filter)
      (.keyword .SELECT :: .number "1" :: .keyword .FROM :: .identifier source.table ::
        ((event.joinPairs.flatMap fun join => joinKinds source.table join.1 join.2) ++
          .keyword .WHERE :: ks)) := by
  have selects : Closed "SELECT 1 FROM " [.keyword .SELECT, .number "1", .keyword .FROM] :=
    closed_text (by decide) rfl
  have filters : Closed " WHERE " [.keyword .WHERE] := closed_text (by decide) rfl
  obtain ⟨joins, separates⟩ := writes_joins plain.table named.related
  have written := (((selects.then (writes_name plain.table)).append joins separates).close filters
    (opens_text (by decide))).then condition
  simpa [Event.joinPairs] using written

theorem selection_text (source : EventSource) (outer : String) (event : Event) :
    event.selection source outer =
      "SELECT 1 FROM " ++ source.table
        ++ String.join (event.joinable.map (Related.join source.table)) ++ " WHERE "
        ++ foldClauses .and
            (event.correlation source outer :: event.filterClause source
              :: event.joinable.map Related.clause) :=
  rfl

def Event.queryOf (source : EventSource) (event : Event) (filter : Expr)
    (groupBy : Option Column) (having : Option Predicate) : Subquery where
  table := source.table
  joins := event.joinable.map fun related =>
    Join.onKey source.table related.dataset related.joinKey
  filter := some filter
  groupBy := groupBy
  having := having

include plain named in
/-- The sub-query of an event and its closing parenthesis, whatever its condition is read as. -/
theorem query_read {conditionText groupText havingText : String} {groupBy : Option Column}
    {having : Option Predicate} {ks : List TokenKind} (condition : Writes conditionText ks)
    (groups : DenotesPart .GROUP (fun _ => readGroupBy) (· != .keyword .GROUP) 0 groupText groupBy)
    (compares : DenotesHaving havingText having) :
    ∃ gs hs,
      Writes
        ("SELECT 1 FROM " ++ source.table
          ++ String.join (event.joinable.map (Related.join source.table)) ++ " WHERE "
          ++ conditionText ++ groupText ++ havingText ++ ")")
        (subqueryKinds source.table event.joinPairs ks gs hs ++ [.mark .rparen]) ∧
      Nested 0 gs ∧ Nested (havingLevels having) hs ∧
      ∀ room, havingLevels having ≤ room → ∀ post,
        ReadsAs (always (readDisjunction (readCondition room))) ks post endsDisjunction →
        ∀ negated,
          ReadsAs (readExists negated (readCondition room) (readPredicate (readOperand room)))
            (.mark .lparen :: (subqueryKinds source.table event.joinPairs ks gs hs ++
              [.mark .rparen]))
            (fun expr => ∃ filter, post filter ∧
              expr = .exist negated (event.queryOf source filter groupBy having)) anyKind := by
  obtain ⟨separates, gs, writes', nested', first, reads'⟩ := groups
  obtain ⟨separates', hs, writes'', nested'', first', reads''⟩ := compares
  have closing : Writes ")" [.mark .rparen] := writes_text (by decide) rfl
  have written := (((writes_selection plain named condition).append writes' separates).append
    writes'' separates').append closing (opens_text (by decide)).separates
  refine ⟨gs, hs, by simpa [subqueryKinds] using written, nested', nested'',
    fun room enough post reads negated => ?_⟩
  have behind : ∀ kind ∈ (hs ++ [TokenKind.mark .rparen]).head?,
      kind = .keyword .HAVING ∨ kind = .mark .rparen := by
    cases hs with
    | nil => simp
    | cons head hs => exact fun kind start => .inl (first' kind (by simpa using start))
  have front : ∀ kind ∈ (gs ++ hs ++ [TokenKind.mark .rparen]).head?,
      kind = .keyword .GROUP ∨ kind = .keyword .HAVING ∨ kind = .mark .rparen := by
    cases gs with
    | nil => exact fun kind start => .inr (behind kind (by simpa using start))
    | cons head gs => exact fun kind start => .inl (first kind (by simpa using start))
  have whole := exists_as negated source.table event.joinPairs reads (reads' room (Nat.zero_le room))
    (reads'' room enough)
    (fun kind start => by rcases front kind start with rfl | rfl | rfl <;> rfl)
    (fun kind start => by rcases behind kind start with rfl | rfl <;> rfl) rfl
  simpa [Event.queryOf, Event.joinPairs, Function.comp_def] using whole

end Named

variable (readable : event.Readable)

include plain outerPlain readable in
theorem query_denotes {groupText havingText : String} {groupBy : Option Column}
    {having : Option Predicate}
    (groups : DenotesPart .GROUP (fun _ => readGroupBy) (· != .keyword .GROUP) 0 groupText groupBy)
    (compares : DenotesHaving havingText having)
    (compared : ∀ predicate ∈ having, predicate.isParsed = true) :
    ∃ ks,
      Writes (event.selection source outer ++ groupText ++ havingText ++ ")")
        (ks ++ [.mark .rparen]) ∧
      Nested (event.query source outer groupBy having).levels ks ∧
      (∀ negated, (Expr.exist negated (event.query source outer groupBy having)).IsParsed) ∧
      ∀ room, (event.query source outer groupBy having).levels ≤ room → ∀ negated,
        Reads (readExists negated (readCondition room) (readPredicate (readOperand room)))
          (.mark .lparen :: (ks ++ [.mark .rparen]))
          (.exist negated (event.query source outer groupBy having)) anyKind := by
  obtain ⟨filter, found, parsed, ks, writes, nested, _, reads⟩ :=
    selection_denotes plain outerPlain readable
  obtain ⟨gs, hs, written, nested', nested'', whole⟩ :=
    query_read plain readable.named writes groups compares
  have highest : (event.query source outer groupBy having).levels =
      max 0 (max filter.levels (max 0 (havingLevels having))) := by
    simp [Event.query, Subquery.levels, found, filterLevels]
  have all : Nested (max 0 (max filter.levels (max 0 (havingLevels having))))
      (subqueryKinds source.table event.joinPairs ks gs hs) :=
    .flat rfl (.flat rfl (.flat rfl (.flat rfl ((nested_joins _ _).append
      (.flat rfl (nested.append (nested'.append nested'')))))))
  rw [highest]
  refine ⟨subqueryKinds source.table event.joinPairs ks gs hs, ?_, all, ?_,
    fun room enough negated => ?_⟩
  · rw [selection_text]
    exact written
  · intro negated predicate member
    simp only [Expr.everyPredicate, Event.query, Subquery.everyPredicate, found,
      List.mem_append] at member
    rcases member with inside | behind
    · exact parsed predicate inside
    · exact compared predicate (by simpa using behind)
  · have same : event.queryOf source filter groupBy having =
        event.query source outer groupBy having := by
      simp [Event.queryOf, Event.query, found]
    refine (whole room (by omega) _ (reads room (by omega)).as negated).exact ?_
    rintro expr ⟨filter, rfl, rfl⟩
    rw [same]

include plain outerPlain readable in
theorem exists_denotes {groupText havingText : String} {groupBy : Option Column}
    {having : Option Predicate}
    (groups : DenotesPart .GROUP (fun _ => readGroupBy) (· != .keyword .GROUP) 0 groupText groupBy)
    (compares : DenotesHaving havingText having)
    (compared : ∀ predicate ∈ having, predicate.isParsed = true) :
    DenotesCondition ("EXISTS (" ++ event.selection source outer ++ groupText ++ havingText ++ ")")
      (.exist false (event.query source outer groupBy having)) := by
  obtain ⟨ks, writes, nested, parsed, reads⟩ :=
    query_denotes plain outerPlain readable groups compares compared
  have opening : Closed "EXISTS (" [.keyword .EXISTS, .mark .lparen] := closed_text (by decide) rfl
  have written := opening.then writes
  have around : Nested (Expr.exist false (event.query source outer groupBy having)).levels
      (.keyword .EXISTS :: .mark .lparen :: (ks ++ [.mark .rparen])) :=
    .flat rfl (nested_around nested)
  refine ⟨parsed false, _, ?_, around, by simp, fun room enough => ?_⟩
  · simpa [String.append_assoc] using written
  · simp only [Expr.levels] at enough
    obtain ⟨room, rfl⟩ : ∃ less, room = less + 1 := ⟨room - 1, by omega⟩
    exact (reads_condition_exists (reads room (by omega) false)).weaken fun _ _ => rfl

include plain outerPlain readable in
theorem not_exists_denotes :
    DenotesCondition ("NOT EXISTS (" ++ event.selection source outer ++ ")")
      (.exist true (event.query source outer none none)) := by
  have single : DenotesHaving "" none := absent_denotes rfl
  obtain ⟨ks, writes, nested, parsed, reads⟩ :=
    query_denotes plain outerPlain readable (absent_denotes rfl) single (by simp)
  have opening : Closed "NOT EXISTS (" [.keyword .NOT, .keyword .EXISTS, .mark .lparen] :=
    closed_text (by decide) rfl
  have written := opening.then writes
  have around : Nested (Expr.exist true (event.query source outer none none)).levels
      (.keyword .NOT :: .keyword .EXISTS :: .mark .lparen :: (ks ++ [.mark .rparen])) :=
    .flat rfl (.flat rfl (nested_around nested))
  refine ⟨parsed true, _, ?_, around, by simp, fun room enough => ?_⟩
  · simpa [String.append_assoc] using written
  · simp only [Expr.levels] at enough
    obtain ⟨room, rfl⟩ : ∃ less, room = less + 1 := ⟨room - 1, by omega⟩
    exact (reads_condition_not_exists (reads room (by omega) true)).weaken fun _ _ => rfl

include plain outerPlain readable in
theorem event_mirrors : Mirrors (event.clause source outer) (event.expr? source outer) := by
  have groups := group_denotes plain.table readable.named.columnKey
  simp only [Event.clause, Event.expr?]
  cases event.eventType with
  | performed =>
      exact (exists_denotes plain outerPlain readable groups (count_denotes event)
        (count_parsed event)).denotes
  | notPerformed => exact (not_exists_denotes plain outerPlain readable).denotes
  | firstTime =>
      exact (exists_denotes plain outerPlain readable groups
        (time_denotes plain event rfl (closed_text (by decide) rfl) (opens_text (by decide)))
        (time_parsed source "MIN" event)).denotes
  | lastTime =>
      exact (exists_denotes plain outerPlain readable groups
        (time_denotes plain event rfl (closed_text (by decide) rfl) (opens_text (by decide)))
        (time_parsed source "MAX" event)).denotes
  | unknown => rfl

end Queries

end Cohort
