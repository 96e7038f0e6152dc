import Cohort.Clause.Filter
import Cohort.Proofs.Clause.Fold

/-!
What the clauses of filters denote.
-/

namespace Cohort

open Sql
open Json (Value)

/-- What a value is read back as. The truth values are no words of the language: they are read as
the names of columns. -/
def operandOf : Value → Operand
  | .string s => .string s
  | .null => .null
  | .bool b => .column ⟨none, (Value.bool b).print⟩
  | .number n => .number n.print
  | other => .string other.print

def likeExpr (column : Operand) (before behind : String) (negated : Bool) (value : Value) : Expr :=
  .predicate (.like column (.string (before ++ patternText value ++ behind)) negated)

def Filter.expr? (table : String) (filter : Filter) : Option Expr :=
  let column := Operand.column ⟨some table, filter.field⟩
  let value := filter.value
  let compare (op : Comparison) : Expr := .predicate (.compare column op (operandOf value))
  match filter.operator with
  | .equals | .on => compare .eq
  | .notEquals | .notOn => compare .ne
  | .contains => likeExpr column "%" "%" false value
  | .notContains => likeExpr column "%" "%" true value
  | .startsWith => likeExpr column "" "%" false value
  | .endsWith => likeExpr column "%" "" false value
  | .greaterThan | .after => compare .gt
  | .lessThan | .before => compare .lt
  | .between => filter.value2.map fun upper =>
      .predicate (.between column (operandOf value) (operandOf upper) false)
  | .relativeDaysAgo => some <| .predicate <| .compare column .ge <|
      .call "DATE_SUB"
        [.column ⟨none, "CURRENT_DATE"⟩, .interval (patternText value ++ " " ++ "DAY")]
  | .isNull => some (.predicate (.isNull column false))
  | .isNotNull => some (.predicate (.isNull column true))
  | .containsAll =>
      foldExprs .and ((elementsOf value).map fun element => likeExpr column "%" "%" false element)
  | .isEmpty => some (.predicate (.compare (.call "JSON_LENGTH" [column]) .eq (.number "0")))
  | .isNotEmpty => some (.predicate (.compare (.call "JSON_LENGTH" [column]) .gt (.number "0")))
  | .unknown => none

def Json.Value.NoExponent : Value → Prop
  | .number n => 'e' ∉ n.print.toList
  | _ => True

/-- A value that can be an amount of time: not missing, no truth value, and no number below zero. -/
def Json.Value.IsAmount : Value → Prop
  | .null | .bool _ => False
  | .number n => '-' ∉ n.print.toList
  | _ => True

instance : DecidablePred Json.Value.NoExponent
  | .number n => inferInstanceAs (Decidable ('e' ∉ n.print.toList))
  | .null | .bool _ | .string _ | .array _ | .object _ => .isTrue trivial

instance : DecidablePred Json.Value.IsAmount
  | .number n => inferInstanceAs (Decidable ('-' ∉ n.print.toList))
  | .null | .bool _ => .isFalse id
  | .string _ | .array _ | .object _ => .isTrue trivial

/-- The values of the filter are written so that they can be read back. -/
structure Filter.Readable (filter : Filter) : Prop where
  value : filter.value.NoExponent
  upper : filter.operator = .between → ∀ upper ∈ filter.value2, upper.NoExponent
  amount : filter.operator = .relativeDaysAgo → filter.value.IsAmount

instance : DecidablePred Filter.Readable := fun filter =>
  decidable_of_iff
    (filter.value.NoExponent ∧
      (filter.operator = .between → ∀ upper ∈ filter.value2, upper.NoExponent) ∧
      (filter.operator = .relativeDaysAgo → filter.value.IsAmount))
    ⟨fun parts => ⟨parts.1, parts.2.1, parts.2.2⟩,
      fun whole => ⟨whole.value, whole.upper, whole.amount⟩⟩

def Operator.writesValue : Operator → Bool
  | .equals | .on | .notEquals | .notOn | .greaterThan | .after | .lessThan | .before => true
  | .between | .relativeDaysAgo => true
  | _ => false

structure Filter.Legible (filter : Filter) : Prop where
  value : filter.operator.writesValue = true → filter.value.NoExponent
  upper : filter.operator = .between → ∀ upper ∈ filter.value2, upper.NoExponent
  amount : filter.operator = .relativeDaysAgo → filter.value.IsAmount

theorem Filter.Readable.legible {filter : Filter} (readable : filter.Readable) : filter.Legible :=
  ⟨fun _ => readable.value, readable.upper, readable.amount⟩

@[simp]
theorem value_levels (value : Value) : (operandOf value).levels = 0 := by
  cases value <;> rfl

def isWritten : TokenKind → Bool
  | .string _ | .keyword .NULL | .identifier _ | .number _ => true
  | .mark .minus | .mark .plus => true
  | _ => false

theorem written_flat {kind : TokenKind} (written : isWritten kind = true) : isFlat kind = true := by
  fun_cases isWritten kind <;> first | rfl | simp_all [isWritten]

theorem written_nested {ks : List TokenKind} (written : ∀ kind ∈ ks, isWritten kind = true) :
    Nested 0 ks :=
  nested_flat fun kind member => written_flat (written kind member)

theorem value_denotes {value : Value} (plain : value.NoExponent) :
    ∃ kind ks, Writes (renderValue value) (kind :: ks) ∧
      (∀ other ∈ kind :: ks, isWritten other = true) ∧
      ∀ room, Reads (readOperand room) (kind :: ks) (operandOf value) endsOperand := by
  have stops : ∀ {ks : List TokenKind} {value : Operand},
      (∀ args, Reads (readTerm args) ks value anyKind) →
        ∀ room, Reads (readOperand room) ks value endsOperand :=
    fun reads room => reads_operand ((reads_term_within reads room).weaken fun _ _ => rfl)
  have literal : ∀ text, ∃ kind ks, Writes (Text.literal text) (kind :: ks) ∧
      (∀ other ∈ kind :: ks, isWritten other = true) ∧
      ∀ room, Reads (readOperand room) (kind :: ks) (.string text) endsOperand := fun text =>
    ⟨_, [], writes_literal text, by simp [isWritten], stops fun args => reads_term_string args text⟩
  cases value with
  | null =>
      exact ⟨.keyword .NULL, [], writes_text (by decide) rfl, by simp [isWritten],
        stops reads_term_null⟩
  | bool b =>
      refine ⟨.identifier (Value.bool b).print, [], ?_, by simp [isWritten],
        fun room => reads_operand (reads_term_within (fun args => reads_term_bare args _) room)⟩
      cases b
      · exact writes_text (by decide) rfl
      · exact writes_text (by decide) rfl
  | number n =>
      obtain ⟨digits, number, shape⟩ := Json.number_print_numeral plain
      rcases shape with shape | shape
      · exact ⟨_, [], writes_numeral (by simpa [renderValue, shape] using number.1),
          by simp [isWritten], stops fun args => reads_term_number args _⟩
      · have text : n.print = "-" ++ String.ofList digits := by
          rw [← String.toList_inj, shape]
          simp
        refine ⟨_, _, writes_negative number.1 shape, by simp [isWritten], stops fun args => ?_⟩
        simp only [operandOf, text]
        exact reads_term_negative args _
  | string s => exact literal s
  | array items => exact literal _
  | object members => exact literal _

theorem denotes_predicate {text : String} {kind : TokenKind} {ks : List TokenKind} {height : Nat}
    {predicate : Predicate} (writes : Writes text (kind :: ks)) (nested : Nested height (kind :: ks))
    (plain : opensLevel kind = false) (parsed : predicate.isParsed = true)
    (levels : predicate.levels = height)
    (reads : ∀ room, height ≤ room →
      Reads (readPredicate (readOperand room)) (kind :: ks) predicate endsFragment) :
    DenotesCondition text (.predicate predicate) := by
  subst levels
  exact ⟨by simpa [Expr.IsParsed, Expr.everyPredicate] using parsed, kind :: ks, writes, nested,
    by simp, fun room enough => reads_condition_predicate plain (reads room enough)⟩

theorem string_reads (text : String) (room : Nat) :
    Reads (readOperand room) [.string (String.ofList (Text.doubleQuotes text.toList))]
      (.string text) endsOperand :=
  reads_operand
    ((reads_term_within (fun args => reads_term_string args text) room).weaken fun _ _ => rfl)

section Columns

variable {table : String} {name : String}

theorem column_reads (table name : String) (room : Nat) :
    Reads (readOperand room) (columnKinds table name) (.column ⟨some table, name⟩) endsOperand :=
  reads_operand
    ((reads_term_within (fun args => reads_term_column args table name) room).weaken fun _ _ => rfl)

theorem nested_column (table name : String) {height : Nat} {ks : List TokenKind}
    (nested : Nested height ks) : Nested height (columnKinds table name ++ ks) :=
  .flat rfl (.flat rfl (.flat rfl nested))

variable (first : IsPlain table) (second : IsPlain name)

include first second in
theorem compare_denotes {symbol value : String} {op : Comparison} {ks : List TokenKind}
    {height : Nat} {right : Operand} (closed : Closed symbol [.comparison op])
    (opens : Opens symbol) (writes : Writes value ks) (nested : Nested height ks)
    (levels : right.levels = height)
    (reads : ∀ room, height ≤ room → Reads (readOperand room) ks right endsOperand) :
    DenotesCondition (table ++ "." ++ name ++ symbol ++ value)
      (.predicate (.compare (.column ⟨some table, name⟩) op right)) := by
  have written := ((writes_column first second).close closed opens).then writes
  refine denotes_predicate (by simpa using written)
    (nested_column table name (.flat rfl nested)) rfl rfl
    (by simp [Predicate.levels, Operand.levels, levels]) fun room enough => ?_
  exact (reads_predicate (column_reads table name room) (by simp [endsOperand]) (by simp)
    (reads_compare op (reads room enough))).weaken fun _ => fragment_ends_operand

include first second in
theorem like_denotes (text : String) :
    DenotesCondition (table ++ "." ++ name ++ " LIKE " ++ Text.literal text)
      (.predicate (.like (.column ⟨some table, name⟩) (.string text) false)) := by
  have closed : Closed " LIKE " [.keyword .LIKE] := closed_text (by decide) rfl
  have opens : Opens " LIKE " := opens_text (by decide)
  have written := ((writes_column first second).close closed opens).then (writes_literal text)
  refine denotes_predicate (by simpa using written)
    (nested_column table name (nested_flat (by simp [isFlat]))) rfl rfl rfl fun room _ => ?_
  exact (reads_predicate (column_reads table name room) (by simp [endsOperand]) (by simp)
    (reads_like false (string_reads text room))).weaken fun _ => fragment_ends_operand

include first second in
theorem not_like_denotes (text : String) :
    DenotesCondition (table ++ "." ++ name ++ " NOT LIKE " ++ Text.literal text)
      (.predicate (.like (.column ⟨some table, name⟩) (.string text) true)) := by
  have closed : Closed " NOT LIKE " [.keyword .NOT, .keyword .LIKE] :=
    closed_text (by decide) rfl
  have opens : Opens " NOT LIKE " := opens_text (by decide)
  have written := ((writes_column first second).close closed opens).then (writes_literal text)
  refine denotes_predicate (by simpa using written)
    (nested_column table name (nested_flat (by simp [isFlat]))) rfl rfl rfl fun room _ => ?_
  exact (reads_negated (column_reads table name room)
    (reads_like true (string_reads text room))).weaken fun _ => fragment_ends_operand

include first second in
theorem between_denotes {value upper : Value} (plain : value.NoExponent)
    (plain' : upper.NoExponent) :
    DenotesCondition (table ++ "." ++ name ++ " BETWEEN " ++ renderValue value ++ " AND "
        ++ renderValue upper)
      (.predicate (.between (.column ⟨some table, name⟩) (operandOf value) (operandOf upper)
        false)) := by
  obtain ⟨kind, ks, writes, written, reads⟩ := value_denotes plain
  obtain ⟨kind', ls, writes', written', reads'⟩ := value_denotes plain'
  have closed : Closed " BETWEEN " [.keyword .BETWEEN] := closed_text (by decide) rfl
  have opens : Opens " BETWEEN " := opens_text (by decide)
  have closed' : Closed " AND " [.keyword .AND] := closed_text (by decide) rfl
  have opens' : Opens " AND " := opens_text (by decide)
  have whole := ((((writes_column first second).close closed opens).then writes).close closed'
    opens').then writes'
  refine denotes_predicate (by simpa using whole) (nested_column table name (.flat rfl
    ((written_nested written).append (.flat rfl (written_nested written'))))) rfl rfl
    (by simp [Predicate.levels, Operand.levels, value_levels]) fun room _ => ?_
  exact (reads_predicate (column_reads table name room) (by simp [endsOperand]) (by simp)
    (reads_between false (reads room) (reads' room))).weaken fun _ => fragment_ends_operand

include first second in
theorem is_null_denotes :
    DenotesCondition (table ++ "." ++ name ++ " IS NULL")
      (.predicate (.isNull (.column ⟨some table, name⟩) false)) := by
  have null : Writes " IS NULL" [.keyword .IS, .keyword .NULL] := writes_text (by decide) rfl
  have opens : Opens " IS NULL" := opens_text (by decide)
  have written := (writes_column first second).append null opens.separates
  refine denotes_predicate (by simpa using written)
    (nested_column table name (nested_flat (by simp [isFlat]))) rfl rfl rfl fun room _ => ?_
  exact (reads_predicate (column_reads table name room) (by simp [endsOperand]) (by simp)
    reads_is_null).weaken fun _ _ => rfl

include first second in
theorem is_not_null_denotes :
    DenotesCondition (table ++ "." ++ name ++ " IS NOT NULL")
      (.predicate (.isNull (.column ⟨some table, name⟩) true)) := by
  have null : Writes " IS NOT NULL" [.keyword .IS, .keyword .NOT, .keyword .NULL] :=
    writes_text (by decide) rfl
  have opens : Opens " IS NOT NULL" := opens_text (by decide)
  have written := (writes_column first second).append null opens.separates
  refine denotes_predicate (by simpa using written)
    (nested_column table name (nested_flat (by simp [isFlat]))) rfl rfl rfl fun room _ => ?_
  exact (reads_predicate (column_reads table name room) (by simp [endsOperand]) (by simp)
    reads_is_not_null).weaken fun _ _ => rfl

end Columns

/-- A call takes one level of nesting more than its arguments. -/
theorem call_reads (name : String) {height : Nat} {kind : TokenKind} {ks : List TokenKind}
    {parts : List (List TokenKind)} {values : List Operand} (opens : kind ≠ .mark .rparen)
    (each : ∀ room, height ≤ room →
      List.Forall₂ (fun ks value => Reads (readOperand room) ks value endsOperand)
        ((kind :: ks) :: parts) values) (room : Nat) (enough : height + 1 ≤ room) :
    Reads (termWithin room)
      (.identifier name :: .mark .lparen ::
        (separated (.mark .comma) ((kind :: ks) :: parts) ++ [.mark .rparen]))
      (.call name values) anyKind := by
  obtain ⟨room, rfl⟩ : ∃ less, room = less + 1 := ⟨room - 1, by omega⟩
  exact reads_term_call name (reads_operands (each room (by omega)) rfl opens) rfl

theorem length_denotes {table name : String} (first : IsPlain table) (second : IsPlain name)
    {op : Comparison} {symbol : String}
    (writes : Writes symbol [.mark .rparen, .comparison op, .number "0"])
    (opens : Opens symbol) :
    DenotesCondition ("JSON_LENGTH(" ++ (table ++ "." ++ name) ++ symbol)
      (.predicate (.compare (.call "JSON_LENGTH" [.column ⟨some table, name⟩]) op
        (.number "0"))) := by
  have closed : Closed "JSON_LENGTH(" [.identifier "JSON_LENGTH", .mark .lparen] :=
    closed_text (by decide) rfl
  have written := (closed.then (writes_column first second)).append writes opens.separates
  have nested : Nested 1 (.identifier "JSON_LENGTH" :: .mark .lparen ::
      (columnKinds table name ++ .mark .rparen :: [.comparison op, .number "0"])) :=
    .flat rfl (.paren (nested_column table name .nil) (nested_flat (by simp [isFlat])))
  refine denotes_predicate (by simpa [columnKinds] using written) nested rfl rfl rfl fun room enough => ?_
  have target := call_reads "JSON_LENGTH" (by simp) (fun room _ =>
    .cons (column_reads table name room) .nil) room enough
  have zero := reads_operand
    ((reads_term_within (fun args => reads_term_number args "0") room).weaken fun _ _ => rfl)
  have whole := (reads_predicate (reads_operand (target.weaken fun _ _ => rfl))
    (by simp [endsOperand]) (by simp) (reads_compare op zero)).weaken fun _ => fragment_ends_operand
  simpa [separated, columnKinds] using whole

theorem amount_denotes {value : Value} (plain : value.NoExponent) (amount : value.IsAmount) :
    ∃ kind, Writes (renderValue value) [kind] ∧ isFlat kind = true ∧
      Reads readInterval [kind, .identifier "DAY"]
        (.interval (patternText value ++ " " ++ "DAY")) anyKind := by
  cases value with
  | null | bool b => exact amount.elim
  | number n =>
      obtain ⟨digits, number, shape⟩ := Json.number_print_numeral plain
      rcases shape with shape | shape
      · exact ⟨_, writes_numeral (by simpa [renderValue, shape] using number.1), rfl,
          reads_interval_number _ _⟩
      · exact absurd (by simp [shape]) amount
  | string s => exact ⟨_, writes_literal s, rfl, reads_interval_string _ _⟩
  | array items => exact ⟨_, writes_literal _, rfl, reads_interval_string _ _⟩
  | object members => exact ⟨_, writes_literal _, rfl, reads_interval_string _ _⟩

theorem days_denotes {table name : String} (first : IsPlain table) (second : IsPlain name)
    {value : Value} (plain : value.NoExponent) (amount : value.IsAmount) :
    DenotesCondition (table ++ "." ++ name ++ " >= DATE_SUB(CURRENT_DATE, INTERVAL " ++ renderValue value
        ++ " DAY)")
      (.predicate (.compare (.column ⟨some table, name⟩) .ge
        (.call "DATE_SUB" [.column ⟨none, "CURRENT_DATE"⟩,
          .interval (patternText value ++ " " ++ "DAY")]))) := by
  obtain ⟨kind, writes, flat, reads⟩ := amount_denotes plain amount
  have closed : Closed " >= DATE_SUB(CURRENT_DATE, INTERVAL "
      [.comparison .ge, .identifier "DATE_SUB", .mark .lparen, .identifier "CURRENT_DATE",
        .mark .comma, .keyword .INTERVAL] := closed_text (by decide) rfl
  have opens : Opens " >= DATE_SUB(CURRENT_DATE, INTERVAL " := opens_text (by decide)
  have unit : Writes " DAY)" [.identifier "DAY", .mark .rparen] := writes_text (by decide) rfl
  have written := (((writes_column first second).close closed opens).then writes).append unit
    (opens_text (by decide)).separates
  have nested : Nested 1 (columnKinds table name ++ .comparison .ge :: .identifier "DATE_SUB" ::
      .mark .lparen :: ([.identifier "CURRENT_DATE", .mark .comma, .keyword .INTERVAL, kind,
        .identifier "DAY"] ++ .mark .rparen :: [])) :=
    nested_column table name
      (.flat rfl (.flat rfl (.paren
        (.flat rfl (.flat rfl (.flat rfl (.flat flat (.flat rfl .nil))))) .nil)))
  refine denotes_predicate (by simpa using written) nested rfl rfl rfl fun room enough => ?_
  have arguments : ∀ room, 0 ≤ room → List.Forall₂
      (fun ks value => Reads (readOperand room) ks value endsOperand)
      [[.identifier "CURRENT_DATE"], [.keyword .INTERVAL, kind, .identifier "DAY"]]
      [.column ⟨none, "CURRENT_DATE"⟩, .interval (patternText value ++ " " ++ "DAY")] := by
    intro room _
    refine .cons (reads_operand (reads_term_within (fun args => reads_term_bare args _) room))
      (.cons (reads_operand ?_) .nil)
    exact (reads_term_within (fun args => reads_term_interval args reads) room).weaken fun _ _ => rfl
  have right := call_reads "DATE_SUB" (by simp) arguments room enough
  have whole := (reads_predicate (column_reads table name room) (by simp [endsOperand]) (by simp)
    (reads_compare .ge (reads_operand (right.weaken fun _ _ => rfl)))).weaken
      fun _ => fragment_ends_operand
  simpa [separated, columnKinds] using whole

theorem filter_mirrors {table : String} (plain : IsPlain table) {filter : Filter}
    (fieldPlain : IsPlain filter.field) (legible : filter.Legible) :
    Mirrors (filter.clause table) (filter.expr? table) := by
  obtain ⟨id, field, operator, value, value2⟩ := filter
  have second : IsPlain field := fieldPlain
  have compare (plainValue : value.NoExponent) {symbol : String} {op : Comparison}
      (closed : Closed symbol [.comparison op]) (opens : Opens symbol) :
      Mirrors (table ++ "." ++ field ++ symbol ++ renderValue value)
        (some (.predicate (.compare (.column ⟨some table, field⟩) op (operandOf value)))) := by
    obtain ⟨kind, ks, writes, written, reads⟩ := value_denotes plainValue
    exact (compare_denotes plain second closed opens writes (written_nested written)
      (value_levels value) fun room _ => reads room).denotes
  cases operator with
  | equals | on =>
      exact compare (legible.value rfl) (closed_text (by decide) rfl) (opens_text (by decide))
  | notEquals | notOn =>
      exact compare (legible.value rfl) (closed_text (by decide) rfl) (opens_text (by decide))
  | greaterThan | after =>
      exact compare (legible.value rfl) (closed_text (by decide) rfl) (opens_text (by decide))
  | lessThan | before =>
      exact compare (legible.value rfl) (closed_text (by decide) rfl) (opens_text (by decide))
  | contains => exact (like_denotes plain second _).denotes
  | notContains => exact (not_like_denotes plain second _).denotes
  | startsWith => exact (like_denotes plain second _).denotes
  | endsWith => exact (like_denotes plain second _).denotes
  | between =>
      cases value2 with
      | none => rfl
      | some upper =>
          exact (between_denotes plain second (legible.value rfl) (legible.upper rfl upper rfl)).denotes
  | relativeDaysAgo =>
      exact (days_denotes plain second (legible.value rfl) (legible.amount rfl)).denotes
  | isNull => exact (is_null_denotes plain second).denotes
  | isNotNull => exact (is_not_null_denotes plain second).denotes
  | containsAll =>
      refine fold_mirrors .and ?_
      rw [List.forall₂_map_left_iff, List.forall₂_map_right_iff, List.forall₂_same]
      exact fun element _ => (like_denotes plain second _).denotes
  | isEmpty | isNotEmpty =>
      exact (length_denotes plain second (writes_text (by decide) rfl)
        (opens_text (by decide))).denotes
  | unknown => rfl

end Cohort
