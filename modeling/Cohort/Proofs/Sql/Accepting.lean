import Cohort.Proofs.Sql.Fragments
import Cohort.Proofs.Sql.Printing
import Cohort.Proofs.Sql.Yielding

/-!
The expressions that the reader accepts. The reader makes of the tokens of a normal expression the
expression again, and it makes nothing but normal expressions of texts, apart from what it could not
read.
-/

namespace Cohort.Sql

open Text (quoteMark)

def startsOperand : TokenKind → Bool
  | .identifier _ | .string _ | .number _ | .keyword .NULL | .keyword .INTERVAL => true
  | .mark .minus | .mark .star => true
  | _ => false

theorem starts_plain {kind : TokenKind} (starts : startsOperand kind = true) :
    opensLevel kind = false ∧ kind ≠ .mark .rparen ∧ kind ≠ .keyword .EXISTS := by
  fun_cases startsOperand kind <;> simp_all [startsOperand, opensLevel]

theorem operand_starts (operand : Operand) :
    ∃ kind ks, operand.kinds = kind :: ks ∧ startsOperand kind = true := by
  induction operand using Operand.induction with
  | column column =>
      obtain ⟨_ | table, name⟩ := column
      · exact ⟨_, _, rfl, rfl⟩
      · exact ⟨_, _, rfl, rfl⟩
  | number text =>
      simp only [Operand.kinds, numberKinds]
      split
      · exact ⟨_, _, rfl, rfl⟩
      · exact ⟨_, _, rfl, rfl⟩
  | sum left sign right ih =>
      obtain ⟨kind, ks, shape, starts⟩ := ih
      exact ⟨kind, ks ++ [.mark sign.mark] ++ right.kinds, by simp [Operand.kinds, shape], starts⟩
  | _ => exact ⟨_, _, rfl, rfl⟩

theorem reads_term_numeral (args : Read (List Operand)) (text : String) :
    Reads (readTerm args) (numberKinds text) (.number text) anyKind := by
  rw [numberKinds]
  split
  · next digits shape =>
      have same : "-" ++ String.ofList digits = text := by simp [← String.toList_inj, shape]
      exact same ▸ reads_term_negative args (String.ofList digits)
  · exact reads_term_number args text

/-- Operands between commas, in front of the parenthesis that closes them. -/
theorem reads_list {operand : Read Operand} {values : List Operand}
    (each : ∀ value ∈ values, Reads operand value.kinds value endsOperand) :
    ReadsEnclosed (readOperands operand)
      (separated (.mark .comma) (Operand.kindsAll values)) values := by
  cases values with
  | nil => exact reads_no_operands operand
  | cons first others =>
      obtain ⟨kind, ks, shape, starts⟩ := operand_starts first
      have parts : List.Forall₂ (fun ks value => Reads operand ks value endsOperand)
          ((kind :: ks) :: Operand.kindsAll others) (first :: others) := by
        rw [← shape, kinds_operands]
        exact .cons (each first List.mem_cons_self) (List.forall₂_map_left_iff.mpr
          (List.forall₂_same.mpr fun value found => each value (List.mem_cons_of_mem first found)))
      have whole := (reads_operands parts rfl (starts_plain starts).2.1).enclosed rfl
      rwa [← shape] at whole

structure Operand.Accepted (room : Nat) (operand : Operand) : Prop where
  term : operand.isSum = false → Reads (termWithin room) operand.kinds operand endsTerm
  start : Begins room operand.kinds operand endsTerm

theorem term_accepted {room : Nat} {operand : Operand}
    (term : Reads (termWithin room) operand.kinds operand endsTerm) : operand.Accepted room :=
  ⟨fun _ => term, begins_term term⟩

theorem leaf_accepted {room : Nat} {operand : Operand}
    (term : ∀ args, Reads (readTerm args) operand.kinds operand anyKind) : operand.Accepted room :=
  term_accepted ((reads_term_within term room).weaken fun _ _ => rfl)

theorem Operand.Accepted.reads {room : Nat} {operand : Operand} (accepted : operand.Accepted room) :
    Reads (readOperand room) operand.kinds operand endsOperand :=
  accepted.start.reads fun _ ends => ⟨operand_ends_term ends, operand_ends_sum ends⟩

theorem operand_accepted {operand : Operand}
    (built : operand.Built TokenKind.IsSound IsUnquoted) {room : Nat}
    (enough : operand.levels ≤ room) : operand.Accepted room := by
  induction operand using Operand.induction generalizing room with
  | column column =>
      exact term_accepted (reads_term_within (fun args => reads_term_kinds args column) room)
  | string text => exact leaf_accepted fun args => reads_term_string args text
  | number text => exact leaf_accepted fun args => reads_term_numeral args text
  | null => exact leaf_accepted reads_term_null
  | star => exact leaf_accepted reads_term_star
  | interval text =>
      refine term_accepted (reads_term_within (fun args => ?_) room)
      have whole := reads_term_interval args (reads_interval_text text)
      rwa [Text.double_quotes_none built, String.ofList_toList] at whole
  | call name args ih =>
      obtain ⟨-, each⟩ := built
      rw [operands_built] at each
      cases room with
      | zero => cases enough
      | succ room =>
          have below := operand_levels_le.mp (Nat.le_of_succ_le_succ enough)
          -- The arguments have a level less than the call.
          have inner := reads_list fun arg found =>
            (ih arg found (each arg found) (below arg found)).reads
          exact term_accepted ((reads_term_enclosed name inner).weaken fun _ _ => rfl)
  | sum left sign right ihLeft ihRight =>
      obtain ⟨first, second, single⟩ := built
      obtain ⟨here, there⟩ := max_le_iff.mp enough
      -- The right part is a single term, so the sum that starts on the left goes on with it.
      have term := (ihRight second there).term single
      have signs : signOf? sign.mark = some sign := by cases sign <;> rfl
      have longer := (ihLeft first here).start.sum signs (by cases sign <;> rfl) term
      exact ⟨nofun, by simpa [Operand.kinds] using longer⟩

section Predicates

variable {operand : Read Operand} {target ks : List TokenKind} {value : Operand}
  {predicate : Predicate} {stops : TokenKind → Bool}

theorem reads_either (negated : Bool) (first : Reads operand target value endsOperand)
    (ends : ∀ kind ∈ ks.head?, endsOperand kind = true ∧ kind ≠ .keyword .NOT) (some_ : ks ≠ [])
    (relation : Reads (readRelation operand value negated) ks predicate stops) :
    Reads (readPredicate operand) (target ++ negationKinds negated ++ ks) predicate stops := by
  cases negated with
  | false => simpa [negationKinds] using reads_predicate first ends some_ relation
  | true => simpa [negationKinds] using reads_negated first relation

end Predicates

theorem predicate_accepted {predicate : Predicate} (normal : predicate.Normal) {room : Nat}
    (enough : predicate.levels ≤ room) :
    Reads (readPredicate (readOperand room)) predicate.kinds predicate endsFragment := by
  obtain ⟨parsed, built⟩ := normal
  have each : ∀ operand ∈ predicate.operands,
      Reads (readOperand room) operand.kinds operand endsOperand := fun operand found =>
    (operand_accepted (built operand found) (predicate_levels_le.mp enough operand found)).reads
  cases predicate with
  | compare left op right =>
      have whole := reads_predicate (each left (by simp [Predicate.operands]))
        (by simp [endsOperand]) (by simp)
        (reads_compare op (each right (by simp [Predicate.operands])))
      simpa [Predicate.kinds] using whole.weaken fun _ => fragment_ends_operand
  | between target low high negated =>
      have whole := reads_either negated (each target (by simp [Predicate.operands]))
        (by simp [endsOperand]) (by simp) (reads_between negated
          (each low (by simp [Predicate.operands])) (each high (by simp [Predicate.operands])))
      simpa [Predicate.kinds] using whole.weaken fun _ => fragment_ends_operand
  | like target pattern negated =>
      have whole := reads_either negated (each target (by simp [Predicate.operands]))
        (by simp [endsOperand]) (by simp)
        (reads_like negated (each pattern (by simp [Predicate.operands])))
      simpa [Predicate.kinds] using whole.weaken fun _ => fragment_ends_operand
  | isNull target negated =>
      have first := each target (by simp [Predicate.operands])
      cases negated with
      | false =>
          have whole := reads_predicate first (by simp [endsOperand]) (by simp) reads_is_null
          simpa [Predicate.kinds, negationKinds] using whole.weaken fun _ _ => rfl
      | true =>
          have whole := reads_predicate first (by simp [endsOperand]) (by simp) reads_is_not_null
          simpa [Predicate.kinds, negationKinds] using whole.weaken fun _ _ => rfl
  | oneOf target values negated =>
      have whole := reads_either negated (each target (by simp [Predicate.operands]))
        (by simp [endsOperand]) (by simp) (reads_one_of negated (reads_list fun value found =>
          each value (List.mem_cons_of_mem target found)))
      simpa [Predicate.kinds] using whole.weaken fun _ _ => rfl
  | bare operand => exact reads_bare (each operand (by simp [Predicate.operands]))
  | unparsed text => cases parsed

theorem predicate_starts {predicate : Predicate} (parsed : predicate.isParsed = true) :
    ∃ kind ks, predicate.kinds = kind :: ks ∧ startsOperand kind = true := by
  have front (operand : Operand) (ks : List TokenKind) :
      ∃ kind ks', operand.kinds ++ ks = kind :: ks' ∧ startsOperand kind = true := by
    obtain ⟨kind, ls, shape, starts⟩ := operand_starts operand
    exact ⟨kind, ls ++ ks, by rw [shape, List.cons_append], starts⟩
  cases predicate with
  | bare operand => exact operand_starts operand
  | unparsed text => cases parsed
  | _ => simpa [Predicate.kinds] using front _ _

structure Expr.Accepted (room : Nat) (expr : Expr) : Prop where
  condition : expr.isFold = false → Reads (readCondition room) expr.kinds expr endsFragment
  conjunction : expr.isDisjunction = false →
    Reads (always (readConjunction (readCondition room))) expr.kinds expr endsConjunction
  disjunction :
    Reads (always (readDisjunction (readCondition room))) expr.kinds expr endsDisjunction

theorem condition_accepted {room : Nat} {expr : Expr}
    (reads : Reads (readCondition room) expr.kinds expr endsFragment) : expr.Accepted room :=
  have single := reads_single_conjunction reads
  ⟨fun _ => reads, fun _ => single, reads_single_disjunction single⟩

/-- What an expression that is no fold starts with. -/
theorem condition_starts {expr : Expr} (built : expr.Built TokenKind.IsSound Predicate.Normal)
    (single : expr.isFold = false) (plain : expr.isExists = false) :
    ∃ kind ks, expr.kinds = kind :: ks ∧ kind ≠ .keyword .EXISTS := by
  cases expr with
  | and items => cases single
  | or items => cases single
  | grouped inner => exact ⟨_, _, rfl, by simp⟩
  | not inner => exact ⟨_, _, rfl, by simp⟩
  | exist negated query =>
      cases negated with
      | false => cases plain
      | true => exact ⟨_, _, rfl, by simp⟩
  | predicate p =>
      obtain ⟨kind, ks, shape, starts⟩ := predicate_starts built.1
      exact ⟨kind, ks, shape, (starts_plain starts).2.2⟩

theorem items_parts {reads : List TokenKind → Expr → Prop} {items : List Expr}
    (each : ∀ item ∈ items, reads item.kinds item) :
    List.Forall₂ reads (Expr.kindsAll items) items := by
  rw [kinds_items, List.forall₂_map_left_iff, List.forall₂_same]
  exact each

theorem kinds_filled {items : List Expr} (several : 2 ≤ items.length) :
    Expr.kindsAll items ≠ [] := by
  rw [kinds_items]
  exact List.map_eq_nil_iff.not.mpr (List.ne_nil_of_length_pos (by omega))

theorem reads_part {α : Type} {keyword : Keyword} {part : Read α} {kinds : α → List TokenKind}
    {value : Option α} {stops : TokenKind → Bool} (apart : stops (.keyword keyword) = false)
    (each : ∀ inner ∈ value, Reads part (kinds inner) inner stops) :
    Reads (readOptional keyword part) (partKinds [.keyword keyword] kinds value) value stops := by
  cases value with
  | none =>
      refine (reads_absent keyword part).weaken fun kind ends => ?_
      rw [bne_iff_ne]
      rintro rfl
      exact Bool.noConfusion (ends.symm.trans apart)
  | some inner => exact reads_present keyword (each inner rfl)

theorem reads_grouping (column : Column) :
    Reads readGroupBy (.keyword .BY :: column.kinds) column (· != .mark .dot) := by
  intro tokens after shape ends
  obtain ⟨rest, keyword, shape⟩ := expect_same shape
  obtain ⟨rest, read, shape⟩ := reads_column_kinds column rest _ shape ends
  exact ⟨rest, by simp [readGroupBy, keyword, read], shape⟩

def endsGrouping (kind : TokenKind) : Bool :=
  kind == .keyword .HAVING || kind == .mark .rparen

theorem query_accepted (negated : Bool) {query : Subquery} {room : Nat}
    (built : query.Built TokenKind.IsSound Predicate.Normal) (enough : query.levels ≤ room)
    (filters : ∀ filter ∈ query.filter, filter.Accepted room) :
    Reads (readExists negated (readCondition room) (readPredicate (readOperand room)))
      ([.mark .lparen] ++ query.kinds ++ [.mark .rparen]) (.exist negated query) anyKind := by
  obtain ⟨-, -, -, -, counted⟩ := query_built.mp built
  have low := (query_levels_le.mp enough).2
  have where_ := @reads_part _ .WHERE (always (readDisjunction (readCondition room))) Expr.kinds
    query.filter endsDisjunction rfl fun filter found => (filters filter found).disjunction
  have group := @reads_part _ .GROUP readGroupBy (fun column => .keyword .BY :: column.kinds)
    query.groupBy endsGrouping rfl fun column found =>
      (reads_grouping column).weaken fun kind ends => by
        rcases Bool.or_eq_true _ _ ▸ ends with same | same
        all_goals
          rw [beq_iff_eq.mp same]
          rfl
  have having_ := @reads_part _ .HAVING (readPredicate (readOperand room)) Predicate.kinds
    query.having (· == .mark .rparen) rfl fun p found =>
      (predicate_accepted (counted p found) (low p found)).weaken fun kind ends => by
        rw [beq_iff_eq.mp ends]
        rfl
  -- Each part ends where the word of the next one stands, or the parenthesis behind the query.
  have whole := query_as negated query.table query.joins where_.as group having_
    (by cases query.filter <;> cases query.groupBy <;> cases query.having <;>
      simp [partKinds, endsJoins])
    (by cases query.groupBy <;> cases query.having <;>
      simp [partKinds, endsDisjunction, endsConjunction, endsFragment])
    (by cases query.having <;> simp [partKinds, endsGrouping]) rfl
  have grouping : partKinds [.keyword .GROUP, .keyword .BY] Column.kinds query.groupBy =
      partKinds [.keyword .GROUP] (fun column => .keyword .BY :: column.kinds) query.groupBy := by
    cases query.groupBy <;> rfl
  rw [query_kinds, grouping]
  refine whole.exact ?_
  rintro found ⟨_, rfl, rfl⟩
  cases query
  rfl

/-- A normal expression is read off its tokens, where there are as many levels as it nests. -/
theorem expr_accepted {expr : Expr} (built : expr.Built TokenKind.IsSound Predicate.Normal)
    {room : Nat} (enough : expr.levels ≤ room) : expr.Accepted room := by
  induction expr using Expr.induction_within generalizing room with
  | and items ih =>
      obtain ⟨several, each, single⟩ := built
      rw [items_built] at each
      have below := item_levels_le.mp enough
      have parts := @items_parts (fun ks item => Reads (readCondition room) ks item endsFragment)
        items fun item found =>
          (ih item found (each item found) (below item found)).condition (single item found)
      -- No item is a fold, so each of them ends in front of the next `AND`.
      have whole := reads_conjunction (kinds_filled several) parts
      rw [fold_several (by omega)] at whole
      exact ⟨nofun, fun _ => whole, reads_single_disjunction whole⟩
  | or items ih =>
      obtain ⟨several, each, single⟩ := built
      rw [items_built] at each
      have below := item_levels_le.mp enough
      have parts := @items_parts (fun ks item =>
          Reads (always (readConjunction (readCondition room))) ks item endsConjunction)
        items fun item found =>
          (ih item found (each item found) (below item found)).conjunction (single item found)
      -- An item may be a conjunction here; it ends in front of the next `OR`.
      have whole := reads_disjunction (kinds_filled several) parts
      rw [fold_several (by omega)] at whole
      exact ⟨nofun, nofun, whole⟩
  | grouped inner ih =>
      cases room with
      | zero => cases enough
      | succ room =>
          have inside := (ih built (Nat.le_of_succ_le_succ enough)).disjunction
          exact condition_accepted ((reads_condition_grouped inside).weaken fun _ _ => rfl)
  | not inner ih =>
      obtain ⟨within, single, plain⟩ := built
      cases room with
      | zero => cases enough
      | succ room =>
          have inside := (ih within (Nat.le_of_succ_le_succ enough)).condition single
          -- In front of `EXISTS`, the `NOT` would be taken for a part of the sub-query's word.
          obtain ⟨kind, ks, shape, other⟩ := condition_starts within single plain
          refine condition_accepted ?_
          rw [shape] at inside
          rw [Expr.kinds, shape]
          exact reads_condition_not other inside
  | exist negated query ih =>
      cases room with
      | zero => cases enough
      | succ room =>
          have low := Nat.le_of_succ_le_succ enough
          have filters := (query_built.mp built).2.2.1
          have inside := query_accepted negated built low fun filter found =>
            ih filter found (filters filter found) ((query_levels_le.mp low).1 filter found)
          refine condition_accepted (Reads.weaken ?_ fun _ _ => rfl)
          cases negated with
          | false => exact reads_condition_exists inside
          | true => exact reads_condition_not_exists inside
  | predicate p =>
      -- Nothing that a predicate starts with opens a level.
      have alone := predicate_accepted built enough
      obtain ⟨kind, ks, shape, starts⟩ := predicate_starts built.1
      refine condition_accepted ?_
      rw [shape] at alone
      rw [Expr.kinds, shape]
      exact reads_condition_predicate (starts_plain starts).1 alone

/-- The expression is as the reader builds it, its names are plain and its numbers are numerals, a
condition was found everywhere, no interval holds a quote, and it nests as deep as the reader
follows. -/
structure Expr.Normal (expr : Expr) : Prop where
  built : expr.Built TokenKind.IsSound Predicate.Normal
  low : expr.levels ≤ maxNesting

theorem Expr.Normal.reads {expr : Expr} (normal : expr.Normal) :
    readExpr (tokenize expr.print) = some (expr, []) := by
  have shape : kindsOf (tokenize expr.print) = expr.kinds ++ [] := by
    rw [(writes_expr normal.built).kinds_eq, List.append_nil]
  obtain ⟨rest, read, nothing⟩ :=
    (expr_accepted normal.built normal.low).disjunction _ [] shape (by simp)
  obtain rfl : rest = [] := List.map_eq_nil_iff.mp nothing
  cases tokens : tokenize expr.print with
  | nil =>
      -- Nothing is read of no tokens, but a normal expression was read.
      rw [tokens] at read
      obtain ⟨rfl, -⟩ := Prod.mk.inj (Option.some.inj read)
      cases normal.built.1
  | cons token behind =>
      rw [tokens] at read
      exact read

/-- What is read of a text is normal if a condition was found everywhere. -/
theorem read_normal {text : String} (unquoted : ∀ token ∈ tokenize text, token.isQuotedName = false)
    {expr : Expr} {rest : List Token} (found : readExpr (tokenize text) = some (expr, rest))
    (parsed : expr.IsParsed)
    (spans : ∀ p ∈ expr.everyPredicate, ∀ interval ∈ p.intervals, IsUnquoted interval) :
    expr.Normal := by
  have made : Made TokenKind.IsSound (tokenize text) :=
    fun token member => tokens_sound member (unquoted token member)
  obtain ⟨fits, -⟩ := yields_expr made expr rest found
  refine ⟨fits.built.imp fun p member built => ⟨parsed p member, fun operand within => ?_⟩,
    fits.low⟩
  exact (built operand within).spans fun interval inside =>
    spans p member interval (List.mem_flatMap.mpr ⟨operand, within, inside⟩)

/-- The reader accepts exactly the normal expressions: of what is printed of one it reads the
expression again, and of other texts it reads nothing but normal ones. -/
theorem normal_exactly_read :
    (∀ expr : Expr, expr.Normal → readExpr (tokenize expr.print) = some (expr, [])) ∧
    ∀ (text : String) (expr : Expr) (rest : List Token),
      (∀ token ∈ tokenize text, token.isQuotedName = false) →
      readExpr (tokenize text) = some (expr, rest) → expr.IsParsed →
      (∀ p ∈ expr.everyPredicate, ∀ interval ∈ p.intervals, IsUnquoted interval) → expr.Normal :=
  ⟨fun _ normal => normal.reads,
    fun _ _ _ unquoted found parsed spans => read_normal unquoted found parsed spans⟩

def variedText : String :=
  "a.b + 1 - -2 >= f('it''s', *) and NOT (c NOT BETWEEN 1.5 AND INTERVAL 30 DAY) OR NOT EXISTS " ++
    "(SELECT n FROM p JOIN q ON k = q.k GROUP BY k HAVING d IS NOT NULL) -- or"

theorem varied_read_again :
    ∃ expr, readExpr (tokenize variedText) = some (expr, []) ∧ expr.Normal ∧
      readExpr (tokenize expr.print) = some (expr, []) := by
  have checked : ((readExpr (tokenize variedText)).any fun result =>
      decide (result.2 = [] ∧ (∀ p ∈ result.1.everyPredicate, p.isParsed = true) ∧
        ∀ p ∈ result.1.everyPredicate, ∀ interval ∈ p.intervals,
          quoteMark ∉ interval.toList)) = true := by decide +kernel
  obtain ⟨⟨expr, rest⟩, read, holds⟩ := Option.any_eq_true _ _ |>.mp checked
  obtain ⟨rfl, parsed, spans⟩ := of_decide_eq_true holds
  have normal : expr.Normal :=
    normal_exactly_read.2 variedText expr [] (by decide +kernel) read parsed spans
  exact ⟨expr, read, normal, normal_exactly_read.1 expr normal⟩

end Cohort.Sql
