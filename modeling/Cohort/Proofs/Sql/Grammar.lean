import Cohort.Proofs.Sql.Levels
import Cohort.Proofs.Sql.Predicates

/-!
Expressions as the reader builds them. Sums lean to the left, folds have several items and hold no
fold that would be one with them, and `NOT` does not stand in front of an `EXISTS` that it would
negate. `Built good` says so of an expression whose names and numbers stand in good tokens.
-/

namespace Cohort.Sql

/-- What holds of an operand if it holds of its parts holds of every operand. -/
theorem Operand.induction {motive : Operand → Prop} (column : ∀ column, motive (.column column))
    (string : ∀ text, motive (.string text)) (number : ∀ digits, motive (.number digits))
    (null : motive .null) (star : motive .star) (interval : ∀ text, motive (.interval text))
    (call : ∀ name args, (∀ arg ∈ args, motive arg) → motive (.call name args))
    (sum : ∀ left sign right, motive left → motive right → motive (.sum left sign right))
    (operand : Operand) : motive operand := by
  refine @Operand.rec motive (fun args => ∀ arg ∈ args, motive arg) column string number null star
    interval call sum (by simp) (fun head tail first rest arg found => ?_) operand
  rcases List.mem_cons.mp found with rfl | found
  · exact first
  · exact rest arg found

def Operand.isSum : Operand → Bool
  | .sum .. => true
  | _ => false

mutual

def Operand.intervals : Operand → List String
  | .interval text => [text]
  | .call _ args => Operand.intervalsOf args
  | .sum left _ right => left.intervals ++ right.intervals
  | _ => []

def Operand.intervalsOf : List Operand → List String
  | [] => []
  | operand :: rest => operand.intervals ++ Operand.intervalsOf rest

end

def Predicate.operands : Predicate → List Operand
  | .compare left _ right => [left, right]
  | .between target low high _ => [target, low, high]
  | .like target pattern _ => [target, pattern]
  | .isNull target _ => [target]
  | .oneOf target values _ => target :: values
  | .bare operand => [operand]
  | .unparsed _ => []

def Predicate.intervals (predicate : Predicate) : List String :=
  predicate.operands.flatMap Operand.intervals

def Column.Built (good : TokenKind → Prop) (column : Column) : Prop :=
  (∀ table ∈ column.table, good (.identifier table)) ∧ good (.identifier column.name)

mutual

/-- The names and the numbers of the operand stand in good tokens, its intervals meet a condition,
and its sums lean to the left. -/
def Operand.Built (good : TokenKind → Prop) (span : String → Prop) : Operand → Prop
  | .column c => c.Built good
  | .number text => ∃ digits, good (.number digits) ∧ (text = digits ∨ text = "-" ++ digits)
  | .interval text => span text
  | .call name args => good (.identifier name) ∧ Operand.BuiltOf good span args
  | .sum left _ right => left.Built good span ∧ right.Built good span ∧ right.isSum = false
  | .string _ | .null | .star => True

def Operand.BuiltOf (good : TokenKind → Prop) (span : String → Prop) : List Operand → Prop
  | [] => True
  | operand :: rest => operand.Built good span ∧ Operand.BuiltOf good span rest

end

def Predicate.Built (good : TokenKind → Prop) (predicate : Predicate) : Prop :=
  ∀ operand ∈ predicate.operands, operand.Built good fun _ => True

section Operands

variable {good : TokenKind → Prop} {span : String → Prop}

theorem operands_built {operands : List Operand} :
    Operand.BuiltOf good span operands ↔ ∀ operand ∈ operands, operand.Built good span := by
  induction operands with
  | nil => simp [Operand.BuiltOf]
  | cons operand rest ih => simp [Operand.BuiltOf, ih]

theorem intervals_of_mem {operands : List Operand} {text : String} :
    text ∈ Operand.intervalsOf operands ↔ ∃ operand ∈ operands, text ∈ operand.intervals := by
  induction operands with
  | nil => simp [Operand.intervalsOf]
  | cons operand rest ih => simp [Operand.intervalsOf, ih]

theorem predicate_levels_le {predicate : Predicate} {limit : Nat} :
    predicate.levels ≤ limit ↔ ∀ operand ∈ predicate.operands, operand.levels ≤ limit := by
  cases predicate <;>
    simp [Predicate.levels, Predicate.operands, operand_levels_le]

/-- Of the intervals, nothing but their texts matters. -/
theorem Operand.Built.spans {operand : Operand} (built : operand.Built good fun _ => True)
    (meets : ∀ text ∈ operand.intervals, span text) : operand.Built good span := by
  induction operand using Operand.induction with
  | column column => exact built
  | number digits => exact built
  | interval text => exact meets text List.mem_cons_self
  | call name args ih =>
      obtain ⟨named, each⟩ := built
      rw [operands_built] at each
      refine ⟨named, operands_built.mpr fun arg found => ih arg found (each arg found) ?_⟩
      exact fun text within => meets text (intervals_of_mem.mpr ⟨arg, found, within⟩)
  | sum left sign right ihLeft ihRight =>
      obtain ⟨first, second, single⟩ := built
      exact ⟨ihLeft first fun text within => meets text (List.mem_append_left _ within),
        ihRight second fun text within => meets text (List.mem_append_right _ within), single⟩
  | _ => trivial

end Operands

def Expr.isFold : Expr → Bool
  | .and _ | .or _ => true
  | _ => false

def Expr.isDisjunction : Expr → Bool
  | .or _ => true
  | _ => false

def Expr.isExists : Expr → Bool
  | .exist negated _ => !negated
  | _ => false

def Join.Built (good : TokenKind → Prop) (join : Join) : Prop :=
  good (.identifier join.table) ∧ join.left.Built good ∧ join.right.Built good

mutual

def Expr.Built (good : TokenKind → Prop) (fits : Predicate → Prop) : Expr → Prop
  | .and items =>
      2 ≤ items.length ∧ Expr.BuiltOf good fits items ∧ ∀ item ∈ items, item.isFold = false
  | .or items =>
      2 ≤ items.length ∧ Expr.BuiltOf good fits items ∧ ∀ item ∈ items, item.isDisjunction = false
  | .grouped inner => inner.Built good fits
  | .not inner => inner.Built good fits ∧ inner.isFold = false ∧ inner.isExists = false
  | .exist _ query => query.Built good fits
  | .predicate p => fits p

def Expr.BuiltOf (good : TokenKind → Prop) (fits : Predicate → Prop) : List Expr → Prop
  | [] => True
  | item :: rest => item.Built good fits ∧ Expr.BuiltOf good fits rest

def Subquery.Built (good : TokenKind → Prop) (fits : Predicate → Prop) : Subquery → Prop
  | ⟨table, joins, filter, groupBy, having⟩ =>
      good (.identifier table) ∧ (∀ join ∈ joins, join.Built good) ∧
        (match filter with
          | some filter => filter.Built good fits
          | none => True) ∧
        (∀ column ∈ groupBy, column.Built good) ∧ ∀ p ∈ having, fits p

end

section Expressions

variable {good : TokenKind → Prop} {fits fits' : Predicate → Prop}

theorem items_built {items : List Expr} :
    Expr.BuiltOf good fits items ↔ ∀ item ∈ items, item.Built good fits := by
  induction items with
  | nil => simp [Expr.BuiltOf]
  | cons item rest ih => simp [Expr.BuiltOf, ih]

theorem query_built {query : Subquery} :
    query.Built good fits ↔ good (.identifier query.table) ∧
      (∀ join ∈ query.joins, join.Built good) ∧
      (∀ filter ∈ query.filter, filter.Built good fits) ∧
      (∀ column ∈ query.groupBy, column.Built good) ∧ ∀ p ∈ query.having, fits p := by
  obtain ⟨table, joins, filter, groupBy, having⟩ := query
  cases filter <;> simp [Subquery.Built]

theorem Expr.Built.imp {expr : Expr} (built : expr.Built good fits)
    (less : ∀ p ∈ expr.everyPredicate, fits p → fits' p) : expr.Built good fits' := by
  -- Both kinds of folds hand the condition on to their items.
  have all {items : List Expr} (each : ∀ item ∈ items, item.Built good fits)
      (less : ∀ p ∈ Expr.everyPredicateOf items, fits p → fits' p)
      (ih : ∀ item ∈ items, item.Built good fits →
        (∀ p ∈ item.everyPredicate, fits p → fits' p) → item.Built good fits') :
      Expr.BuiltOf good fits' items :=
    items_built.mpr fun item found => ih item found (each item found) fun p within =>
      less p (every_predicate_of_mem.mpr ⟨item, found, within⟩)
  induction expr using Expr.induction_within with
  | and items ih =>
      obtain ⟨several, each, single⟩ := built
      exact ⟨several, all (items_built.mp each) less ih, single⟩
  | or items ih =>
      obtain ⟨several, each, single⟩ := built
      exact ⟨several, all (items_built.mp each) less ih, single⟩
  | grouped inner ih => exact ih built less
  | not inner ih => exact ⟨ih built.1 less, built.2⟩
  | exist negated query ih =>
      obtain ⟨named, joined, filtered, grouped, counted⟩ := query_built.mp built
      refine query_built.mpr ⟨named, joined, fun filter found => ?_, grouped, fun p found =>
        less p (exist_predicate_mem.mpr (.inr found)) (counted p found)⟩
      exact ih filter found (filtered filter found) fun p within =>
        less p (exist_predicate_mem.mpr (.inl ⟨filter, found, within⟩))
  | predicate p => exact less p List.mem_cons_self built

end Expressions

end Cohort.Sql
