import Mathlib
import Cohort.Sql.Expr.Parser

/-!
How many levels of nesting the reader needs for an expression.
-/

namespace Cohort.Sql

mutual

def Operand.levels : Operand → Nat
  | .call _ args => Operand.levelsOf args + 1
  | .sum left _ right => max left.levels right.levels
  | _ => 0

def Operand.levelsOf : List Operand → Nat
  | [] => 0
  | operand :: rest => max operand.levels (Operand.levelsOf rest)

end

def Predicate.levels : Predicate → Nat
  | .compare left _ right => max left.levels right.levels
  | .between target low high _ => max target.levels (max low.levels high.levels)
  | .like target pattern _ => max target.levels pattern.levels
  | .isNull target _ => target.levels
  | .oneOf target values _ => max target.levels (Operand.levelsOf values)
  | .bare operand => operand.levels
  | .unparsed _ => 0

def havingLevels : Option Predicate → Nat
  | some having => having.levels
  | none => 0

mutual

def Expr.levels : Expr → Nat
  | .and items => Expr.levelsOf items
  | .or items => Expr.levelsOf items
  | .grouped inner => inner.levels + 1
  | .not inner => inner.levels + 1
  | .exist _ query => query.levels + 1
  | .predicate predicate => predicate.levels

def Expr.levelsOf : List Expr → Nat
  | [] => 0
  | item :: rest => max item.levels (Expr.levelsOf rest)

def Subquery.levels : Subquery → Nat
  | ⟨_, _, filter, _, having⟩ =>
      max (filterLevels filter) (havingLevels having)

def filterLevels : Option Expr → Nat
  | some filter => filter.levels
  | none => 0

end

theorem operand_levels_le {operands : List Operand} {limit : Nat} :
    Operand.levelsOf operands ≤ limit ↔ ∀ operand ∈ operands, operand.levels ≤ limit := by
  induction operands with
  | nil => simp [Operand.levelsOf]
  | cons operand rest ih => simp [Operand.levelsOf, ih]

theorem item_levels_le {items : List Expr} {limit : Nat} :
    Expr.levelsOf items ≤ limit ↔ ∀ item ∈ items, item.levels ≤ limit := by
  induction items with
  | nil => simp [Expr.levelsOf]
  | cons item rest ih => simp [Expr.levelsOf, ih]

theorem query_levels_le {query : Subquery} {limit : Nat} :
    query.levels ≤ limit ↔ (∀ filter ∈ query.filter, filter.levels ≤ limit) ∧
      ∀ p ∈ query.having, p.levels ≤ limit := by
  obtain ⟨table, joins, filter, groupBy, having⟩ := query
  cases filter <;> cases having <;> simp [Subquery.levels, filterLevels, havingLevels]

/-- Only a single item stands for itself. -/
theorem fold_several {combine : List Expr → Expr} {items : List Expr} (several : items.length ≠ 1) :
    foldItems combine items = combine items := by
  cases items with
  | nil => rfl
  | cons first rest =>
      cases rest with
      | nil => simp at several
      | cons second rest => rfl

theorem fold_levels {combine : List Expr → Expr}
    (combines : ∀ items, (combine items).levels = Expr.levelsOf items) (items : List Expr) :
    (foldItems combine items).levels = Expr.levelsOf items := by
  by_cases single : items.length = 1
  · obtain ⟨item, rfl⟩ := List.length_eq_one_iff.mp single
    simp [foldItems, Expr.levelsOf]
  · rw [fold_several single, combines]

theorem grouped_levels {limit : Nat} {exprs : List Expr}
    (low : ∀ expr ∈ exprs, expr.levels ≤ limit) :
    Expr.levelsOf (exprs.map .grouped) ≤ limit + 1 := by
  rw [item_levels_le]
  intro item found
  obtain ⟨expr, member, rfl⟩ := List.mem_map.mp found
  exact Nat.succ_le_succ (low expr member)

end Cohort.Sql
