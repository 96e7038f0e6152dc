import Cohort.Sql.Expr
import Cohort.Text.Quoted

/-!
The written form of expressions: single spaces, upper-case keywords, strings with their quotes
doubled. Source text without a condition is written as it is.
-/

namespace Cohort.Sql

def Column.print (column : Column) : String :=
  match column.table with
  | some table => table ++ "." ++ column.name
  | none => column.name

def Sign.symbol : Sign → String
  | plus => "+"
  | minus => "-"

mutual

def Operand.print : Operand → String
  | .column c => c.print
  | .string text => Text.literal text
  | .number digits => digits
  | .null => "NULL"
  | .star => "*"
  | .interval text => "INTERVAL '" ++ text ++ "'"
  | .call name args => name ++ "(" ++ ", ".intercalate (Operand.printAll args) ++ ")"
  | .sum left sign right => left.print ++ " " ++ sign.symbol ++ " " ++ right.print

def Operand.printAll : List Operand → List String
  | [] => []
  | operand :: rest => operand.print :: Operand.printAll rest

end

def negation (negated : Bool) : String :=
  if negated then "NOT " else ""

def Predicate.print : Predicate → String
  | .compare left op right => left.print ++ " " ++ op.symbol ++ " " ++ right.print
  | .between target low high negated =>
      target.print ++ " " ++ negation negated ++ "BETWEEN " ++ low.print ++ " AND " ++ high.print
  | .like target pattern negated =>
      target.print ++ " " ++ negation negated ++ "LIKE " ++ pattern.print
  | .isNull target negated => target.print ++ " IS " ++ negation negated ++ "NULL"
  | .oneOf target values negated =>
      target.print ++ " " ++ negation negated ++ "IN (" ++ ", ".intercalate (Operand.printAll values)
        ++ ")"
  | .bare operand => operand.print
  | .unparsed text => text

def Join.print (join : Join) : String :=
  " INNER JOIN " ++ join.table ++ " ON " ++ join.left.print ++ " = " ++ join.right.print

mutual

def Expr.print : Expr → String
  | .and items => " AND ".intercalate (Expr.printAll items)
  | .or items => " OR ".intercalate (Expr.printAll items)
  | .grouped inner => "(" ++ inner.print ++ ")"
  | .not inner => "NOT " ++ inner.print
  | .exist negated query => negation negated ++ "EXISTS (" ++ query.print ++ ")"
  | .predicate p => p.print

def Expr.printAll : List Expr → List String
  | [] => []
  | item :: rest => item.print :: Expr.printAll rest

def Subquery.print : Subquery → String
  | ⟨table, joins, filter, groupBy, having⟩ =>
      "SELECT 1 FROM " ++ table ++ String.join (joins.map Join.print)
        ++ (match filter with
            | some filter => " WHERE " ++ filter.print
            | none => "")
        ++ (match groupBy with
            | some column => " GROUP BY " ++ column.print
            | none => "")
        ++ (match having with
            | some having => " HAVING " ++ having.print
            | none => "")

end

end Cohort.Sql
