import Cohort.Clause.Fold
import Cohort.Condition
import Cohort.Json.Printer
import Cohort.Text.Quoted

/-!
The clauses of filters. Values are written as they are: a string is a literal with its quotes
doubled, and whether a value suits its column is not asked.
-/

namespace Cohort

open Json (Value)

def renderValue : Value → String
  | .string s => Text.literal s
  | .null => "NULL"
  | .bool b => (Value.bool b).print
  | .number n => n.print
  | other => Text.literal other.print

def patternText : Value → String
  | .string s => s
  | .null => ""
  | other => other.print

def likePattern (before behind : String) (value : Value) : String :=
  Text.literal (before ++ patternText value ++ behind)

def elementsOf : Value → List Value
  | .array items => items
  | .null => []
  | other => [other]

def Filter.clause (table : String) (filter : Filter) : String :=
  let column := table ++ "." ++ filter.field
  let value := filter.value
  match filter.operator with
  | .equals | .on => column ++ " = " ++ renderValue value
  | .notEquals | .notOn => column ++ " != " ++ renderValue value
  | .contains => column ++ " LIKE " ++ likePattern "%" "%" value
  | .notContains => column ++ " NOT LIKE " ++ likePattern "%" "%" value
  | .startsWith => column ++ " LIKE " ++ likePattern "" "%" value
  | .endsWith => column ++ " LIKE " ++ likePattern "%" "" value
  | .greaterThan | .after => column ++ " > " ++ renderValue value
  | .lessThan | .before => column ++ " < " ++ renderValue value
  | .between =>
      match filter.value2 with
      | some upper => column ++ " BETWEEN " ++ renderValue value ++ " AND " ++ renderValue upper
      | none => ""
  | .relativeDaysAgo =>
      column ++ " >= DATE_SUB(CURRENT_DATE, INTERVAL " ++ renderValue value ++ " DAY)"
  | .isNull => column ++ " IS NULL"
  | .isNotNull => column ++ " IS NOT NULL"
  | .containsAll =>
      foldClauses .and
        ((elementsOf value).map fun element => column ++ " LIKE " ++ likePattern "%" "%" element)
  | .isEmpty => "JSON_LENGTH(" ++ column ++ ") = 0"
  | .isNotEmpty => "JSON_LENGTH(" ++ column ++ ") > 0"
  | .unknown => ""

end Cohort
