import Cohort.Clause.Filter

/-!
The clauses of events: a sub-query over the table of events, tied to the customer of the outer
query by a key.
-/

namespace Cohort

open Text (isBlankText)

structure EventSource where
  table : String := "transactions"
  timestampColumn : String := "transaction_date"
  deriving DecidableEq, Repr

def intervalLiteral (value : Int) (period : String) : String :=
  "INTERVAL '" ++ String.ofList (Json.intText value) ++ " "
    ++ String.ofList (Text.doubleQuotes period.toList) ++ "'"

def Related.isJoinable (related : Related) : Bool :=
  !isBlankText related.dataset && !isBlankText related.joinKey

def Related.join (table : String) (related : Related) : String :=
  " INNER JOIN " ++ related.dataset ++ " ON " ++ table ++ "." ++ related.joinKey ++ " = "
    ++ related.dataset ++ "." ++ related.joinKey

def Related.clause (related : Related) : String :=
  foldClauses related.combinator (related.filters.map (Filter.clause related.dataset))

namespace Event

def correlation (source : EventSource) (outer : String) (event : Event) : String :=
  source.table ++ "." ++ event.columnKey ++ " = " ++ outer ++ "." ++ event.relatedColKey
    ++ (match event.window? with
        | some (value, period) =>
            " AND " ++ source.table ++ "." ++ source.timestampColumn ++ " >= NOW() - "
              ++ intervalLiteral value period
        | none => "")

def filterClause (source : EventSource) (event : Event) : String :=
  foldClauses event.filterCombinator
    ((event.filters.filterMap Condition.filter?).map (Filter.clause source.table))

def joinable (event : Event) : List Related :=
  event.related.filter Related.isJoinable

def selection (source : EventSource) (outer : String) (event : Event) : String :=
  "SELECT 1 FROM " ++ source.table ++ String.join (event.joinable.map (Related.join source.table))
    ++ " WHERE "
    ++ foldClauses .and
        (event.correlation source outer :: event.filterClause source
          :: event.joinable.map Related.clause)

def countHaving (event : Event) : String :=
  match event.frequency.bind Frequency.comparison? with
  | some comparison =>
      " HAVING COUNT(*) " ++ comparison ++ " " ++ Decimal.numberText event.count
  | none => ""

def timeHaving (source : EventSource) (aggregate : String) (event : Event) : String :=
  match event.window? with
  | some (value, period) =>
      " HAVING " ++ aggregate ++ "(" ++ source.table ++ "." ++ source.timestampColumn
        ++ ") >= NOW() - " ++ intervalLiteral value period
  | none => ""

def clause (source : EventSource) (outer : String) (event : Event) : String :=
  let selection := event.selection source outer
  let groupBy := " GROUP BY " ++ source.table ++ "." ++ event.columnKey
  match event.eventType with
  | .performed => "EXISTS (" ++ selection ++ groupBy ++ event.countHaving ++ ")"
  | .notPerformed => "NOT EXISTS (" ++ selection ++ ")"
  | .firstTime => "EXISTS (" ++ selection ++ groupBy ++ event.timeHaving source "MIN" ++ ")"
  | .lastTime => "EXISTS (" ++ selection ++ groupBy ++ event.timeHaving source "MAX" ++ ")"
  | .unknown => ""

end Event

end Cohort
