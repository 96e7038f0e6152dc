import Cohort.Clause.Event
import Cohort.Segment

/-!
The statements of a segment: the query for its members, a preview of some of them, and their
number. All three select by the same clause.
-/

namespace Cohort

def Condition.clause (source : EventSource) (table : String) : Condition → String
  | .filter f => f.clause table
  | .event e => e.clause source table

mutual

def Member.clause (source : EventSource) (table : String) : Member → String
  | .condition c => c.clause source table
  | .group g => g.clause source table

def Group.clause (source : EventSource) (table : String) : Group → String
  | ⟨_, combinator, members⟩ => foldClauses combinator (Member.clauses source table members)

def Member.clauses (source : EventSource) (table : String) : List Member → List String
  | [] => []
  | member :: rest => member.clause source table :: Member.clauses source table rest

end

def matchAll : String := "1=1"

namespace Criteria

def whereClause (source : EventSource) (table : String) (criteria : Criteria) : String :=
  let folded := foldClauses criteria.combinator
    (criteria.conditions.map (Condition.clause source table)
      ++ criteria.groups.map (Group.clause source table))
  if folded.isEmpty then matchAll else folded

def statement (source : EventSource) (dataset : String) (criteria : Criteria) : String :=
  Text.trim
    ("SELECT * FROM " ++ dataset ++ " WHERE " ++ criteria.whereClause source dataset ++ ";")

end Criteria

def Dialect.quoteName (dialect : Dialect) (name : String) : String :=
  let quote := dialect.quote
  String.ofList
    (quote :: name.toList.flatMap (fun c => if c = quote then [c, c] else [c]) ++ [quote])

namespace Criteria

def preview (source : EventSource) (dialect : Dialect) (dataset : String) (limit : Nat)
    (criteria : Criteria) : String :=
  "SELECT * FROM " ++ dialect.quoteName dataset ++ " WHERE "
    ++ criteria.whereClause source dataset ++ " LIMIT " ++ Decimal.numberText limit

def count (source : EventSource) (dialect : Dialect) (dataset : String) (criteria : Criteria) :
    String :=
  "SELECT COUNT(*) FROM " ++ dialect.quoteName dataset ++ " WHERE "
    ++ criteria.whereClause source dataset

end Criteria

def Segment.statement (source : EventSource) (segment : Segment) : String :=
  segment.criteria.statement source segment.dataset

end Cohort
