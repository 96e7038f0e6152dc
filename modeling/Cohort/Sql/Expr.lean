import Cohort.Sql.Token

/-!
Conditions of a statement as trees. Conjunctions and disjunctions are flat lists, and parentheses
are nodes of their own, because their nesting says which part of a segment a condition belongs to.
-/

namespace Cohort.Sql

structure Column where
  table : Option String
  name : String
  deriving DecidableEq, Repr

inductive Sign where
  | plus | minus
  deriving DecidableEq, Repr

inductive Operand where
  | column (column : Column)
  | string (text : String)
  /-- Digits, an optional fraction and an optional minus in front. -/
  | number (digits : String)
  | null
  | star
  /-- The amount and the unit of a span of time, as they are written. -/
  | interval (text : String)
  | call (name : String) (args : List Operand)
  | sum (left : Operand) (sign : Sign) (right : Operand)

inductive Predicate where
  | compare (left : Operand) (op : Comparison) (right : Operand)
  | between (target low high : Operand) (negated : Bool)
  | like (target pattern : Operand) (negated : Bool)
  | isNull (target : Operand) (negated : Bool)
  | oneOf (target : Operand) (values : List Operand) (negated : Bool)
  | bare (operand : Operand)
  /-- Source text in which no condition was found. -/
  | unparsed (text : String)

structure Join where
  table : String
  left : Column
  right : Column
  deriving DecidableEq, Repr

mutual

inductive Expr where
  | and (items : List Expr)
  | or (items : List Expr)
  | grouped (inner : Expr)
  | not (inner : Expr)
  | exist (negated : Bool) (query : Subquery)
  | predicate (predicate : Predicate)

/-- The query of an `EXISTS`; what it selects does not matter. -/
structure Subquery where
  table : String
  joins : List Join
  filter : Option Expr
  groupBy : Option Column
  having : Option Predicate

end

namespace Operand

def column? : Operand → Option Column
  | column c => some c
  | _ => none

def string? : Operand → Option String
  | string text => some text
  | _ => none

mutual

def interval? : Operand → Option String
  | interval text => some text
  | call _ args => firstInterval? args
  | sum left _ right => left.interval?.or right.interval?
  | _ => none

def firstInterval? : List Operand → Option String
  | [] => none
  | operand :: rest => operand.interval?.or (firstInterval? rest)

end

end Operand

def Predicate.interval? : Predicate → Option String
  | compare left _ right => left.interval?.or right.interval?
  | _ => none

namespace Expr

/-- The expression without its outermost parentheses; only one layer is taken off. -/
def unwrap : Expr → Expr
  | grouped inner => inner
  | other => other

def innermost : Expr → Expr
  | grouped inner => inner.innermost
  | other => other

mutual

def predicates : Expr → List Predicate
  | and items => predicatesOf items
  | or items => predicatesOf items
  | grouped inner => inner.predicates
  | not inner => inner.predicates
  | exist _ _ => []
  | predicate p => [p]

def predicatesOf : List Expr → List Predicate
  | [] => []
  | item :: rest => item.predicates ++ predicatesOf rest

end

end Expr

end Cohort.Sql
