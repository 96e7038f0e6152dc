/-!
The operators of conditions, the types of fields, and which operators a type of field offers.
-/

namespace Cohort

inductive Combinator where
  | and | or
  deriving DecidableEq, Repr

def Combinator.keyword : Combinator → String
  | and => "AND"
  | or => "OR"

inductive Operator where
  | equals | notEquals | contains | notContains | startsWith | endsWith
  | greaterThan | lessThan | between
  | after | before | on | notOn | relativeDaysAgo
  | isNull | isNotNull | containsAll | isEmpty | isNotEmpty
  | unknown
  deriving DecidableEq, Repr

namespace Operator

def name : Operator → String
  | equals => "equals"
  | notEquals => "not_equals"
  | contains => "contains"
  | notContains => "not_contains"
  | startsWith => "starts_with"
  | endsWith => "ends_with"
  | greaterThan => "greater_than"
  | lessThan => "less_than"
  | between => "between"
  | after => "after"
  | before => "before"
  | on => "on"
  | notOn => "not_on"
  | relativeDaysAgo => "relative_days_ago"
  | isNull => "is_null"
  | isNotNull => "is_not_null"
  | containsAll => "contains_all"
  | isEmpty => "is_empty"
  | isNotEmpty => "is_not_empty"
  | unknown => "unknown"

def known : List Operator :=
  [equals, notEquals, contains, notContains, startsWith, endsWith, greaterThan, lessThan, between,
   after, before, on, notOn, relativeDaysAgo, isNull, isNotNull, containsAll, isEmpty, isNotEmpty]

def ofName (text : String) : Operator :=
  (known.find? fun operator => operator.name == text).getD unknown

def isUnary : Operator → Bool
  | isNull | isNotNull | isEmpty | isNotEmpty => true
  | _ => false

end Operator

inductive FieldType where
  | text | number | datetime | boolean | array
  deriving DecidableEq, Repr

namespace FieldType

def name : FieldType → String
  | text => "text"
  | number => "number"
  | datetime => "datetime"
  | boolean => "boolean"
  | array => "array"

def all : List FieldType :=
  [text, number, datetime, boolean, array]

def ofName? (name : String) : Option FieldType :=
  all.find? fun type => type.name == name

def rank : FieldType → Nat
  | text => 0
  | number => 1
  | datetime => 2
  | boolean => 3
  | array => 4

def operators : FieldType → List Operator
  | text =>
      [.equals, .notEquals, .contains, .notContains, .startsWith, .endsWith, .isNull, .isNotNull]
  | number => [.equals, .notEquals, .greaterThan, .lessThan, .between, .isNull, .isNotNull]
  | datetime => [.after, .before, .on, .notOn, .relativeDaysAgo, .isNull, .isNotNull]
  | boolean => [.equals, .notEquals]
  | array => [.containsAll, .isEmpty, .isNotEmpty]

end FieldType

structure Vocabulary where
  overrides : List (FieldType × List Operator) := []
  deriving DecidableEq, Repr

namespace Vocabulary

def insert (type : FieldType) (operators : List Operator) :
    List (FieldType × List Operator) → List (FieldType × List Operator)
  | [] => [(type, operators)]
  | (other, kept) :: rest =>
      if type = other then (type, operators) :: rest
      else if type.rank < other.rank then (type, operators) :: (other, kept) :: rest
      else (other, kept) :: insert type operators rest

def set (vocabulary : Vocabulary) (type : FieldType) (operators : List Operator) : Vocabulary :=
  ⟨insert type operators vocabulary.overrides⟩

def operators (vocabulary : Vocabulary) (type : FieldType) : List Operator :=
  (vocabulary.overrides.lookup type).getD type.operators

def allows (vocabulary : Vocabulary) (type : FieldType) (operator : Operator) : Bool :=
  (vocabulary.operators type).contains operator

end Vocabulary

inductive Dialect where
  | postgres | mysql
  deriving DecidableEq, Repr

namespace Dialect

def name : Dialect → String
  | postgres => "postgres"
  | mysql => "mysql"

def all : List Dialect :=
  [postgres, mysql]

def quote : Dialect → Char
  | postgres => '\x22'
  | mysql => '\x60'

end Dialect

end Cohort
