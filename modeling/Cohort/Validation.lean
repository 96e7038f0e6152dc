import Cohort.Settings

/-!
What is doubtful about a tree under given settings. A statement is written for every tree; the
issues tell which of its conditions are left out of it or may not mean what they say.
-/

namespace Cohort

inductive Issue where
  | unknownOperator (id : Nat)
  | unknownEventType (id : Nat)
  | unknownFrequency (id : Nat)
  | operatorNotAllowed (id : Nat) (field : String) (operator : Operator) (type : FieldType)
  | unknownField (id : Nat) (table field : String)
  | missingSecondValue (id : Nat)
  | emptyGroup (id : Nat)
  deriving DecidableEq, Repr

namespace Issue

def id : Issue → Nat
  | unknownOperator id => id
  | unknownEventType id => id
  | unknownFrequency id => id
  | operatorNotAllowed id _ _ _ => id
  | unknownField id _ _ => id
  | missingSecondValue id => id
  | emptyGroup id => id

def message : Issue → String
  | unknownOperator id => "condition " ++ Decimal.numberText id ++ ": unknown operator"
  | unknownEventType id => "condition " ++ Decimal.numberText id ++ ": unknown event type"
  | unknownFrequency id => "condition " ++ Decimal.numberText id ++ ": unknown frequency"
  | operatorNotAllowed id field operator type =>
      "condition " ++ Decimal.numberText id ++ ": operator `" ++ operator.name
        ++ "` is not available for " ++ type.name ++ " field `" ++ field ++ "`"
  | unknownField id table field =>
      "condition " ++ Decimal.numberText id ++ ": `" ++ table ++ "` has no field `" ++ field ++ "`"
  | missingSecondValue id =>
      "condition " ++ Decimal.numberText id ++ ": `between` needs a second value"
  | emptyGroup id => "group " ++ Decimal.numberText id ++ " has no conditions"

end Issue

def Filter.fieldIssues (settings : Settings) (table : String) (filter : Filter) : List Issue :=
  match settings.schema? table with
  | none => []
  | some schema =>
      match schema.lookup filter.field with
      | none => [.unknownField filter.id table filter.field]
      | some type =>
          if settings.vocabulary.allows type filter.operator then []
          else [.operatorNotAllowed filter.id filter.field filter.operator type]

def Filter.issues (settings : Settings) (table : String) (filter : Filter) : List Issue :=
  if filter.operator = .unknown then [.unknownOperator filter.id]
  else
    (if filter.operator = .between ∧ filter.value2.isNone then [.missingSecondValue filter.id]
      else [])
      ++ filter.fieldIssues settings table

def Event.issues (settings : Settings) (event : Event) : List Issue :=
  (if event.eventType = .unknown then [.unknownEventType event.id] else [])
    ++ (if event.frequency = some .unknown then [.unknownFrequency event.id] else [])
    ++ (event.filters.filterMap Condition.filter?).flatMap (Filter.issues settings settings.events.table)
    ++ event.related.flatMap fun related =>
        related.filters.flatMap (Filter.issues settings related.dataset)

def Condition.issues (settings : Settings) (table : String) : Condition → List Issue
  | .filter f => f.issues settings table
  | .event e => e.issues settings

mutual

def Member.issues (settings : Settings) (table : String) : Member → List Issue
  | .condition c => c.issues settings table
  | .group g => g.issues settings table

def Group.issues (settings : Settings) (table : String) : Group → List Issue
  | ⟨id, _, members⟩ =>
      (if members.isEmpty then [.emptyGroup id] else []) ++ Member.issuesOf settings table members

def Member.issuesOf (settings : Settings) (table : String) : List Member → List Issue
  | [] => []
  | member :: rest => member.issues settings table ++ Member.issuesOf settings table rest

end

def Criteria.issues (settings : Settings) (dataset : String) (criteria : Criteria) : List Issue :=
  criteria.conditions.flatMap (Condition.issues settings dataset)
    ++ criteria.groups.flatMap (Group.issues settings dataset)

end Cohort
