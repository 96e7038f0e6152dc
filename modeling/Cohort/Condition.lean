import Cohort.Json.Value
import Cohort.Vocabulary
import Cohort.Text.Blank

/-!
Condition trees. A segment is described by filters on the columns of a customer and by
conditions on the events of a customer, combined in groups that may hold groups. Every node has an id.
-/

namespace Cohort

structure Filter where
  id : Nat
  field : String
  operator : Operator
  value : Json.Value
  /-- The upper bound; only `between` has a use for it. -/
  value2 : Option Json.Value

inductive EventType where
  | performed | notPerformed | firstTime | lastTime
  | unknown
  deriving DecidableEq, Repr

inductive Frequency where
  | atLeast | exactly | atMost
  | unknown
  deriving DecidableEq, Repr

def EventType.name : EventType → String
  | performed => "performed"
  | notPerformed => "not_performed"
  | firstTime => "first_time"
  | lastTime => "last_time"
  | unknown => "unknown"

def EventType.ofName (text : String) : EventType :=
  ([performed, notPerformed, firstTime, lastTime].find? fun type => type.name == text).getD unknown

def Frequency.name : Frequency → String
  | atLeast => "at_least"
  | exactly => "exactly"
  | atMost => "at_most"
  | unknown => "unknown"

def Frequency.ofName (text : String) : Frequency :=
  ([atLeast, exactly, atMost].find? fun frequency => frequency.name == text).getD unknown

def Frequency.comparison? : Frequency → Option String
  | atLeast => some ">="
  | exactly => some "="
  | atMost => some "<="
  | unknown => none

structure Related where
  id : Nat
  dataset : String
  joinKey : String
  fields : List String
  combinator : Combinator
  filters : List Filter

mutual

inductive Condition where
  | filter (filter : Filter)
  | event (event : Event)

structure Event where
  id : Nat
  columnKey : String
  relatedColKey : String
  eventType : EventType
  frequency : Option Frequency
  count : Nat
  timeValue : Option Int
  timePeriod : Option String
  filterCombinator : Combinator
  /-- Comparisons on the table of events; events among them say nothing. -/
  filters : List Condition
  combinator : Combinator
  related : List Related

end

mutual

inductive Member where
  | condition (condition : Condition)
  | group (group : Group)

structure Group where
  id : Nat
  combinator : Combinator
  members : List Member

end

structure Criteria where
  conditions : List Condition := []
  groups : List Group := []
  combinator : Combinator := .and

namespace Criteria

def empty : Criteria :=
  {}

def isEmpty (criteria : Criteria) : Bool :=
  criteria.conditions.isEmpty && criteria.groups.isEmpty

end Criteria

namespace Condition

def id : Condition → Nat
  | filter f => f.id
  | event e => e.id

def filter? : Condition → Option Filter
  | filter f => some f
  | event _ => none

def withId (id : Nat) : Condition → Condition
  | filter f => filter { f with id }
  | event e => event { e with id }

end Condition

def Member.id : Member → Nat
  | condition c => c.id
  | group g => g.id

def Event.window? (event : Event) : Option (Int × String) :=
  match event.timeValue, event.timePeriod with
  | some value, some period =>
      if Text.isBlankText period then none else some (value, Text.trim period)
  | _, _ => none

def maxOf : List Nat → Nat
  | [] => 0
  | n :: rest => max n (maxOf rest)

def Related.maxId (related : Related) : Nat :=
  max related.id (maxOf (related.filters.map Filter.id))

mutual

def Condition.maxId : Condition → Nat
  | .filter f => f.id
  | .event e => e.maxId

def Event.maxId : Event → Nat
  | ⟨id, _, _, _, _, _, _, _, _, filters, _, related⟩ =>
      max id (max (Condition.maxIdOf filters) (maxOf (related.map Related.maxId)))

def Condition.maxIdOf : List Condition → Nat
  | [] => 0
  | condition :: rest => max condition.maxId (Condition.maxIdOf rest)

end

mutual

def Member.maxId : Member → Nat
  | .condition c => c.maxId
  | .group g => g.maxId

def Group.maxId : Group → Nat
  | ⟨id, _, members⟩ => max id (Member.maxIdOf members)

def Member.maxIdOf : List Member → Nat
  | [] => 0
  | member :: rest => max member.maxId (Member.maxIdOf rest)

end

def Criteria.maxId (criteria : Criteria) : Nat :=
  max (Condition.maxIdOf criteria.conditions) (maxOf (criteria.groups.map Group.maxId))

end Cohort
