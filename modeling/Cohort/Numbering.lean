import Cohort.Condition
import Cohort.Decimal.Digits

/-!
Ids. The nodes of a tree that is added are numbered from the next id on, every node behind the nodes
in it. An id has 64 bits, and the last one is never handed out, because a next one has to follow.
-/

namespace Cohort

def numberFilters : List Filter → Nat → List Filter × Nat
  | [], next => ([], next)
  | filter :: rest, next =>
      let (others, after) := numberFilters rest (next + 1)
      ({ filter with id := next } :: others, after)

def Related.number (related : Related) (next : Nat) : Related × Nat :=
  let (filters, next) := numberFilters related.filters next
  ({ related with id := next, filters }, next + 1)

def Related.numberAll : List Related → Nat → List Related × Nat
  | [], next => ([], next)
  | related :: rest, next =>
      let (first, next) := related.number next
      let (others, next) := Related.numberAll rest next
      (first :: others, next)

mutual

/-- The condition with fresh ids for the nodes in it; it keeps its own. -/
def Condition.numberWithin : Condition → Nat → Condition × Nat
  | .filter f, next => (.filter f, next)
  | .event e, next =>
      let (e, next) := e.numberWithin next
      (.event e, next)

def Event.numberWithin : Event → Nat → Event × Nat
  | ⟨id, columnKey, relatedColKey, eventType, frequency, count, timeValue, timePeriod,
      filterCombinator, filters, combinator, related⟩, next =>
      let (filters, next) := Condition.numberAll filters next
      let (related, next) := Related.numberAll related next
      (⟨id, columnKey, relatedColKey, eventType, frequency, count, timeValue, timePeriod,
        filterCombinator, filters, combinator, related⟩, next)

def Condition.numberAll : List Condition → Nat → List Condition × Nat
  | [], next => ([], next)
  | condition :: rest, next =>
      let (first, next) := condition.numberWithin next
      let (others, after) := Condition.numberAll rest (next + 1)
      (first.withId next :: others, after)

end

def Condition.number (condition : Condition) (next : Nat) : Condition × Nat :=
  let (condition, next) := condition.numberWithin next
  (condition.withId next, next + 1)

mutual

def Member.number : Member → Nat → Member × Nat
  | .condition c, next =>
      let (c, next) := c.number next
      (.condition c, next)
  | .group g, next =>
      let (g, next) := g.number next
      (.group g, next)

def Group.number : Group → Nat → Group × Nat
  | ⟨_, combinator, members⟩, next =>
      let (members, next) := Member.numberAll members next
      (⟨next, combinator, members⟩, next + 1)

def Member.numberAll : List Member → Nat → List Member × Nat
  | [], next => ([], next)
  | member :: rest, next =>
      let (first, next) := member.number next
      let (others, next) := Member.numberAll rest next
      (first :: others, next)

end

structure IdSource where
  next : Nat := 1
  deriving DecidableEq, Repr

namespace IdSource

def exhaustedMessage : String := "attempt to add with overflow"

def startingAt? (next : Nat) : Option IdSource :=
  if next ≤ Decimal.maxU64 then some ⟨next⟩ else none

def behind? (criteria : Criteria) : Option IdSource :=
  startingAt? (criteria.maxId + 1)

def assign? {α : Type} (ids : IdSource) (number : Nat → α × Nat) : Option (α × IdSource) :=
  let (result, next) := number ids.next
  (startingAt? next).map fun ids => (result, ids)

def take? (ids : IdSource) : Option (Nat × IdSource) :=
  ids.assign? fun next => (next, next + 1)

end IdSource

end Cohort
