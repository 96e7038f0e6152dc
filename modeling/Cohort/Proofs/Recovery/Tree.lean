import Cohort.Proofs.Condition
import Cohort.Recovery

/-!
What recovery makes of the tree behind a statement. Statements do not say everything a tree does:
`collapse` is the tree that remains, and `Restorable` are the trees of which it is recovered.
-/

namespace Cohort

open Json (Value)

def Filter.withoutId (filter : Filter) : Filter :=
  { filter with id := 0 }

def Related.unnumbered (related : Related) : Related :=
  { related with id := 0 }

def Related.withoutIds (related : Related) : Related :=
  { related with id := 0, filters := related.filters.map Filter.withoutId }

mutual

def Condition.withoutIds : Condition → Condition
  | .filter f => .filter f.withoutId
  | .event e => .event e.withoutIds

def Event.withoutIds : Event → Event
  | ⟨_, columnKey, relatedColKey, eventType, frequency, count, timeValue, timePeriod,
      filterCombinator, filters, combinator, related⟩ =>
    ⟨0, columnKey, relatedColKey, eventType, frequency, count, timeValue, timePeriod,
      filterCombinator, Condition.withoutIdsOf filters, combinator,
      related.map Related.withoutIds⟩

def Condition.withoutIdsOf : List Condition → List Condition
  | [] => []
  | condition :: rest => condition.withoutIds :: Condition.withoutIdsOf rest

end

mutual

def Member.withoutIds : Member → Member
  | .condition c => .condition c.withoutIds
  | .group g => .group g.withoutIds

def Group.withoutIds : Group → Group
  | ⟨_, combinator, members⟩ => ⟨0, combinator, Member.withoutIdsOf members⟩

def Member.withoutIdsOf : List Member → List Member
  | [] => []
  | member :: rest => member.withoutIds :: Member.withoutIdsOf rest

end

def Criteria.withoutIds (criteria : Criteria) : Criteria where
  conditions := criteria.conditions.map Condition.withoutIds
  groups := criteria.groups.map Group.withoutIds
  combinator := criteria.combinator

/-- Only `between` has a use for an upper bound. -/
def Filter.collapse (filter : Filter) : Filter :=
  match filter.operator with
  | .between => filter
  | _ => { filter with value2 := none }

def Related.collapse (related : Related) : Related :=
  { related with fields := [], filters := related.filters.map Filter.collapse }

def Event.span? (event : Event) : Option (Int × String) :=
  event.window?.map fun (value, period) => (value, " ".intercalate (Text.words period))

def Event.comparedCount (event : Event) : Nat :=
  match event.eventType, event.frequency.bind Frequency.comparison? with
  | .performed, some _ => event.count
  | _, _ => defaultCount

def Event.collapse (event : Event) : Event where
  id := event.id
  columnKey := defaultKey
  relatedColKey := defaultKey
  eventType := .performed
  frequency := some .atLeast
  count := event.comparedCount
  timeValue := event.span?.map (·.1)
  timePeriod := event.span?.map (·.2)
  filterCombinator := event.filterCombinator
  filters := (event.filters.filterMap Condition.filter?).map fun filter => .filter filter.collapse
  combinator := .and
  related := event.joinable.map Related.collapse

def Condition.collapse : Condition → Condition
  | .filter f => .filter f.collapse
  | .event e => .event e.collapse

mutual

def Member.collapse : Member → Member
  | .condition c => .condition c.collapse
  | .group g => .group g.collapse

def Group.collapse : Group → Group
  | ⟨id, combinator, members⟩ => ⟨id, combinator, Member.collapseOf members⟩

def Member.collapseOf : List Member → List Member
  | [] => []
  | member :: rest => member.collapse :: Member.collapseOf rest

end

def Condition.asGroup (condition : Condition) : Group :=
  ⟨0, .and, [.condition condition]⟩

/-- What remains of a tree: the conditions that stood on their own come first, as groups. -/
def Criteria.collapse (criteria : Criteria) : Criteria where
  conditions := []
  groups := criteria.conditions.map (fun condition => condition.collapse.asGroup)
    ++ criteria.groups.map Group.collapse
  combinator := criteria.combinator

def Filter.isRestorable (filter : Filter) : Bool :=
  match filter.operator, filter.value, filter.value2 with
  | .equals, .string _, _ => true
  | .between, .string _, some (.string _) => true
  | _, _, _ => false

def Filter.Restorable (filter : Filter) : Prop :=
  filter.isRestorable = true

instance : DecidablePred Filter.Restorable := fun filter =>
  inferInstanceAs (Decidable (filter.isRestorable = true))

/-- A fold of one item is not told from a conjunction. -/
def FoldKept (combinator : Combinator) (size : Nat) : Prop :=
  combinator = .or → 2 ≤ size

instance (combinator : Combinator) (size : Nat) : Decidable (FoldKept combinator size) :=
  inferInstanceAs (Decidable (_ → _))

structure Related.Restorable (related : Related) : Prop where
  filters : ∀ filter ∈ related.filters, filter.Restorable
  fold : FoldKept related.combinator related.filters.length

instance : DecidablePred Related.Restorable := fun related =>
  decidable_of_iff
    ((∀ filter ∈ related.filters, filter.Restorable) ∧
      FoldKept related.combinator related.filters.length)
    ⟨fun parts => ⟨parts.1, parts.2⟩, fun whole => ⟨whole.filters, whole.fold⟩⟩

structure Event.Restorable (source : EventSource) (event : Event) : Prop where
  known : event.eventType ≠ .unknown
  count : event.count ≤ Decimal.maxU32
  time : ∀ value ∈ event.timeValue, -2 ^ 63 ≤ value ∧ value < 2 ^ 63
  filters : ∀ filter ∈ event.filters.filterMap Condition.filter?, filter.Restorable
  fold : FoldKept event.filterCombinator (event.filters.filterMap Condition.filter?).length
  related : ∀ related ∈ event.joinable, related.Restorable
  /-- The filters on a table go to the first join of it. -/
  first : event.joinable.Pairwise fun earlier later =>
    later.filters ≠ [] → earlier.dataset ≠ later.dataset
  /-- The filters on the table of events go to the event. -/
  foreign : ∀ related ∈ event.joinable, related.filters ≠ [] → related.dataset ≠ source.table

instance (source : EventSource) : DecidablePred (Event.Restorable source) := fun event =>
  decidable_of_iff
    ((event.eventType ≠ .unknown ∧ event.count ≤ Decimal.maxU32 ∧
      ∀ value ∈ event.timeValue, -2 ^ 63 ≤ value ∧ value < 2 ^ 63) ∧
      ((∀ filter ∈ event.filters.filterMap Condition.filter?, filter.Restorable) ∧
        FoldKept event.filterCombinator (event.filters.filterMap Condition.filter?).length) ∧
      (∀ related ∈ event.joinable, related.Restorable) ∧
      (event.joinable.Pairwise fun earlier later =>
        later.filters ≠ [] → earlier.dataset ≠ later.dataset) ∧
      ∀ related ∈ event.joinable, related.filters ≠ [] → related.dataset ≠ source.table)
    ⟨fun ⟨⟨known, count, time⟩, ⟨filters, fold⟩, related, first, foreign⟩ =>
        ⟨known, count, time, filters, fold, related, first, foreign⟩,
      fun ⟨known, count, time, filters, fold, related, first, foreign⟩ =>
        ⟨⟨known, count, time⟩, ⟨filters, fold⟩, related, first, foreign⟩⟩

def Condition.Restorable (source : EventSource) : Condition → Prop
  | .filter f => f.Restorable
  | .event e => e.Restorable source

instance (source : EventSource) : DecidablePred (Condition.Restorable source)
  | .filter f => inferInstanceAs (Decidable f.Restorable)
  | .event e => inferInstanceAs (Decidable (e.Restorable source))

mutual

/-- Every group within the member has at least two members; parentheses around one are not told
from those around a group. -/
def Member.Branching : Member → Prop
  | .condition _ => True
  | .group g => g.Branching

def Group.Branching : Group → Prop
  | ⟨_, _, members⟩ => 2 ≤ members.length ∧ Member.AllBranching members

def Member.AllBranching : List Member → Prop
  | [] => True
  | member :: rest => member.Branching ∧ Member.AllBranching rest

end

def Group.Standing : Group → Prop
  | ⟨_, combinator, members⟩ =>
      members ≠ [] ∧ FoldKept combinator members.length ∧ Member.AllBranching members

/-- The trees that come back from their statements, up to what statements do not say. -/
structure Criteria.Restorable (source : EventSource) (criteria : Criteria) : Prop where
  conditions : ∀ condition ∈ criteria.leaves, condition.Restorable source
  groups : ∀ group ∈ criteria.groups, group.Standing
  fold : FoldKept criteria.combinator (criteria.conditions.length + criteria.groups.length)

end Cohort
