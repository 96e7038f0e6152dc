import Mathlib
import Cohort.Statement

/-!
The conditions of a tree, the names and filters that their clauses are made of, and induction over
the members of groups.
-/

namespace Cohort

mutual

def Member.leaves : Member → List Condition
  | .condition c => [c]
  | .group g => g.leaves

def Group.leaves : Group → List Condition
  | ⟨_, _, members⟩ => Member.leavesOf members

def Member.leavesOf : List Member → List Condition
  | [] => []
  | member :: rest => member.leaves ++ Member.leavesOf rest

end

def Criteria.leaves (criteria : Criteria) : List Condition :=
  criteria.conditions ++ criteria.groups.flatMap Group.leaves

theorem member_leaves_of (members : List Member) :
    Member.leavesOf members = members.flatMap Member.leaves := by
  induction members with
  | nil => rfl
  | cons member rest ih => rw [Member.leavesOf, ih, List.flatMap_cons]

theorem Member.mem_leaves_of {members : List Member} {condition : Condition} :
    condition ∈ Member.leavesOf members ↔ ∃ member ∈ members, condition ∈ member.leaves := by
  rw [member_leaves_of, List.mem_flatMap]

theorem clauses_map (source : EventSource) (table : String) (members : List Member) :
    Member.clauses source table members = members.map (Member.clause source table) := by
  induction members with
  | nil => rfl
  | cons member rest ih => simp [Member.clauses, ih]

structure Related.Named (good : String → Prop) (related : Related) : Prop where
  dataset : good related.dataset
  joinKey : good related.joinKey
  filters : ∀ filter ∈ related.filters, good filter.field

structure Event.Named (good : String → Prop) (event : Event) : Prop where
  columnKey : good event.columnKey
  relatedColKey : good event.relatedColKey
  filters : ∀ filter ∈ event.filters.filterMap Condition.filter?, good filter.field
  related : ∀ related ∈ event.joinable, related.Named good

def Condition.Named (good : String → Prop) : Condition → Prop
  | .filter f => good f.field
  | .event e => e.Named good

instance {good : String → Prop} [DecidablePred good] : DecidablePred (Related.Named good) :=
  fun related => decidable_of_iff
    (good related.dataset ∧ good related.joinKey ∧ ∀ filter ∈ related.filters, good filter.field)
    ⟨fun parts => ⟨parts.1, parts.2.1, parts.2.2⟩,
      fun whole => ⟨whole.dataset, whole.joinKey, whole.filters⟩⟩

instance {good : String → Prop} [DecidablePred good] : DecidablePred (Event.Named good) :=
  fun event => decidable_of_iff
    (good event.columnKey ∧ good event.relatedColKey ∧
      (∀ filter ∈ event.filters.filterMap Condition.filter?, good filter.field) ∧
      ∀ related ∈ event.joinable, related.Named good)
    ⟨fun parts => ⟨parts.1, parts.2.1, parts.2.2.1, parts.2.2.2⟩,
      fun whole => ⟨whole.columnKey, whole.relatedColKey, whole.filters, whole.related⟩⟩

instance {good : String → Prop} [DecidablePred good] : DecidablePred (Condition.Named good)
  | .filter f => inferInstanceAs (Decidable (good f.field))
  | .event e => inferInstanceAs (Decidable (e.Named good))

def Condition.filters : Condition → List Filter
  | .filter f => [f]
  | .event e => e.filters.filterMap Condition.filter? ++ e.joinable.flatMap Related.filters

/-- What holds of filters, and of an event if it holds of the conditions among its filters, holds of
every condition. -/
theorem Condition.induction {motive : Condition → Prop} (filter : ∀ f, motive (.filter f))
    (event : ∀ e : Event, (∀ c ∈ e.filters, motive c) → motive (.event e)) (condition : Condition) :
    motive condition := by
  refine @Condition.rec motive (fun e => motive (.event e))
    (fun conditions => ∀ c ∈ conditions, motive c) filter (fun _ held => held) ?_ (by simp) ?_
    condition
  · intro id columnKey relatedColKey eventType frequency count timeValue timePeriod filterCombinator
      filters combinator related held
    exact event _ held
  · intro head tail first rest c found
    rcases List.mem_cons.mp found with rfl | found
    · exact first
    · exact rest c found

/-- What holds of conditions, and of a group if it holds of the members of the group, holds of
every member. -/
theorem Member.induction {motive : Member → Prop}
    (condition : ∀ c, motive (.condition c))
    (group : ∀ id combinator members, (∀ member ∈ members, motive member) →
      motive (.group ⟨id, combinator, members⟩)) (member : Member) : motive member := by
  refine @Member.rec motive (fun g => motive (.group g))
    (fun members => ∀ member ∈ members, motive member) condition (fun _ held => held)
    (fun id combinator members held => group id combinator members held) (by simp) ?_ member
  intro head tail first rest member found
  rcases List.mem_cons.mp found with rfl | found
  · exact first
  · exact rest member found

end Cohort
