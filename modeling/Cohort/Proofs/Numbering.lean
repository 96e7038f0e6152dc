import Cohort.Numbering
import Cohort.Proofs.Condition

/-!
The ids of a tree, and the ids that numbering hands out: all those from the next one on, each of
them once.
-/

namespace Cohort

def Related.ids (related : Related) : List Nat :=
  related.id :: related.filters.map Filter.id

mutual

def Condition.idsWithin : Condition → List Nat
  | .filter _ => []
  | .event e => e.idsWithin

def Event.idsWithin : Event → List Nat
  | ⟨_, _, _, _, _, _, _, _, _, filters, _, related⟩ =>
      Condition.idsOf filters ++ related.flatMap Related.ids

def Condition.idsOf : List Condition → List Nat
  | [] => []
  | condition :: rest => condition.id :: condition.idsWithin ++ Condition.idsOf rest

end

def Condition.ids (condition : Condition) : List Nat :=
  condition.id :: condition.idsWithin

mutual

def Member.ids : Member → List Nat
  | .condition c => c.ids
  | .group g => g.ids

def Group.ids : Group → List Nat
  | ⟨id, _, members⟩ => id :: Member.idsOf members

def Member.idsOf : List Member → List Nat
  | [] => []
  | member :: rest => member.ids ++ Member.idsOf rest

end

def Criteria.ids (criteria : Criteria) : List Nat :=
  Condition.idsOf criteria.conditions ++ criteria.groups.flatMap Group.ids

theorem condition_ids_of (conditions : List Condition) :
    Condition.idsOf conditions = conditions.flatMap Condition.ids := by
  induction conditions with
  | nil => rfl
  | cons condition rest ih => rw [Condition.idsOf, ih, List.flatMap_cons, Condition.ids]

theorem member_ids_of (members : List Member) :
    Member.idsOf members = members.flatMap Member.ids := by
  induction members with
  | nil => rfl
  | cons member rest ih => rw [Member.idsOf, ih, List.flatMap_cons]

theorem event_ids_within (event : Event) :
    event.idsWithin = event.filters.flatMap Condition.ids ++ event.related.flatMap Related.ids := by
  obtain ⟨⟩ := event
  rw [Event.idsWithin, condition_ids_of]

@[simp] theorem id_with_id (condition : Condition) (id : Nat) : (condition.withId id).id = id := by
  cases condition <;> rfl

@[simp] theorem ids_within_with_id (condition : Condition) (id : Nat) :
    (condition.withId id).idsWithin = condition.idsWithin := by
  cases condition with
  | filter f => rfl
  | event e =>
      obtain ⟨⟩ := e
      rfl

section Bounds

variable (bound : Nat)

theorem max_of_le {numbers : List Nat} : maxOf numbers ≤ bound ↔ ∀ n ∈ numbers, n ≤ bound := by
  induction numbers with
  | nil => simp [maxOf]
  | cons first rest ih => rw [maxOf, max_le_iff, ih, List.forall_mem_cons]

/-- A bound of lists that each have a largest number. -/
theorem max_of_parts {bound : Nat} {α : Type} {parts : List α} {largest : α → Nat} {ids : α → List Nat}
    (each : ∀ part ∈ parts, largest part ≤ bound ↔ ∀ id ∈ ids part, id ≤ bound) :
    maxOf (parts.map largest) ≤ bound ↔ ∀ id ∈ parts.flatMap ids, id ≤ bound := by
  simp only [max_of_le, List.forall_mem_map, List.forall_mem_flatMap]
  exact forall₂_congr each

theorem related_max_le (related : Related) :
    related.maxId ≤ bound ↔ ∀ id ∈ related.ids, id ≤ bound := by
  rw [Related.maxId, Related.ids, max_le_iff, max_of_le, List.forall_mem_cons]

theorem condition_max_of (conditions : List Condition) :
    Condition.maxIdOf conditions = maxOf (conditions.map Condition.maxId) := by
  induction conditions with
  | nil => rfl
  | cons condition rest ih => rw [Condition.maxIdOf, ih, List.map_cons, maxOf]

theorem member_max_of (members : List Member) :
    Member.maxIdOf members = maxOf (members.map Member.maxId) := by
  induction members with
  | nil => rfl
  | cons member rest ih => rw [Member.maxIdOf, ih, List.map_cons, maxOf]

theorem condition_max_le (condition : Condition) :
    condition.maxId ≤ bound ↔ ∀ id ∈ condition.ids, id ≤ bound := by
  induction condition using Condition.induction with
  | filter f => simp [Condition.maxId, Condition.ids, Condition.idsWithin, Condition.id]
  | event e ih =>
      have filters := max_of_parts ih
      have joins := max_of_parts fun related (_ : related ∈ e.related) =>
        related_max_le bound related
      have within := event_ids_within e
      obtain ⟨⟩ := e
      rw [Condition.maxId, Event.maxId, Condition.ids, Condition.idsWithin, within, max_le_iff,
        max_le_iff, condition_max_of, filters, joins, List.forall_mem_cons, List.forall_mem_append]
      rfl

theorem member_max_le (member : Member) :
    member.maxId ≤ bound ↔ ∀ id ∈ member.ids, id ≤ bound := by
  induction member using Member.induction with
  | condition c => exact condition_max_le bound c
  | group id combinator members ih =>
      rw [Member.maxId, Group.maxId, Member.ids, Group.ids, max_le_iff, member_max_of,
        max_of_parts ih, member_ids_of, List.forall_mem_cons]

theorem criteria_max_le (criteria : Criteria) :
    criteria.maxId ≤ bound ↔ ∀ id ∈ criteria.ids, id ≤ bound := by
  have conditions := max_of_parts fun c (_ : c ∈ criteria.conditions) =>
    condition_max_le bound c
  have groups := max_of_parts fun group (_ : group ∈ criteria.groups) =>
    member_max_le bound (.group group)
  rw [Criteria.maxId, Criteria.ids, max_le_iff, condition_max_of, conditions, condition_ids_of,
    List.forall_mem_append]
  exact and_congr_right fun _ => groups

end Bounds

theorem criteria_ids_le (criteria : Criteria) : ∀ id ∈ criteria.ids, id ≤ criteria.maxId :=
  (criteria_max_le _ criteria).mp le_rfl

/-- The ids are those from `next` up to the one in front of `after`, each of them once. -/
def Numbered (next : Nat) (ids : List Nat) (after : Nat) : Prop :=
  next ≤ after ∧ ids.Perm (List.range' next (after - next))

theorem numbered_none (next : Nat) : Numbered next [] next := by
  simp [Numbered]

theorem Numbered.perm {next after : Nat} {ids ids' : List Nat} (numbered : Numbered next ids after)
    (same : ids'.Perm ids) : Numbered next ids' after :=
  ⟨numbered.1, same.trans numbered.2⟩

theorem Numbered.append {next middle after : Nat} {ids ids' : List Nat}
    (first : Numbered next ids middle) (second : Numbered middle ids' after) :
    Numbered next (ids ++ ids') after := by
  obtain ⟨le, perm⟩ := first
  obtain ⟨le', perm'⟩ := second
  refine ⟨le.trans le', (perm.append perm').trans ?_⟩
  have joined := @List.range'_append next (middle - next) (after - middle) 1
  rw [Nat.one_mul, Nat.add_sub_cancel' le] at joined
  rw [joined, show middle - next + (after - middle) = after - next by omega]

theorem numbered_single (next : Nat) : Numbered next [next] (next + 1) := by
  simp [Numbered]

theorem Numbered.root {next after : Nat} {ids : List Nat} (within : Numbered next ids after) :
    Numbered next (after :: ids) (after + 1) :=
  (within.append (numbered_single after)).perm (List.perm_append_singleton after ids).symm

theorem Numbered.mem_iff {next after : Nat} {ids : List Nat} (numbered : Numbered next ids after)
    (id : Nat) : id ∈ ids ↔ next ≤ id ∧ id < after := by
  have le := numbered.1
  rw [numbered.2.mem_iff, List.mem_range'_1]
  omega

theorem Numbered.nodup {next after : Nat} {ids : List Nat} (numbered : Numbered next ids after) :
    ids.Nodup :=
  numbered.2.nodup_iff.mpr List.nodup_range'

theorem Numbered.length {next after : Nat} {ids : List Nat} (numbered : Numbered next ids after) :
    next + ids.length = after := by
  rw [numbered.2.length_eq, List.length_range', Nat.add_sub_cancel' numbered.1]

/-- The largest id of a tree with as many nodes as ids from one on. -/
theorem numbered_max {criteria : Criteria} {after : Nat}
    (numbered : Numbered 1 criteria.ids after) : criteria.maxId = criteria.ids.length := by
  have length := numbered.length
  refine le_antisymm ((criteria_max_le _ criteria).mpr fun id found => ?_) ?_
  · have := (numbered.mem_iff id).mp found
    omega
  · by_cases none_ : criteria.ids.length = 0
    · omega
    · exact criteria_ids_le criteria _ ((numbered.mem_iff _).mpr (by omega))

theorem numbered_filters (filters : List Filter) (next : Nat) :
    Numbered next ((numberFilters filters next).1.map Filter.id) (numberFilters filters next).2 := by
  induction filters generalizing next with
  | nil => exact numbered_none next
  | cons filter rest ih => exact (numbered_single next).append (ih (next + 1))

theorem numbered_joined (related : Related) (next : Nat) :
    Numbered next (related.number next).1.ids (related.number next).2 :=
  (numbered_filters related.filters next).root

theorem numbered_joins (related : List Related) (next : Nat) :
    Numbered next ((Related.numberAll related next).1.flatMap Related.ids)
      (Related.numberAll related next).2 := by
  induction related generalizing next with
  | nil => exact numbered_none next
  | cons first rest ih => exact (numbered_joined first next).append (ih _)

theorem numbered_conditions {conditions : List Condition}
    (each : ∀ c ∈ conditions, ∀ next,
      Numbered next (c.numberWithin next).1.idsWithin (c.numberWithin next).2) (next : Nat) :
    Numbered next (Condition.idsOf (Condition.numberAll conditions next).1)
      (Condition.numberAll conditions next).2 := by
  induction conditions generalizing next with
  | nil => exact numbered_none next
  | cons condition rest ih =>
      have within := each condition List.mem_cons_self next
      have behind := ih (fun c found => each c (List.mem_cons_of_mem _ found))
        ((condition.numberWithin next).2 + 1)
      simp only [Condition.numberAll, Condition.idsOf, id_with_id, ids_within_with_id]
      exact within.root.append behind

theorem numbered_within (condition : Condition) (next : Nat) :
    Numbered next (condition.numberWithin next).1.idsWithin (condition.numberWithin next).2 := by
  induction condition using Condition.induction generalizing next with
  | filter f => exact numbered_none next
  | event e ih =>
      have filters := numbered_conditions ih next
      obtain ⟨⟩ := e
      exact filters.append (numbered_joins _ _)

theorem numbered_condition (condition : Condition) (next : Nat) :
    Numbered next (condition.number next).1.ids (condition.number next).2 := by
  simp only [Condition.number, Condition.ids, id_with_id, ids_within_with_id]
  exact (numbered_within condition next).root

theorem numbered_members {members : List Member}
    (each : ∀ m ∈ members, ∀ next, Numbered next (m.number next).1.ids (m.number next).2)
    (next : Nat) :
    Numbered next (Member.idsOf (Member.numberAll members next).1)
      (Member.numberAll members next).2 := by
  induction members generalizing next with
  | nil => exact numbered_none next
  | cons first rest ih =>
      have behind := ih fun m found => each m (List.mem_cons_of_mem _ found)
      exact (each first List.mem_cons_self next).append (behind _)

theorem numbered_member (member : Member) (next : Nat) :
    Numbered next (member.number next).1.ids (member.number next).2 := by
  induction member using Member.induction generalizing next with
  | condition c => exact numbered_condition c next
  | group id combinator members ih => exact (numbered_members ih next).root

end Cohort
