import Cohort.Proofs.Recovery.Framing
import Cohort.Proofs.Recovery.Groups

/-!
The round trip from a tree to its statement and back. What comes back is what remains of the tree;
a tree of which everything remains has the same statement again.
-/

namespace Cohort

open Sql

/-! ### Statements do not depend on ids -/

theorem filters_without_ids (conditions : List Condition) :
    (conditions.map Condition.withoutIds).filterMap Condition.filter? =
      (conditions.filterMap Condition.filter?).map Filter.withoutId := by
  induction conditions with
  | nil => rfl
  | cons condition rest ih =>
      cases condition <;>
        simp [Condition.withoutIds, Condition.filter?, List.filterMap_cons, ih]

theorem joinable_without_ids (event : Event) :
    event.withoutIds.joinable = event.joinable.map Related.withoutIds := by
  have joinable : Related.isJoinable ∘ Related.withoutIds = Related.isJoinable := rfl
  simp [Event.joinable, event_without_ids, List.filter_map, joinable]

theorem filter_clause_id (table : String) (filter : Filter) :
    filter.withoutId.clause table = filter.clause table := rfl

theorem related_clause_ids (related : Related) :
    related.withoutIds.clause = related.clause := by
  simp [Related.clause, Related.withoutIds, Function.comp_def, filter_clause_id]

theorem event_clause_ids (source : EventSource) (outer : String) (event : Event) :
    event.withoutIds.clause source outer = event.clause source outer := by
  have joinable := joinable_without_ids event
  have own : event.withoutIds.filterClause source = event.filterClause source := by
    simp only [Event.filterClause, event_without_ids, filters_without_ids, List.map_map]
    rfl
  have selection : event.withoutIds.selection source outer = event.selection source outer := by
    simp only [selection_text, joinable, own, List.map_map, Function.comp_def, related_clause_ids]
    obtain ⟨⟩ := event
    rfl
  simp only [Event.clause, selection]
  obtain ⟨⟩ := event
  rfl

theorem condition_clause_ids (source : EventSource) (table : String) (condition : Condition) :
    condition.withoutIds.clause source table = condition.clause source table := by
  cases condition with
  | filter f => rfl
  | event e => exact event_clause_ids source table e

theorem member_clause_ids (source : EventSource) (table : String) (member : Member) :
    member.withoutIds.clause source table = member.clause source table := by
  induction member using Member.induction with
  | condition c => exact condition_clause_ids source table c
  | group id combinator members ih =>
      have each := List.map_congr_left ih
      simp only [Member.withoutIds, Group.withoutIds, Member.clause, Group.clause,
        members_without_ids, clauses_map, List.map_map]
      rw [← each]
      rfl

/-- Trees that are the same up to ids have the same statement. -/
theorem statement_ids (source : EventSource) (dataset : String) {first second : Criteria}
    (same : first.withoutIds = second.withoutIds) :
    first.statement source dataset = second.statement source dataset := by
  have blind : ∀ criteria : Criteria,
      criteria.withoutIds.statement source dataset = criteria.statement source dataset := by
    intro criteria
    have conditions : criteria.withoutIds.conditions.map (Condition.clause source dataset) =
        criteria.conditions.map (Condition.clause source dataset) := by
      simp [Criteria.withoutIds, Function.comp_def, condition_clause_ids]
    have groups : criteria.withoutIds.groups.map (Group.clause source dataset) =
        criteria.groups.map (Group.clause source dataset) := by
      simp only [Criteria.withoutIds, List.map_map]
      refine List.map_congr_left fun group _ => ?_
      exact member_clause_ids source dataset (.group group)
    simp only [Criteria.statement, Criteria.whereClause, conditions, groups]
    rfl
  rw [← blind first, same, blind second]

/-- The events that recovery makes: performed at least as often as a count says, by the customer of
the default key. -/
structure Event.Default (event : Event) : Prop where
  columnKey : event.columnKey = defaultKey
  relatedColKey : event.relatedColKey = defaultKey
  eventType : event.eventType = .performed
  frequency : event.frequency = some .atLeast
  time : event.timeValue = event.span?.map (·.1)
  period : event.timePeriod = event.span?.map (·.2)
  filters : ∀ condition ∈ event.filters, ∃ filter, condition = .filter filter ∧
    filter.collapse = filter
  combinator : event.combinator = .and
  related : ∀ related ∈ event.related, related.isJoinable = true ∧ related.collapse = related

def Condition.Default : Condition → Prop
  | .filter f => f.collapse = f
  | .event e => e.Default

theorem default_filters {conditions : List Condition}
    (shape : ∀ condition ∈ conditions, ∃ filter, condition = .filter filter ∧
      filter.collapse = filter) :
    (conditions.filterMap Condition.filter?).map (fun filter => Condition.filter filter.collapse) =
      conditions := by
  induction conditions with
  | nil => rfl
  | cons condition rest ih =>
      obtain ⟨filter, rfl, same⟩ := shape condition List.mem_cons_self
      have others := ih fun other member => shape other (List.mem_cons_of_mem _ member)
      simp [Condition.filter?, same, others]

theorem default_related {event : Event}
    (shape : ∀ related ∈ event.related, related.isJoinable = true ∧ related.collapse = related) :
    event.joinable.map Related.collapse = event.related := by
  have all : event.joinable = event.related :=
    List.filter_eq_self.mpr fun related member => (shape related member).1
  rw [all, List.map_congr_left fun related member => (shape related member).2, List.map_id']

theorem default_event {event : Event} (shape : event.Default) : event.collapse = event := by
  have filters := default_filters shape.filters
  have related := default_related shape.related
  have count : event.comparedCount = event.count := by
    simp [Event.comparedCount, shape.eventType, shape.frequency, Frequency.comparison?]
  simp only [Event.collapse, filters, related, count, ← shape.time, ← shape.period]
  obtain ⟨columnKey, relatedColKey, eventType, frequency, _, _, _, combinator, _⟩ := shape
  obtain ⟨⟩ := event
  simp only at columnKey relatedColKey eventType frequency combinator
  simp only [columnKey, relatedColKey, eventType, frequency, combinator]

theorem default_condition {condition : Condition} (shape : condition.Default) :
    condition.collapse = condition := by
  cases condition with
  | filter f => exact congrArg _ shape
  | event e => exact congrArg _ (default_event shape)

theorem default_member (member : Member) (shape : ∀ c ∈ member.leaves, c.Default) :
    member.collapse = member := by
  induction member using Member.induction with
  | condition c => exact congrArg _ (default_condition (shape c (by simp [Member.leaves])))
  | group id combinator members ih =>
      have each : ∀ member ∈ members, member.collapse = member := by
        intro member found
        refine ih member found fun c leaf => shape c ?_
        simp only [Member.leaves, Group.leaves]
        exact Member.mem_leaves_of.mpr ⟨member, found, leaf⟩
      simp only [Member.collapse, Group.collapse, members_collapse]
      rw [List.map_congr_left each, List.map_id']

/-- Without conditions of its own, a tree of such events and filters remains as it is. -/
theorem default_criteria {criteria : Criteria} (grouped : criteria.conditions = [])
    (shape : ∀ c ∈ criteria.leaves, c.Default) : criteria.collapse = criteria := by
  have each : ∀ group ∈ criteria.groups, group.collapse = group := by
    intro group found
    have whole := default_member (.group group) fun c leaf => shape c
      (List.mem_append_right _ (List.mem_flatMap.mpr ⟨group, found, leaf⟩))
    simpa [Member.collapse] using whole
  obtain ⟨conditions, groups, combinator⟩ := criteria
  simp only at grouped each
  subst grouped
  simp only [Criteria.collapse, List.map_nil, List.nil_append]
  rw [List.map_congr_left each, List.map_id']

theorem restorable_readable {source : EventSource} {condition : Condition}
    (named : condition.Named IsPlain) (restorable : condition.Restorable source) :
    condition.Readable := by
  have each : ∀ filter : Filter, filter.Restorable → filter.Readable := by
    intro filter shape
    obtain ⟨id, field, operator, value, value2⟩ := filter
    simp only [Filter.Restorable, Filter.isRestorable] at shape
    split at shape
    · exact ⟨trivial, by simp, by simp⟩
    · exact ⟨trivial, by simp [Json.Value.NoExponent], by simp⟩
    · cases shape
  refine ⟨named, fun filter member => each filter ?_⟩
  cases condition with
  | filter f =>
      obtain rfl := List.mem_singleton.mp member
      exact restorable
  | event e =>
      rcases List.mem_append.mp member with own | joined
      · exact restorable.filters filter own
      · obtain ⟨related, found, within⟩ := List.mem_flatMap.mp joined
        exact (restorable.related related found).filters filter within

theorem statement_recovered {source : EventSource} (plain : source.Plain) {dataset : String}
    (datasetPlain : IsPlain dataset) {criteria : Criteria}
    (named : ∀ c ∈ criteria.leaves, c.Named IsPlain) (restorable : criteria.Restorable source)
    (shallow : nesting (criteria.whereClause source dataset) ≤ maxNesting) :
    ∃ back, Recovered.ofStatement (criteria.statement source dataset) =
        ⟨back, some dataset, []⟩ ∧
      back.withoutIds = criteria.collapse.withoutIds := by
  have denotes := where_clause_denotes plain datasetPlain fun c leaf =>
    restorable_readable (named c leaf) (restorable.conditions c leaf)
  obtain ⟨kept, same⟩ := @criteria_come_back source dataset criteria restorable {}
  refine ⟨_, ?_, same⟩
  rw [of_statement datasetPlain denotes shallow]
  exact congrArg _ kept

/-- A tree comes back from its statement as what remains of it: nothing is dropped, every condition
that stood on its own is a group, and events keep their time windows and filters. Where all of the
tree remains, the statement is the same again. -/
theorem statement_round_trip {source : EventSource} (plain : source.Plain) {dataset : String}
    (datasetPlain : IsPlain dataset) {criteria : Criteria}
    (named : ∀ c ∈ criteria.leaves, c.Named IsPlain) (restorable : criteria.Restorable source)
    (shallow : nesting (criteria.whereClause source dataset) ≤ maxNesting) :
    let back := Recovered.ofStatement (criteria.statement source dataset)
    back.dropped = [] ∧ back.dataset = some dataset ∧ back.criteria.conditions = [] ∧
      back.criteria.combinator = criteria.combinator ∧
      back.criteria.withoutIds = criteria.collapse.withoutIds ∧
      (∀ c ∈ criteria.leaves, c.Default → c.collapse = c) ∧
      (criteria.conditions = [] → (∀ c ∈ criteria.leaves, c.Default) →
        back.criteria.withoutIds = criteria.withoutIds ∧
          back.criteria.statement source dataset = criteria.statement source dataset) := by
  intro back
  obtain ⟨tree, whole, same⟩ := statement_recovered plain datasetPlain named restorable shallow
  have parts : back = ⟨tree, some dataset, []⟩ := whole
  have conditions := congrArg Criteria.conditions same
  have combinator := congrArg Criteria.combinator same
  simp only [Criteria.withoutIds, Criteria.collapse, List.map_nil, List.map_eq_nil_iff] at conditions
  rw [parts]
  refine ⟨rfl, rfl, conditions, combinator, same, fun c _ => default_condition, ?_⟩
  intro grouped shape
  have unchanged : tree.withoutIds = criteria.withoutIds := by
    rw [same, default_criteria grouped shape]
  exact ⟨unchanged, statement_ids source dataset unchanged⟩

def firstPurchase : Event where
  id := 3
  columnKey := "buyer"
  relatedColKey := "key"
  eventType := .firstTime
  frequency := some .exactly
  count := 5
  timeValue := some (-2)
  timePeriod := some " month's \t (or so) "
  filterCombinator := .or
  filters := [.filter ⟨4, "shop", .equals, .string "50%';--", none⟩,
    .filter ⟨5, "shop", .equals, .string "web", some (.bool true)⟩]
  combinator := .or
  related := [⟨6, "cards", "card", ["kind"], .and,
    [⟨7, "kind", .equals, .string "O'Brien", none⟩]⟩, ⟨8, "", "card", [], .and, []⟩]

def travellers : Criteria where
  conditions := [.filter ⟨1, "country", .equals, .string "Côte d'Ivoire", none⟩]
  groups := [⟨2, .or, [.condition (.event firstPurchase),
    .group ⟨9, .and, [.condition (.filter ⟨10, "seen", .between, .string "a", some (.string "b")⟩),
      .condition (.filter ⟨11, "city", .equals, .string ") OR (1=1", none⟩)]⟩]⟩]
  combinator := .or

theorem travellers_restorable : travellers.Restorable {} where
  conditions := by decide
  groups := by
    intro group found
    obtain rfl := List.mem_singleton.mp found
    exact ⟨by simp, by decide, trivial, ⟨by decide, trivial, trivial, trivial⟩, trivial⟩
  fold := by decide

theorem travellers_named : ∀ c ∈ travellers.leaves, c.Named IsPlain := by
  decide +kernel

theorem travellers_shallow : nesting (travellers.whereClause {} "customers") ≤ maxNesting := by
  have plain : EventSource.Plain {} := ⟨by decide, by decide⟩
  have customers : IsPlain "customers" := by decide
  have denotes := where_clause_denotes plain customers fun c leaf =>
    restorable_readable (travellers_named c leaf) (travellers_restorable.conditions c leaf)
  have levels : (travellers.expr {} "customers").levels ≤ maxNesting := by decide +kernel
  exact denotes.nesting_eq ▸ levels

theorem travellers_round_trip :
    let back := Recovered.ofStatement (travellers.statement {} "customers")
    back.dropped = [] ∧ back.dataset = some "customers" ∧
      back.criteria.withoutIds = travellers.collapse.withoutIds := by
  have plain : EventSource.Plain {} := ⟨by decide, by decide⟩
  have customers : IsPlain "customers" := by decide
  have whole := statement_round_trip plain customers travellers_named travellers_restorable
    travellers_shallow
  exact ⟨whole.1, whole.2.1, whole.2.2.2.2.1⟩

end Cohort
