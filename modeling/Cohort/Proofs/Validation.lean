import Cohort.Proofs.Clause.Shown
import Cohort.Proofs.Statement
import Cohort.Validation

/-!
What a validation without issues says about the statement: the filters in it are sound on the tables
they are written for. That nothing of the tree is left out of the statement takes a little more than
the validation asks.
-/

namespace Cohort

open Text (isBlankText)

structure Filter.IsSound (settings : Settings) (table : String) (filter : Filter) : Prop where
  known : filter.operator ≠ .unknown
  upper : filter.operator = .between → filter.value2.isSome
  field : ∀ schema, settings.schema? table = some schema →
    ∃ type, schema.lookup filter.field = some type ∧
      settings.vocabulary.allows type filter.operator = true

section Clean

variable {settings : Settings}

theorem field_clean_iff {table : String} {filter : Filter} :
    filter.fieldIssues settings table = [] ↔
      ∀ schema, settings.schema? table = some schema →
        ∃ type, schema.lookup filter.field = some type ∧
          settings.vocabulary.allows type filter.operator = true := by
  rw [Filter.fieldIssues]
  cases settings.schema? table with
  | none => simp
  | some schema => cases found : schema.lookup filter.field <;> simp [found]

theorem filter_clean_iff {table : String} {filter : Filter} :
    filter.issues settings table = [] ↔ filter.IsSound settings table := by
  constructor
  · intro clean
    by_cases unknown : filter.operator = .unknown
    · simp [Filter.issues, unknown] at clean
    · rw [Filter.issues, if_neg unknown, List.append_eq_nil_iff] at clean
      obtain ⟨bounds, field⟩ := clean
      refine ⟨unknown, fun between => ?_, field_clean_iff.mp field⟩
      by_contra missing
      simp_all
  · intro sound
    have bounds : ¬(filter.operator = .between ∧ filter.value2.isNone) := by
      rintro ⟨between, missing⟩
      have upper := sound.upper between
      simp_all
    rw [Filter.issues, if_neg sound.known, if_neg bounds, field_clean_iff.mpr sound.field]
    rfl

theorem event_clean {event : Event} (clean : event.issues settings = []) :
    event.eventType ≠ .unknown ∧
      (∀ filter ∈ event.filters.filterMap Condition.filter?,
        filter.IsSound settings settings.events.table) ∧
      ∀ related ∈ event.related, ∀ filter ∈ related.filters,
        filter.IsSound settings related.dataset := by
  simp only [Event.issues, List.append_eq_nil_iff, List.flatMap_eq_nil_iff] at clean
  obtain ⟨⟨⟨type, _⟩, own⟩, joined⟩ := clean
  refine ⟨?_, fun filter member => filter_clean_iff.mp (own filter member),
    fun related found filter member => filter_clean_iff.mp (joined related found filter member)⟩
  intro unknown
  simp [unknown] at type

theorem issues_of_members (table : String) (members : List Member) :
    Member.issuesOf settings table members = members.flatMap (Member.issues settings table) := by
  induction members with
  | nil => rfl
  | cons member rest ih => simp [Member.issuesOf, ih]

theorem group_clean {table : String} {id : Nat} {combinator : Combinator} {members : List Member}
    (clean : (Member.group ⟨id, combinator, members⟩).issues settings table = []) :
    members ≠ [] ∧ ∀ member ∈ members, member.issues settings table = [] := by
  simp only [Member.issues, Group.issues, issues_of_members, List.append_eq_nil_iff,
    List.flatMap_eq_nil_iff] at clean
  refine ⟨?_, clean.2⟩
  rintro rfl
  simp at clean

theorem member_leaves_clean {table : String} {member : Member}
    (clean : member.issues settings table = []) :
    ∀ condition ∈ member.leaves, condition.issues settings table = [] := by
  induction member using Member.induction with
  | condition c =>
      intro condition found
      obtain rfl : condition = c := by simpa [Member.leaves] using found
      exact clean
  | group id combinator members ih =>
      intro condition found
      obtain ⟨member, among, leaf⟩ := Member.mem_leaves_of.mp found
      exact ih member among ((group_clean clean).2 member among) condition leaf

theorem criteria_clean {dataset : String} {criteria : Criteria}
    (clean : criteria.issues settings dataset = []) :
    (∀ condition ∈ criteria.conditions, condition.issues settings dataset = []) ∧
      ∀ group ∈ criteria.groups, (Member.group group).issues settings dataset = [] := by
  simpa [Criteria.issues, Member.issues] using clean

theorem leaves_clean {dataset : String} {criteria : Criteria}
    (clean : criteria.issues settings dataset = []) :
    ∀ condition ∈ criteria.leaves, condition.issues settings dataset = [] := by
  obtain ⟨conditions, groups⟩ := criteria_clean clean
  intro condition found
  rcases List.mem_append.mp found with alone | grouped
  · exact conditions condition alone
  · obtain ⟨group, member, leaf⟩ := List.mem_flatMap.mp grouped
    exact member_leaves_clean (groups group member) condition leaf

end Clean

/-- The filters that are written out for a condition, each with the table it is written for. -/
def Condition.placed (source : EventSource) (table : String) : Condition → List (String × Filter)
  | .filter f => [(table, f)]
  | .event e =>
      if e.eventType = .unknown then []
      else (e.folds source).flatMap fun fold => fold.filters.map fun filter => (fold.table, filter)

def Criteria.placed (source : EventSource) (dataset : String) (criteria : Criteria) :
    List (String × Filter) :=
  criteria.leaves.flatMap (Condition.placed source dataset)

section Placed

variable {source : EventSource} {table : String}

theorem selection_stands {outer : String} {event : Event} (known : event.eventType ≠ .unknown) :
    StandsIn (event.selection source outer) (event.clause source outer) := by
  cases type : event.eventType with
  | unknown => exact absurd type known
  | notPerformed =>
      simp only [Event.clause, type]
      exact StandsIn.around _ _ _
  | _ =>
      simp only [Event.clause, type, String.append_assoc]
      exact ⟨_, _, (String.append_assoc ..).symm⟩

theorem fold_stands {outer : String} {event : Event} {fold : FilterFold}
    (member : fold ∈ event.folds source) (filled : isBlankText fold.clause = false) :
    StandsIn fold.clause (event.selection source outer) := by
  rw [Event.selection_folds]
  refine (stands_in_fold ?_ filled).trans ⟨_, "", String.append_empty.symm⟩
  exact List.mem_cons_of_mem _ (List.mem_map_of_mem member)

theorem placed_stands {condition : Condition} {place : String} {filter : Filter}
    (placed : (place, filter) ∈ condition.placed source table)
    (filled : isBlankText (filter.clause place) = false) :
    StandsIn (filter.clause place) (condition.clause source table) := by
  cases condition with
  | filter f =>
      obtain ⟨rfl, rfl⟩ : place = table ∧ filter = f := by simpa [Condition.placed] using placed
      exact StandsIn.refl _
  | event e =>
      by_cases unknown : e.eventType = .unknown
      · simp [Condition.placed, unknown] at placed
      · simp only [Condition.placed, if_neg unknown, List.mem_flatMap] at placed
        obtain ⟨fold, among, found⟩ := placed
        obtain ⟨f, member, pair⟩ := List.mem_map.mp found
        obtain ⟨rfl, rfl⟩ := Prod.mk.inj pair
        have inner : StandsIn (f.clause fold.table) fold.clause :=
          stands_in_fold (List.mem_map_of_mem member) filled
        exact (inner.trans (fold_stands among (inner.filled filled))).trans (selection_stands unknown)

theorem leaf_stands {member : Member} {condition : Condition} (leaf : condition ∈ member.leaves)
    (filled : isBlankText (condition.clause source table) = false) :
    StandsIn (condition.clause source table) (member.clause source table) := by
  induction member using Member.induction with
  | condition c =>
      obtain rfl : condition = c := by simpa [Member.leaves] using leaf
      exact StandsIn.refl _
  | group id combinator members ih =>
      obtain ⟨member, among, leaf⟩ := Member.mem_leaves_of.mp leaf
      have inner := ih member among leaf
      refine inner.trans (stands_in_fold ?_ (inner.filled filled))
      rw [clauses_map]
      exact List.mem_map_of_mem among

theorem clause_stands {criteria : Criteria} {condition : Condition}
    (leaf : condition ∈ criteria.leaves)
    (filled : isBlankText (condition.clause source table) = false) :
    StandsIn (condition.clause source table) (criteria.whereClause source table) := by
  have inner : StandsIn (condition.clause source table) (foldClauses criteria.combinator
      (criteria.conditions.map (Condition.clause source table)
        ++ criteria.groups.map (Group.clause source table))) := by
    rcases List.mem_append.mp leaf with alone | grouped
    · exact stands_in_fold (List.mem_append_left _ (List.mem_map_of_mem alone)) filled
    · obtain ⟨group, member, leaf⟩ := List.mem_flatMap.mp grouped
      have found : StandsIn (condition.clause source table) (group.clause source table) :=
        @leaf_stands source table (.group group) condition leaf filled
      exact found.trans (stands_in_fold (List.mem_append_right _ (List.mem_map_of_mem member))
        (found.filled filled))
  have some_ := inner.filled filled
  rw [Criteria.whereClause]
  split
  · next empty =>
      rw [String.isEmpty_iff.mp empty] at some_
      cases some_
  · exact inner

/-- Each of the filters is in the statement, as it is written for its table. -/
theorem placed_in_statement {criteria : Criteria} {place : String} {filter : Filter}
    (placed : (place, filter) ∈ criteria.placed source table) :
    StandsIn (filter.clause place) (criteria.statement source table) := by
  by_cases complete : filter.IsComplete
  · have filled := filter_filled place complete
    obtain ⟨condition, leaf, found⟩ := List.mem_flatMap.mp placed
    have inner := placed_stands found filled
    have clause := inner.trans (clause_stands leaf (inner.filled filled))
    rw [statement_text]
    exact clause.trans (StandsIn.around _ _ _)
  · rw [filter_empty place complete]
    exact StandsIn.empty _

end Placed

theorem placed_sound {settings : Settings} {table : String} {condition : Condition}
    (clean : condition.issues settings table = []) {place : String} {filter : Filter}
    (placed : (place, filter) ∈ condition.placed settings.events table) :
    filter.IsSound settings place := by
  cases condition with
  | filter f =>
      obtain ⟨rfl, rfl⟩ : place = table ∧ filter = f := by simpa [Condition.placed] using placed
      exact filter_clean_iff.mp clean
  | event e =>
      obtain ⟨known, own, joined⟩ := event_clean clean
      simp only [Condition.placed, if_neg known, List.mem_flatMap] at placed
      obtain ⟨fold, among, found⟩ := placed
      obtain ⟨f, member, pair⟩ := List.mem_map.mp found
      obtain ⟨rfl, rfl⟩ := Prod.mk.inj pair
      rcases List.mem_cons.mp among with rfl | among
      · exact own f member
      · obtain ⟨related, joinable, rfl⟩ := List.mem_map.mp among
        exact joined related (List.mem_filter.mp joinable).1 f member

/-- If validation has no issue with a tree, then every filter in the statement is sound on the table
that it is written for. -/
theorem clean_filters_sound {settings : Settings} {dataset : String} {criteria : Criteria}
    (clean : criteria.issues settings dataset = []) {table : String} {filter : Filter}
    (placed : (table, filter) ∈ criteria.placed settings.events dataset) :
    StandsIn (filter.clause table) (criteria.statement settings.events dataset) ∧
      filter.IsSound settings table := by
  obtain ⟨condition, leaf, found⟩ := List.mem_flatMap.mp placed
  exact ⟨placed_in_statement placed, placed_sound (leaves_clean clean condition leaf) found⟩

def shopSettings : Settings where
  schemas := [("customers", [("city", .text)]), ("items", [("price", .number)])]
  vocabulary := ⟨[(.text, [.equals, .contains])]⟩

def priceRange : Filter :=
  ⟨5, "price", .between, .number (.int 1), some (.number (.int 9))⟩

def shoppers (further : List Related) : Criteria where
  conditions := [.filter ⟨1, "city", .contains, .string "burg", none⟩]
  groups := [⟨2, .or, [.group ⟨3, .and, [.condition (.event {
    id := 4
    columnKey := "buyer"
    relatedColKey := "key"
    eventType := .performed
    frequency := some .atLeast
    count := 2
    timeValue := some 1
    timePeriod := some "month"
    filterCombinator := .and
    filters := [.filter ⟨6, "shop", .isNotNull, .null, none⟩]
    combinator := .and
    related := ⟨7, "items", "item", [], .and, [priceRange]⟩ :: further })]⟩]⟩]

def unnamed : Related :=
  ⟨8, "", "item", [], .and, [⟨9, "price", .lessThan, .number (.int 9), none⟩]⟩

theorem price_range_sound :
    (shoppers [unnamed]).issues shopSettings "customers" = [] ∧
      StandsIn (priceRange.clause "items")
        ((shoppers [unnamed]).statement shopSettings.events "customers") ∧
      priceRange.IsSound shopSettings "items" := by
  have clean : (shoppers [unnamed]).issues shopSettings "customers" = [] := by decide
  have placed : ("items", priceRange) ∈
      (shoppers [unnamed]).placed shopSettings.events "customers" :=
    .tail _ (.tail _ (.head _))
  exact ⟨clean, clean_filters_sound clean placed⟩

structure Related.Shown (related : Related) : Prop where
  joined : related.isJoinable = true
  filters : ∀ filter ∈ related.filters, isBlankText (filter.clause related.dataset) = false
  fold : related.filters ≠ [] → isBlankText related.clause = false

structure Event.Shown (source : EventSource) (outer : String) (event : Event) : Prop where
  clause : isBlankText (event.clause source outer) = false
  filters : ∀ condition ∈ event.filters, ∃ filter, condition = .filter filter ∧
    isBlankText (filter.clause source.table) = false
  fold : event.filters ≠ [] → isBlankText (event.filterClause source) = false
  related : ∀ related ∈ event.related, related.Shown

def Condition.Shown (source : EventSource) (table : String) : Condition → Prop
  | .filter f => isBlankText (f.clause table) = false
  | .event e => e.Shown source table

inductive Member.Shown (source : EventSource) (table : String) : Member → Prop
  | condition {condition : Condition} (shown : condition.Shown source table) :
      Member.Shown source table (.condition condition)
  | group {group : Group} (clause : isBlankText (group.clause source table) = false)
      (members : ∀ member ∈ group.members, Member.Shown source table member) :
      Member.Shown source table (.group group)

structure Criteria.Shown (source : EventSource) (dataset : String) (criteria : Criteria) : Prop where
  conditions : ∀ condition ∈ criteria.conditions, condition.Shown source dataset
  groups : ∀ group ∈ criteria.groups, Member.Shown source dataset (.group group)

/-- What a filter needs to be written out and validation does not ask for. -/
def Filter.HasElements (filter : Filter) : Prop :=
  filter.operator = .containsAll → elementsOf filter.value ≠ []

structure Related.IsFilled (related : Related) : Prop where
  joined : related.isJoinable = true
  filters : ∀ filter ∈ related.filters, filter.HasElements

structure Event.IsFilled (event : Event) : Prop where
  filters : ∀ condition ∈ event.filters, ∃ filter, condition = .filter filter ∧ filter.HasElements
  related : ∀ related ∈ event.related, related.IsFilled

def Condition.IsFilled : Condition → Prop
  | .filter f => f.HasElements
  | .event e => e.IsFilled

section Shown

variable {settings : Settings} {table : String}

theorem sound_shown_iff {filter : Filter} (sound : filter.IsSound settings table) :
    isBlankText (filter.clause table) = false ↔ filter.HasElements := by
  rw [filter_shown_iff]
  constructor
  · intro complete
    exact complete.elements
  · intro elements
    exact ⟨sound.known, sound.upper, elements⟩

theorem fold_filled {combinator : Combinator} {clauses : List String} (some_ : clauses ≠ [])
    (filled : ∀ clause ∈ clauses, isBlankText clause = false) :
    isBlankText (foldClauses combinator clauses) = false := by
  obtain ⟨clause, rest, rfl⟩ := List.exists_cons_of_ne_nil some_
  have first := filled clause List.mem_cons_self
  exact (stands_in_fold List.mem_cons_self first).filled first

theorem related_shown_iff {related : Related}
    (sound : ∀ filter ∈ related.filters, filter.IsSound settings related.dataset) :
    related.Shown ↔ related.IsFilled := by
  constructor
  · intro shown
    exact ⟨shown.joined, fun filter member =>
      (sound_shown_iff (sound filter member)).mp (shown.filters filter member)⟩
  · intro filled
    have filters : ∀ filter ∈ related.filters, isBlankText (filter.clause related.dataset) = false :=
      fun filter member => (sound_shown_iff (sound filter member)).mpr (filled.filters filter member)
    refine ⟨filled.joined, filters, fun some_ => fold_filled (by simpa using some_) ?_⟩
    simpa using filters

theorem filter_clause_filled {source : EventSource} {event : Event} {condition : Condition}
    {filter : Filter} (member : condition ∈ event.filters) (own : condition = .filter filter)
    (filled : isBlankText (filter.clause source.table) = false) :
    isBlankText (event.filterClause source) = false := by
  have among : filter ∈ event.filters.filterMap Condition.filter? :=
    List.mem_filterMap.mpr ⟨condition, member, by rw [own]; rfl⟩
  exact (stands_in_fold (List.mem_map_of_mem among) filled).filled filled

theorem event_shown_filled {event : Event} (clean : event.issues settings = []) :
    event.Shown settings.events table ↔ event.IsFilled := by
  obtain ⟨known, own, joined⟩ := event_clean clean
  have sound : ∀ filter, .filter filter ∈ event.filters →
      filter.IsSound settings settings.events.table := fun filter member =>
    own filter (List.mem_filterMap.mpr ⟨_, member, rfl⟩)
  constructor
  · intro shown
    refine ⟨fun condition member => ?_, fun related member =>
      (related_shown_iff (joined related member)).mp (shown.related related member)⟩
    obtain ⟨filter, rfl, filled⟩ := shown.filters condition member
    exact ⟨filter, rfl, (sound_shown_iff (sound filter member)).mp filled⟩
  · intro filled
    have filters : ∀ condition ∈ event.filters, ∃ filter, condition = .filter filter ∧
        isBlankText (filter.clause settings.events.table) = false := by
      intro condition member
      obtain ⟨filter, rfl, elements⟩ := filled.filters condition member
      exact ⟨filter, rfl, (sound_shown_iff (sound filter member)).mpr elements⟩
    refine ⟨(event_shown_iff _ _ _).mpr known, filters, fun some_ => ?_, fun related member =>
      (related_shown_iff (joined related member)).mpr (filled.related related member)⟩
    obtain ⟨condition, member⟩ := List.exists_mem_of_ne_nil _ some_
    obtain ⟨filter, filter_, clause⟩ := filters condition member
    exact filter_clause_filled member filter_ clause

theorem condition_shown_filled {condition : Condition}
    (clean : condition.issues settings table = []) :
    condition.Shown settings.events table ↔ condition.IsFilled := by
  cases condition with
  | filter f => exact sound_shown_iff (filter_clean_iff.mp clean)
  | event e => exact event_shown_filled clean

theorem Member.Shown.clause {source : EventSource} {member : Member}
    (shown : member.Shown source table) : isBlankText (member.clause source table) = false := by
  cases shown with
  | @condition c shown =>
      cases c with
      | filter f => exact shown
      | event e => exact shown.1
  | group clause _ => exact clause

/-- A group is shown if it has members and all of them are. -/
theorem group_shown {source : EventSource} {id : Nat} {combinator : Combinator}
    {members : List Member} (some_ : members ≠ [])
    (shown : ∀ member ∈ members, member.Shown source table) :
    Member.Shown source table (.group ⟨id, combinator, members⟩) := by
  refine .group ?_ shown
  rw [Group.clause, clauses_map]
  refine fold_filled (by simpa using some_) ?_
  intro clause found
  obtain ⟨member, among, rfl⟩ := List.mem_map.mp found
  exact (shown member among).clause

theorem member_shown_filled {member : Member} (clean : member.issues settings table = []) :
    member.Shown settings.events table ↔ ∀ condition ∈ member.leaves, condition.IsFilled := by
  induction member using Member.induction with
  | condition c =>
      have leaf := condition_shown_filled clean
      constructor
      · rintro (shown | _) condition found
        obtain rfl : condition = c := by simpa [Member.leaves] using found
        exact leaf.mp shown
      · intro filled
        exact .condition (leaf.mpr (filled c (by simp [Member.leaves])))
  | group id combinator members ih =>
      obtain ⟨some_, inner⟩ := group_clean clean
      constructor
      · rintro (_ | ⟨_, shown⟩) condition found
        obtain ⟨member, among, leaf⟩ := Member.mem_leaves_of.mp found
        exact (ih member among (inner member among)).mp (shown member among) condition leaf
      · intro filled
        have shown : ∀ member ∈ members, member.Shown settings.events table := fun member among =>
          (ih member among (inner member among)).mpr fun condition leaf =>
            filled condition (Member.mem_leaves_of.mpr ⟨member, among, leaf⟩)
        exact group_shown some_ shown

end Shown

/-- If validation has no issue with a tree, then nothing of the tree is left out of its statement
just if its lists of values that have to be contained are not empty, its joined tables and their
keys are filled in, and no event stands among the filters of another. -/
theorem clean_shown_iff {settings : Settings} {dataset : String} {criteria : Criteria}
    (clean : criteria.issues settings dataset = []) :
    criteria.Shown settings.events dataset ↔
      ∀ condition ∈ criteria.leaves, condition.IsFilled := by
  obtain ⟨conditions, groups⟩ := criteria_clean clean
  constructor
  · intro shown condition found
    rcases List.mem_append.mp found with alone | grouped
    · exact (condition_shown_filled (conditions condition alone)).mp
        (shown.conditions condition alone)
    · obtain ⟨group, member, leaf⟩ := List.mem_flatMap.mp grouped
      exact (member_shown_filled (groups group member)).mp (shown.groups group member) condition leaf
  · intro filled
    refine ⟨fun condition alone => (condition_shown_filled (conditions condition alone)).mpr
      (filled condition (List.mem_append_left _ alone)), fun group member => ?_⟩
    exact (member_shown_filled (groups group member)).mpr fun condition leaf =>
      filled condition (List.mem_append_right _ (List.mem_flatMap.mpr ⟨group, member, leaf⟩))

theorem shoppers_shown :
    (shoppers []).issues shopSettings "customers" = [] ∧
      (shoppers []).Shown shopSettings.events "customers" := by
  have clean : (shoppers []).issues shopSettings "customers" = [] := by decide
  refine ⟨clean, (clean_shown_iff clean).mpr ?_⟩
  intro condition found
  have leaves : condition ∈ [_, _] := found
  simp only [List.mem_cons, List.not_mem_nil, or_false] at leaves
  rcases leaves with rfl | rfl
  · simp [Condition.IsFilled, Filter.HasElements]
  · refine ⟨by simp [Filter.HasElements], ?_⟩
    intro related member
    obtain rfl : related = _ := List.mem_singleton.mp member
    exact ⟨by decide, by simp [Filter.HasElements, priceRange]⟩

def tagless : Criteria where
  conditions := [.filter ⟨1, "tags", .containsAll, .array [], none⟩]

/-- Validation has no issue with the list, and the statement is the one without any condition. -/
theorem tagless_left_out :
    tagless.issues {} "customers" = [] ∧ ¬tagless.Shown {} "customers" ∧
      tagless.statement {} "customers" = "SELECT * FROM customers WHERE 1=1;" := by
  have clean : tagless.issues {} "customers" = [] := by decide
  refine ⟨clean, ?_, by decide⟩
  intro shown
  have filled := shown.conditions _ List.mem_cons_self
  simp [Condition.Shown, Filter.clause, elementsOf, foldClauses] at filled

end Cohort
