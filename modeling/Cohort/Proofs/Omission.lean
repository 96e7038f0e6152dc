import Cohort.Proofs.Validation

/-!
What the statement of a tree leaves out. The effective tree has only what is written out: complete
filters, events of a known type, joined tables that are filled in, and the groups that have members
left. It has the statement of the whole tree, to the letter, and all of it is in the statement.
-/

namespace Cohort

open Text (isBlankText)

instance (filter : Filter) : Decidable filter.IsComplete :=
  decidable_of_iff
    (filter.operator ≠ .unknown ∧ (filter.operator = .between → filter.value2.isSome) ∧
      (filter.operator = .containsAll → (elementsOf filter.value).isEmpty = false))
    ⟨fun parts => ⟨parts.1, parts.2.1, fun all => by simpa using parts.2.2 all⟩,
      fun whole => ⟨whole.known, whole.upper, fun all => by simpa using whole.elements all⟩⟩

def effectiveFilters (filters : List Filter) : List Filter :=
  filters.filter fun filter => filter.IsComplete

def Related.effective (related : Related) : Related :=
  { related with filters := effectiveFilters related.filters }

def Event.effective (event : Event) : Event :=
  { event with
    filters := (effectiveFilters (event.filters.filterMap Condition.filter?)).map .filter
    related := event.joinable.map Related.effective }

def Condition.effective? : Condition → Option Condition
  | .filter f => if f.IsComplete then some (.filter f) else none
  | .event e => if e.eventType = .unknown then none else some (.event e.effective)

mutual

def Member.effective? : Member → Option Member
  | .condition c => c.effective?.map .condition
  | .group g => g.effective?.map .group

def Group.effective? : Group → Option Group
  | ⟨id, combinator, members⟩ =>
      let members := Member.effectiveOf members
      if members.isEmpty then none else some ⟨id, combinator, members⟩

def Member.effectiveOf : List Member → List Member
  | [] => []
  | member :: rest => member.effective?.toList ++ Member.effectiveOf rest

end

def Criteria.effective (criteria : Criteria) : Criteria :=
  { criteria with
    conditions := criteria.conditions.filterMap Condition.effective?
    groups := criteria.groups.filterMap Group.effective? }

theorem member_effective_of (members : List Member) :
    Member.effectiveOf members = members.filterMap Member.effective? := by
  induction members with
  | nil => rfl
  | cons member rest ih =>
      rw [Member.effectiveOf, ih, List.filterMap_cons]
      cases member.effective? <;> rfl

variable {α : Type}

/-- What is kept of a part of a tree has the clause of the whole part and is shown in it; where
nothing is kept, the clause is blank. -/
inductive Omits (clause : α → String) (shown : α → Prop) (whole : α) : Option α → Prop where
  | kept {part : α} (same : clause part = clause whole) (shows : shown part) :
      Omits clause shown whole (some part)
  | gone (blank : isBlankText (clause whole) = true) : Omits clause shown whole none

section Lists

variable {clause : α → String} {shown : α → Prop} {keep : α → Option α} {items : List α}

theorem kept_shown (each : ∀ item ∈ items, Omits clause shown item (keep item)) :
    ∀ part ∈ items.filterMap keep, shown part := by
  intro part found
  obtain ⟨item, among, same⟩ := List.mem_filterMap.mp found
  have omits := each item among
  rw [same] at omits
  cases omits with
  | kept _ shown => exact shown

/-- Only blank clauses go. -/
theorem kept_clauses (each : ∀ item ∈ items, Omits clause shown item (keep item)) :
    ((items.filterMap keep).map clause).filter (fun clause => !isBlankText clause) =
      (items.map clause).filter fun clause => !isBlankText clause := by
  induction items with
  | nil => rfl
  | cons item rest ih =>
      have here := each item List.mem_cons_self
      have behind := ih fun other found => each other (List.mem_cons_of_mem item found)
      rw [List.filterMap_cons]
      generalize keep item = part at here
      cases here with
      | kept same _ => simp [List.filter_cons, same, behind]
      | gone blank => simp [blank, behind]

theorem kept_fold (combinator : Combinator)
    (each : ∀ item ∈ items, Omits clause shown item (keep item)) :
    foldClauses combinator ((items.filterMap keep).map clause) =
      foldClauses combinator (items.map clause) := by
  rw [foldClauses, kept_clauses each, foldClauses]

end Lists

section Conditions

variable (source : EventSource) (table : String)

/-- The complete filters are those of which the clause is not blank. -/
theorem effective_filters_shown (filters : List Filter) :
    effectiveFilters filters =
      filters.filter fun filter => !isBlankText (filter.clause table) := by
  refine List.filter_congr fun filter _ => ?_
  rw [Bool.eq_iff_iff]
  simpa using (filter_shown_iff table filter).symm

theorem effective_filters_filled {filters : List Filter} :
    ∀ filter ∈ effectiveFilters filters, isBlankText (filter.clause table) = false := by
  intro filter found
  exact filter_filled table (by simpa using (List.mem_filter.mp found).2)

theorem effective_filters_fold (combinator : Combinator) (filters : List Filter) :
    foldClauses combinator ((effectiveFilters filters).map (Filter.clause table)) =
      foldClauses combinator (filters.map (Filter.clause table)) := by
  rw [foldClauses, foldClauses, effective_filters_shown table, List.filter_map, List.filter_map,
    List.filter_filter]
  simp only [Function.comp_def, Bool.and_self]

theorem effective_filters_of (event : Event) :
    event.effective.filters.filterMap Condition.filter? =
      effectiveFilters (event.filters.filterMap Condition.filter?) := by
  rw [Event.effective, List.filterMap_map]
  exact List.filterMap_some

theorem joinable_effective (event : Event) :
    event.effective.joinable = event.joinable.map Related.effective := by
  simp only [Event.joinable, Event.effective, List.filter_eq_self, List.forall_mem_map]
  intro related found
  exact (List.mem_filter.mp found).2

theorem selection_effective (outer : String) (event : Event) :
    event.effective.selection source outer = event.selection source outer := by
  have own : event.effective.filterClause source = event.filterClause source := by
    rw [Event.filterClause, effective_filters_of]
    exact effective_filters_fold source.table event.filterCombinator _
  have clauses : (event.joinable.map Related.effective).map Related.clause =
      event.joinable.map Related.clause := by
    rw [List.map_map]
    refine List.map_congr_left fun related _ => ?_
    exact effective_filters_fold related.dataset related.combinator related.filters
  simp only [selection_text, joinable_effective, own, clauses, List.map_map]
  rfl

theorem event_clause_effective (outer : String) (event : Event) :
    event.effective.clause source outer = event.clause source outer := by
  rw [Event.clause, selection_effective]
  rfl

theorem related_effective_shown {related : Related} (joined : related.isJoinable = true) :
    related.effective.Shown := by
  refine ⟨joined, effective_filters_filled related.dataset, fun some_ => ?_⟩
  refine fold_filled (by simpa using some_) fun clause found => ?_
  obtain ⟨filter, among, rfl⟩ := List.mem_map.mp found
  exact effective_filters_filled related.dataset filter among

theorem event_effective_shown {event : Event} (known : event.eventType ≠ .unknown) :
    event.effective.Shown source table := by
  have filters : ∀ condition ∈ event.effective.filters, ∃ filter, condition = .filter filter ∧
      isBlankText (filter.clause source.table) = false := by
    intro condition found
    obtain ⟨filter, among, rfl⟩ := List.mem_map.mp found
    exact ⟨filter, rfl, effective_filters_filled source.table filter among⟩
  refine ⟨(event_shown_iff _ _ _).mpr known, filters, fun some_ => ?_, fun related found => ?_⟩
  · obtain ⟨condition, found⟩ := List.exists_mem_of_ne_nil _ some_
    obtain ⟨filter, own, filled⟩ := filters condition found
    exact filter_clause_filled found own filled
  · obtain ⟨joined, among, rfl⟩ := List.mem_map.mp found
    exact related_effective_shown (List.mem_filter.mp among).2

theorem condition_omits (condition : Condition) :
    Omits (Condition.clause source table) (Condition.Shown source table) condition
      condition.effective? := by
  cases condition with
  | filter f =>
      rw [Condition.effective?]
      split_ifs with complete
      · exact .kept rfl (filter_filled table complete)
      · refine .gone ?_
        rw [Condition.clause, filter_empty table complete]
        rfl
  | event e =>
      rw [Condition.effective?]
      split_ifs with unknown
      · refine .gone ?_
        simp [Condition.clause, Event.clause, unknown]
      · exact .kept (event_clause_effective source table e)
          (event_effective_shown source table unknown)

theorem Omits.into {β : Type} {clause : α → String} {clause' : β → String} {shown : α → Prop}
    {shown' : β → Prop} {whole : α} {part : Option α} (omits : Omits clause shown whole part)
    (put : α → β) (same : ∀ item, clause' (put item) = clause item)
    (shows : ∀ item, shown item → shown' (put item)) :
    Omits clause' shown' (put whole) (part.map put) := by
  cases omits with
  | kept alike shown => exact .kept (by rw [same, same, alike]) (shows _ shown)
  | gone blank => exact .gone (by rw [same, blank])

theorem member_omits (member : Member) :
    Omits (Member.clause source table) (Member.Shown source table) member member.effective? := by
  induction member using Member.induction with
  | condition c =>
      have omits := condition_omits source table c
      exact omits.into Member.condition (fun _ => rfl) fun _ => .condition
  | group id combinator members ih =>
      have shown := kept_shown ih
      have same : foldClauses combinator
          ((members.filterMap Member.effective?).map (Member.clause source table)) =
            (Member.group ⟨id, combinator, members⟩).clause source table := by
        rw [kept_fold combinator ih, Member.clause, Group.clause, clauses_map]
      rw [Member.effective?, Group.effective?, member_effective_of]
      generalize members.filterMap Member.effective? = kept at shown same
      by_cases none_ : kept = []
      · subst none_
        refine .gone ?_
        rw [← same]
        rfl
      · simp only [List.isEmpty_iff, none_, ↓reduceIte, Option.map_some]
        refine .kept ?_ (group_shown none_ shown)
        rw [← same, Member.clause, Group.clause, clauses_map]

theorem group_omits (group : Group) :
    Omits (Group.clause source table) (fun part => Member.Shown source table (.group part)) group
      group.effective? := by
  have omits := member_omits source table (.group group)
  rw [Member.effective?] at omits
  generalize group.effective? = part at omits
  cases part with
  | none =>
      cases omits with
      | gone blank => exact .gone blank
  | some part =>
      cases omits with
      | kept same shown => exact .kept same shown

end Conditions

section Statements

variable (source : EventSource) (dataset : String)

/-- A fold of clauses of which none is blank opens with a parenthesis. -/
theorem fold_opens {combinator : Combinator} {clauses : List String} (some_ : clauses ≠ [])
    (filled : ∀ clause ∈ clauses, isBlankText clause = false) :
    ∃ rest, foldClauses combinator clauses = "(" ++ rest := by
  have all : (clauses.filter fun clause => !isBlankText clause) = clauses :=
    List.filter_eq_self.mpr fun clause found => by simp [filled clause found]
  obtain ⟨first, others, rfl⟩ := List.exists_cons_of_ne_nil some_
  rw [foldClauses, all, List.map_cons]
  by_cases last : others.map (fun clause => "(" ++ clause ++ ")") = []
  · rw [last, String.intercalate_singleton, String.append_assoc]
    exact ⟨_, rfl⟩
  · rw [String.intercalate_cons_of_ne_nil last]
    simp only [String.append_assoc]
    exact ⟨_, rfl⟩

theorem effective_shown (criteria : Criteria) : criteria.effective.Shown source dataset :=
  ⟨kept_shown fun condition _ => condition_omits source dataset condition,
    kept_shown fun group _ => group_omits source dataset group⟩

theorem where_clause_effective (criteria : Criteria) :
    criteria.effective.whereClause source dataset = criteria.whereClause source dataset := by
  have conditions := kept_clauses fun condition (_ : condition ∈ criteria.conditions) =>
    condition_omits source dataset condition
  have groups := kept_clauses fun group (_ : group ∈ criteria.groups) =>
    group_omits source dataset group
  simp only [Criteria.whereClause, Criteria.effective, foldClauses, List.filter_append, conditions,
    groups]

/-- Where nothing is left out, only the empty tree has the clause that holds for every row. -/
theorem where_clause_match_all {criteria : Criteria} (shown : criteria.Shown source dataset) :
    criteria.whereClause source dataset = matchAll ↔ criteria.isEmpty = true := by
  have filled : ∀ clause ∈ criteria.conditions.map (Condition.clause source dataset) ++
      criteria.groups.map (Group.clause source dataset), isBlankText clause = false := by
    intro clause found
    rcases List.mem_append.mp found with alone | grouped
    · obtain ⟨condition, among, rfl⟩ := List.mem_map.mp alone
      exact (Member.Shown.condition (shown.conditions condition among)).clause
    · obtain ⟨group, among, rfl⟩ := List.mem_map.mp grouped
      exact (shown.groups group among).clause
  have none_ : criteria.conditions.map (Condition.clause source dataset) ++
      criteria.groups.map (Group.clause source dataset) = [] ↔ criteria.isEmpty = true := by
    simp [Criteria.isEmpty]
  rw [← none_, Criteria.whereClause]
  generalize criteria.conditions.map (Condition.clause source dataset) ++
    criteria.groups.map (Group.clause source dataset) = clauses at filled
  constructor
  · intro same
    by_contra some_
    obtain ⟨rest, opens⟩ := @fold_opens criteria.combinator clauses some_ filled
    have first := congrArg (fun text => text.toList.head?) same
    simp [opens, matchAll] at first
  · rintro rfl
    rfl

/-- The statement of a tree is that of its effective tree. Nothing of the effective tree is left out
of the statement, and the statement has the clause that holds for every row just if the effective
tree is empty. -/
theorem omission_leaves_statement (criteria : Criteria) :
    criteria.effective.statement source dataset = criteria.statement source dataset ∧
      criteria.effective.Shown source dataset ∧
      (criteria.whereClause source dataset = matchAll ↔ criteria.effective.isEmpty = true) := by
  have same := where_clause_effective source dataset criteria
  have shown := effective_shown source dataset criteria
  refine ⟨?_, shown, ?_⟩
  · rw [Criteria.statement, same, Criteria.statement]
  · rw [← same]
    exact where_clause_match_all source dataset shown

/-- A list of values without any value is all that is in a group in a group: nothing is left. -/
example : (Criteria.effective { groups := [⟨1, .or, [.group ⟨2, .and, [.condition
    (.filter ⟨3, "tags", .containsAll, .array [], none⟩)]⟩]⟩] }).isEmpty = true := by decide

end Statements

end Cohort
