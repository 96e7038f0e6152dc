import Cohort.Proofs.Clause.Lossy

/-!
What is read of the clause of an event whose filters are of any kind. The clause falls into folds of
filters, one for each table. Blank ones are left out; every other one is read as an item of the
condition of the sub-query, in parentheses of its own.
-/

namespace Cohort

open Sql

/-- Every condition on the items of a fold is met by one of them. -/
theorem condition_met {posts : List (Expr → Prop)} {items : List Expr}
    (each : List.Forall₂ (fun post item => post item) posts items) {post : Expr → Prop}
    (member : post ∈ posts) : ∃ item ∈ items, post item := by
  induction each with
  | nil => cases member
  | @cons _ item _ _ first _ ih =>
      rcases List.mem_cons.mp member with rfl | member
      · exact ⟨item, List.mem_cons_self, first⟩
      · obtain ⟨other, found, holds⟩ := ih member
        exact ⟨other, List.mem_cons_of_mem item found, holds⟩

structure FilterFold where
  table : String
  combinator : Combinator
  filters : List Filter

namespace FilterFold

def clause (fold : FilterFold) : String :=
  foldClauses fold.combinator (fold.filters.map (Filter.clause fold.table))

def shown (fold : FilterFold) : List Filter :=
  fold.filters.filter fun filter => !Text.isBlankText (filter.clause fold.table)

def IsItem (fold : FilterFold) (item : Expr) : Prop :=
  ∃ inner, IsFold fold.combinator.fold (fold.shown.map (Filter.IsItem fold.table)) inner ∧
    item = .grouped inner

theorem clause_shown (fold : FilterFold) :
    fold.clause = (" " ++ fold.combinator.keyword ++ " ").intercalate
      ((fold.shown.map (Filter.clause fold.table)).map fun clause => "(" ++ clause ++ ")") := by
  rw [clause, foldClauses, shown, List.filter_map]
  rfl

theorem clause_empty {fold : FilterFold} (none_ : fold.shown = []) : fold.clause = "" := by
  rw [clause_shown, none_]
  rfl

theorem item {fold : FilterFold} (plain : IsPlain fold.table)
    (fields : ∀ filter ∈ fold.filters, IsPlain filter.field) (some_ : fold.shown ≠ []) :
    DenotesItem 2 fold.clause fold.IsItem := by
  have each : List.Forall₂ (DenotesItem 1) (fold.shown.map (Filter.clause fold.table))
      (fold.shown.map (Filter.IsItem fold.table)) := by
    rw [List.forall₂_map_left_iff, List.forall₂_map_right_iff, List.forall₂_same]
    intro filter member
    obtain ⟨member, shown⟩ := List.mem_filter.mp member
    exact filter_item plain (fields filter member) (by simpa using shown)
  rw [clause_shown]
  exact (items_denote fold.combinator each (by simpa using some_)).item

theorem blank {fold : FilterFold} (plain : IsPlain fold.table)
    (fields : ∀ filter ∈ fold.filters, IsPlain filter.field) :
    Text.isBlankText fold.clause = fold.shown.isEmpty := by
  by_cases none_ : fold.shown = []
  · rw [clause_empty none_, none_]
    rfl
  · rw [(item plain fields none_).not_blank]
    simpa using none_

end FilterFold

def Related.fold (related : Related) : FilterFold :=
  ⟨related.dataset, related.combinator, related.filters⟩

namespace Event

def ownFold (source : EventSource) (event : Event) : FilterFold :=
  ⟨source.table, event.filterCombinator, event.filters.filterMap Condition.filter?⟩

def folds (source : EventSource) (event : Event) : List FilterFold :=
  event.ownFold source :: event.joinable.map Related.fold

def shownFolds (source : EventSource) (event : Event) : List FilterFold :=
  (event.folds source).filter fun fold => !fold.shown.isEmpty

theorem selection_folds (source : EventSource) (outer : String) (event : Event) :
    event.selection source outer =
      "SELECT 1 FROM " ++ source.table
        ++ String.join (event.joinable.map (Related.join source.table)) ++ " WHERE "
        ++ foldClauses .and
            (event.correlation source outer :: (event.folds source).map FilterFold.clause) := by
  rw [selection_text, folds, List.map_cons, List.map_map]
  rfl

def IsSelected (source : EventSource) (outer : String) (event : Event) : Expr → Prop :=
  IsFold .and ((· = .grouped (event.correlationExpr source outer)) ::
    (event.shownFolds source).map FilterFold.IsItem)

end Event

section Events

variable {source : EventSource} (plain : source.Plain) {outer : String} (outerPlain : IsPlain outer)
  {event : Event} (named : event.Named IsPlain)

include plain named in
theorem folds_plain {fold : FilterFold} (member : fold ∈ event.folds source) :
    IsPlain fold.table ∧ ∀ filter ∈ fold.filters, IsPlain filter.field := by
  rcases List.mem_cons.mp member with rfl | member
  · exact ⟨plain.table, named.filters⟩
  · obtain ⟨related, joined, rfl⟩ := List.mem_map.mp member
    have names := named.related related joined
    exact ⟨names.dataset, names.filters⟩

theorem correlation_levels (source : EventSource) (outer : String) (event : Event) :
    (event.correlationExpr source outer).levels ≤ 2 := by
  simp only [Event.correlationExpr]
  cases event.window? with
  | none => exact Nat.zero_le 2
  | some span => exact Nat.le_succ 1

include plain outerPlain named in
theorem condition_as :
    DenotesAs 3
      (foldClauses .and
        (event.correlation source outer :: (event.folds source).map FilterFold.clause))
      (event.IsSelected source outer) := by
  have tie := ((correlation_denotes plain outerPlain named).as
    (correlation_levels source outer event)).item
  have shown : ((event.folds source).map FilterFold.clause).filter
      (fun text => !Text.isBlankText text) = (event.shownFolds source).map FilterFold.clause := by
    rw [List.filter_map, Event.shownFolds]
    refine congrArg _ (List.filter_congr fun fold member => ?_)
    obtain ⟨table, fields⟩ := folds_plain plain named member
    simp [FilterFold.blank table fields]
  have each : List.Forall₂ (DenotesItem 2)
      (event.correlation source outer :: (event.shownFolds source).map FilterFold.clause)
      ((· = .grouped (event.correlationExpr source outer)) ::
        (event.shownFolds source).map FilterFold.IsItem) := by
    refine .cons (tie.weaken ?_) ?_
    · rintro item ⟨inner, rfl, rfl⟩
      rfl
    · rw [List.forall₂_map_left_iff, List.forall₂_map_right_iff, List.forall₂_same]
      intro fold member
      obtain ⟨member, some_⟩ := List.mem_filter.mp member
      obtain ⟨table, fields⟩ := folds_plain plain named member
      exact FilterFold.item table fields (by simpa using some_)
  have kept : (event.correlation source outer :: (event.folds source).map FilterFold.clause).filter
      (fun text => !Text.isBlankText text) =
        event.correlation source outer :: (event.shownFolds source).map FilterFold.clause := by
    rw [List.filter_cons_of_pos (by simp [tie.not_blank]), shown]
  rw [foldClauses, kept]
  exact items_denote .and each (List.cons_ne_nil _ _)

include plain outerPlain named in
/-- The sub-query of an event and its closing parenthesis, with what stands behind its condition. -/
theorem selected_as {groupText havingText : String} {groupBy : Option Column}
    {having : Option Predicate}
    (groups : DenotesPart .GROUP (fun _ => readGroupBy) (· != .keyword .GROUP) 0 groupText groupBy)
    (compares : DenotesHaving havingText having) (low : havingLevels having ≤ 3) :
    ∃ ks,
      Writes (event.selection source outer ++ groupText ++ havingText ++ ")")
        (ks ++ [.mark .rparen]) ∧
      NestedWithin 3 ks ∧
      ∀ room, 3 ≤ room → ∀ negated,
        ReadsAs (readExists negated (readCondition room) (readPredicate (readOperand room)))
          (.mark .lparen :: (ks ++ [.mark .rparen]))
          (fun expr => ∃ filter, event.IsSelected source outer filter ∧
            expr = .exist negated (event.queryOf source filter groupBy having)) anyKind := by
  obtain ⟨ks, writes, nested, _, reads⟩ := condition_as plain outerPlain named
  obtain ⟨gs, hs, written, nested', nested'', whole⟩ :=
    query_read plain named writes groups compares
  have joins : NestedWithin 3 _ := (nested_joins source.table event.joinPairs).within (Nat.zero_le 3)
  have inner : NestedWithin 3 (subqueryKinds source.table event.joinPairs ks gs hs) :=
    .flat rfl (.flat rfl (.flat rfl (.flat rfl (joins.append (.flat rfl (nested.append
      ((nested'.within (Nat.zero_le 3)).append (nested''.within low))))))))
  refine ⟨_, ?_, inner, fun room enough => whole room (low.trans enough) _ (reads room enough)⟩
  simpa [Event.selection_folds] using written

include plain outerPlain named in
theorem exists_as_selected {groupText havingText : String} {groupBy : Option Column}
    {having : Option Predicate}
    (groups : DenotesPart .GROUP (fun _ => readGroupBy) (· != .keyword .GROUP) 0 groupText groupBy)
    (compares : DenotesHaving havingText having) (low : havingLevels having ≤ 3) :
    DenotesAs 4 ("EXISTS (" ++ event.selection source outer ++ groupText ++ havingText ++ ")")
      fun expr => ∃ filter, event.IsSelected source outer filter ∧
        expr = .exist false (event.queryOf source filter groupBy having) := by
  obtain ⟨ks, written, nested, reads⟩ := selected_as plain outerPlain named groups compares low
  have opening : Closed "EXISTS (" [.keyword .EXISTS, .mark .lparen] := closed_text (by decide) rfl
  refine ⟨.keyword .EXISTS :: .mark .lparen :: (ks ++ [.mark .rparen]), ?_,
    .flat rfl nested.around, by simp, fun room enough => ?_⟩
  · simpa [String.append_assoc] using opening.then written
  · obtain ⟨room, rfl⟩ : ∃ less, room = less + 1 := ⟨room - 1, by omega⟩
    have query := condition_exists_as (reads room (by omega) false)
    have condition := (recovering_as query).before fun kind (_ : endsFragment kind = true) => rfl
    exact disjunction_single_as rfl (conjunction_single_as rfl condition)

include plain outerPlain named in
theorem not_exists_as_selected :
    DenotesAs 4 ("NOT EXISTS (" ++ event.selection source outer ++ ")")
      fun expr => ∃ filter, event.IsSelected source outer filter ∧
        expr = .exist true (event.queryOf source filter none none) := by
  have alone : DenotesHaving "" none := absent_denotes rfl
  obtain ⟨ks, written, nested, reads⟩ :=
    selected_as plain outerPlain named (absent_denotes rfl) alone (Nat.zero_le 3)
  have opening : Closed "NOT EXISTS (" [.keyword .NOT, .keyword .EXISTS, .mark .lparen] :=
    closed_text (by decide) rfl
  refine ⟨.keyword .NOT :: .keyword .EXISTS :: .mark .lparen :: (ks ++ [.mark .rparen]), ?_,
    .flat rfl (.flat rfl nested.around), by simp, fun room enough => ?_⟩
  · simpa [String.append_assoc] using opening.then written
  · obtain ⟨room, rfl⟩ : ∃ less, room = less + 1 := ⟨room - 1, by omega⟩
    have query := condition_not_exists_as (reads room (by omega) true)
    have condition := (recovering_as query).before fun kind (_ : endsFragment kind = true) => rfl
    exact disjunction_single_as rfl (conjunction_single_as rfl condition)

theorem count_levels (event : Event) : havingLevels event.countExpr? ≤ 3 := by
  cases found : event.countExpr? with
  | none => exact Nat.zero_le 3
  | some having =>
      obtain ⟨op, _, rfl⟩ := Option.map_eq_some_iff.mp found
      simp [havingLevels, Predicate.levels, Operand.levels, Operand.levelsOf]

theorem time_levels (source : EventSource) (aggregate : String) (event : Event) :
    havingLevels (event.timeExpr? source aggregate) ≤ 3 := by
  cases found : event.timeExpr? source aggregate with
  | none => exact Nat.zero_le 3
  | some having =>
      obtain ⟨span, _, rfl⟩ := Option.map_eq_some_iff.mp found
      simp [havingLevels, startOf, Predicate.levels, Operand.levels, Operand.levelsOf]

def Event.IsPerformed (source : EventSource) (outer : String) (event : Event) (expr : Expr) :
    Prop :=
  ∃ filter, event.IsSelected source outer filter ∧
    expr = .exist false (event.queryOf source filter (some ⟨some source.table, event.columnKey⟩)
      event.countExpr?)

include plain outerPlain named in
theorem performed_as (performed : event.eventType = .performed) :
    DenotesAs 4 (event.clause source outer) (event.IsPerformed source outer) := by
  simp only [Event.clause, performed]
  exact exists_as_selected plain outerPlain named (group_denotes plain.table named.columnKey)
    (count_denotes event) (count_levels event)

include plain outerPlain named in
/-- The clause of an event is read as a whole, whatever its filters are. -/
theorem event_whole (known : event.eventType ≠ .unknown) :
    ∃ post, DenotesAs 4 (event.clause source outer) post := by
  have groups := group_denotes plain.table named.columnKey
  simp only [Event.clause]
  cases type : event.eventType with
  | performed =>
      exact ⟨_, exists_as_selected plain outerPlain named groups (count_denotes event)
        (count_levels event)⟩
  | notPerformed => exact ⟨_, not_exists_as_selected plain outerPlain named⟩
  | firstTime =>
      exact ⟨_, exists_as_selected plain outerPlain named groups
        (time_denotes plain event rfl (closed_text (by decide) rfl) (opens_text (by decide)))
        (time_levels source "MIN" event)⟩
  | lastTime =>
      exact ⟨_, exists_as_selected plain outerPlain named groups
        (time_denotes plain event rfl (closed_text (by decide) rfl) (opens_text (by decide)))
        (time_levels source "MAX" event)⟩
  | unknown => exact absurd type known

end Events

end Cohort
