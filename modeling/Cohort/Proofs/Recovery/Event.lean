import Cohort.Proofs.Recovery.Ledger
import Cohort.Proofs.Recovery.Numbers
import Cohort.Proofs.Recovery.Tree

/-!
Events and filters come back from the expressions that their clauses stand for.
-/

namespace Cohort

open Sql

/-- A fold of items that are no folds themselves is split into the items. -/
theorem split_items {combinator : Combinator} {items : List Expr} (some_ : items ≠ [])
    (kept : FoldKept combinator items.length)
    (alone : ∀ item ∈ items, splitFold item = (.and, [item])) :
    splitFold (foldItems combinator.fold items) = (combinator, items) := by
  by_cases single : items.length = 1
  · obtain ⟨item, rfl⟩ := List.length_eq_one_iff.mp single
    cases combinator with
    | and => exact alone item List.mem_cons_self
    | or => exact absurd (kept rfl) (by simp)
  · rw [fold_several single]
    cases combinator <;> rfl

theorem split_fold {combinator : Combinator} {exprs : List Expr} (some_ : exprs ≠ [])
    (kept : FoldKept combinator exprs.length) :
    splitFold (foldItems combinator.fold (exprs.map .grouped)) =
      (combinator, exprs.map .grouped) := by
  refine split_items (by simpa using some_) (by simpa using kept) fun item member => ?_
  obtain ⟨expr, _, rfl⟩ := List.mem_map.mp member
  rfl

theorem predicates_of (items : List Expr) :
    Expr.predicatesOf items = items.flatMap Expr.predicates := by
  induction items with
  | nil => rfl
  | cons item rest ih => simp [Expr.predicatesOf, ih]

theorem predicates_fold (combinator : Combinator) (items : List Expr) :
    (foldItems combinator.fold items).predicates = items.flatMap Expr.predicates := by
  rw [← predicates_of]
  by_cases single : items.length = 1
  · obtain ⟨item, rfl⟩ := List.length_eq_one_iff.mp single
    simp [foldItems, Expr.predicatesOf]
  · rw [fold_several single]
    cases combinator <;> rfl

structure Restores (table : String) (filter : Filter) (predicate : Predicate) : Prop where
  expr : filter.expr? table = some (.predicate predicate)
  named : predicateTable? predicate = some table
  free : isTie predicate = false
  span : predicate.interval? = none
  back : Gives (recoverFilter predicate) fun back =>
    ∃ found, back = some found ∧ found.withoutId = filter.collapse.withoutId

theorem restorable_restores (table : String) {filter : Filter} (restorable : filter.Restorable) :
    ∃ predicate, Restores table filter predicate := by
  obtain ⟨id, field, operator, value, value2⟩ := filter
  simp only [Filter.Restorable, Filter.isRestorable] at restorable
  split at restorable
  · refine ⟨_, rfl, rfl, rfl, rfl, ?_⟩
    exact gives_fresh.bind fun id _ => gives_pure ⟨_, rfl, rfl⟩
  · refine ⟨_, rfl, rfl, rfl, rfl, ?_⟩
    exact gives_fresh.bind fun id _ => gives_pure ⟨_, rfl, rfl⟩
  · cases restorable

theorem filters_restore (table : String) {filters : List Filter}
    (restorable : ∀ filter ∈ filters, filter.Restorable) :
    ∃ predicates, List.Forall₂ (Restores table) filters predicates := by
  induction filters with
  | nil => exact ⟨[], .nil⟩
  | cons filter filters ih =>
      obtain ⟨predicate, first⟩ := restorable_restores table (restorable filter List.mem_cons_self)
      obtain ⟨predicates, others⟩ := ih fun other member =>
        restorable other (List.mem_cons_of_mem filter member)
      exact ⟨predicate :: predicates, .cons first others⟩

section Filters

variable {table : String} {filters : List Filter} {predicates : List Predicate}
  (restores : List.Forall₂ (Restores table) filters predicates)

include restores in
theorem restored_exprs :
    (filters.map (Filter.expr? table)).reduceOption = predicates.map .predicate := by
  induction restores with
  | nil => rfl
  | cons first _ ih =>
      rw [List.map_cons, first.expr, List.reduceOption_cons_of_some, ih, List.map_cons]

include restores in
theorem restored_filters :
    Gives (recoverFilters ((predicates.map .predicate).map .grouped)) fun found =>
      found.map Filter.withoutId = filters.map fun filter => filter.collapse.withoutId := by
  induction restores with
  | nil => exact gives_pure rfl
  | cons first _ ih =>
      refine first.back.bind fun back found => ?_
      obtain ⟨filter, rfl, same⟩ := found
      refine ih.bind fun others kept => gives_pure ?_
      simp [same, kept]

include restores in
theorem restored_free (some_ : filters ≠ []) (combinator : Combinator) :
    isCorrelation (foldItems combinator.fold ((predicates.map .predicate).map .grouped)) =
      false := by
  cases restores with
  | nil => exact absurd rfl some_
  | cons first _ =>
      rw [isCorrelation, predicates_fold]
      simp [Expr.predicates, first.free]

include restores in
theorem restored_table (some_ : filters ≠ []) :
    foldTable? ((predicates.map .predicate).map .grouped) = some table := by
  cases restores with
  | nil => exact absurd rfl some_
  | cons first _ => simp [foldTable?, Expr.innermost, first.named]

include restores in
theorem restored_spans : predicates.findSome? Predicate.interval? = none := by
  induction restores with
  | nil => rfl
  | cons first _ ih => simp [first.span, ih]

end Filters

theorem kept_length {filters : List Filter} {predicates : List Predicate} {table : String}
    (restores : List.Forall₂ (Restores table) filters predicates) {combinator : Combinator}
    (kept : FoldKept combinator filters.length) :
    FoldKept combinator (predicates.map Expr.predicate).length := by
  rw [List.length_map, ← restores.length_eq]
  exact kept

section Conjuncts

variable {table : String} {filters : List Filter} {predicates : List Predicate}
  {combinator : Combinator}
  (restores : List.Forall₂ (Restores table) filters predicates) (some_ : filters ≠ [])
  (kept : FoldKept combinator filters.length)

include restores some_ in
theorem restored_some : predicates.map Expr.predicate ≠ [] := by
  rintro empty
  rw [List.map_eq_nil_iff] at empty
  subst empty
  cases restores
  exact some_ rfl

include restores some_ kept in
theorem own_conjunct (draft : EventDraft) :
    Gives (addConjunct table draft
      (.grouped (foldItems combinator.fold ((predicates.map .predicate).map .grouped))))
      fun result => result.related = draft.related ∧ result.combinator = combinator ∧
        ∃ found, result.filters = draft.filters ++ found ∧
          found.map Filter.withoutId = filters.map fun filter => filter.collapse.withoutId := by
  simp only [addConjunct, Expr.unwrap, restored_free restores some_, Bool.false_eq_true, ↓reduceIte,
    split_fold (restored_some restores some_) (kept_length restores kept),
    restored_table restores some_, Option.getD_some]
  exact (restored_filters restores).bind fun found same => gives_pure ⟨rfl, rfl, found, rfl, same⟩

include restores some_ kept in
theorem foreign_conjunct {eventTable : String} (foreign : table ≠ eventTable) (draft : EventDraft)
    (joined : ∃ related ∈ draft.related, related.dataset = table) :
    Gives (addConjunct eventTable draft
      (.grouped (foldItems combinator.fold ((predicates.map .predicate).map .grouped))))
      fun result => result.combinator = draft.combinator ∧ result.filters = draft.filters ∧
        ∃ found, result.related = addRelated table combinator found draft.related ∧
          found.map Filter.withoutId = filters.map fun filter => filter.collapse.withoutId := by
  have listed : (draft.related.any fun related => related.dataset == table) = true := by
    simpa using joined
  simp only [addConjunct, Expr.unwrap, restored_free restores some_, Bool.false_eq_true, ↓reduceIte,
    split_fold (restored_some restores some_) (kept_length restores kept),
    restored_table restores some_, Option.getD_some, foreign, listed]
  exact (restored_filters restores).bind fun found same => gives_pure ⟨rfl, rfl, found, rfl, same⟩

end Conjuncts

def Related.joined (related : Related) : Related :=
  ⟨0, related.dataset, related.joinKey, [], .and, []⟩

theorem fold_kept_none {combinator : Combinator} (kept : FoldKept combinator 0) :
    combinator = .and := by
  cases combinator with
  | and => rfl
  | or => exact absurd (kept rfl) (by simp)

theorem add_related_here {table : String} {combinator : Combinator} {filters : List Filter}
    {done rest : List Related} {related : Related}
    (others : ∀ earlier ∈ done, earlier.dataset ≠ table) (here : related.dataset = table) :
    addRelated table combinator filters (done ++ related :: rest) =
      done ++ { related with combinator, filters := related.filters ++ filters } :: rest := by
  induction done with
  | nil => simp [addRelated, here]
  | cons earlier done ih =>
      have other := others earlier List.mem_cons_self
      have behind := ih fun found member => others found (List.mem_cons_of_mem earlier member)
      simp [addRelated, other, behind]

/-- The filters of joined tables come back to the tables they were for. -/
theorem related_conjuncts {eventTable : String} {joins : List Related}
    (restorable : ∀ related ∈ joins, related.Restorable)
    (first : joins.Pairwise fun earlier later =>
      later.filters ≠ [] → earlier.dataset ≠ later.dataset)
    (foreign : ∀ related ∈ joins, related.filters ≠ [] → related.dataset ≠ eventTable)
    (draft : EventDraft) (done : List Related)
    (apart : ∀ earlier ∈ done, ∀ later ∈ joins, later.filters ≠ [] →
      earlier.dataset ≠ later.dataset)
    (listed : draft.related = done ++ joins.map Related.joined) :
    Gives (addConjuncts eventTable draft
      ((joins.map Related.expr?).reduceOption.map .grouped))
      fun result => result.combinator = draft.combinator ∧ result.filters = draft.filters ∧
        ∃ found, result.related = done ++ found ∧
          found.map Related.withoutIds = joins.map fun related => related.collapse.withoutIds := by
  -- The joins in `done` have their filters; no fold that is still to come is about their tables.
  induction joins generalizing draft done with
  | nil =>
      refine gives_pure ⟨rfl, rfl, [], ?_, rfl⟩
      simpa using listed
  | cons related joins ih =>
      have here := restorable related List.mem_cons_self
      have restorable' : ∀ other ∈ joins, other.Restorable := fun other member =>
        restorable other (List.mem_cons_of_mem related member)
      have foreign' : ∀ other ∈ joins, other.filters ≠ [] → other.dataset ≠ eventTable :=
        fun other member => foreign other (List.mem_cons_of_mem related member)
      rw [List.pairwise_cons] at first
      have apart' : ∀ filled : Related, filled.dataset = related.dataset →
          ∀ earlier ∈ done ++ [filled], ∀ later ∈ joins, later.filters ≠ [] →
            earlier.dataset ≠ later.dataset := by
        intro filled same earlier member later found some_
        rcases List.mem_append.mp member with before | now
        · exact apart earlier before later (List.mem_cons_of_mem related found) some_
        · rw [List.mem_singleton.mp now, same]
          exact first.1 later found some_
      by_cases none_ : related.filters = []
      · -- Without filters there is no conjunct, and the join is already what remains of it.
        have absent : related.expr? = none := by simp [Related.expr?, none_, foldExprs]
        have conjunction : related.combinator = .and :=
          fold_kept_none (by simpa [none_] using here.fold)
        have same : related.joined.withoutIds = related.collapse.withoutIds := by
          simp [Related.joined, Related.withoutIds, Related.collapse, none_, conjunction]
        rw [List.map_cons, absent, List.reduceOption_cons_of_none]
        refine (ih restorable' first.2 foreign' draft (done ++ [related.joined])
          (apart' related.joined rfl) (by simpa using listed)).weaken ?_
        rintro result ⟨combinator, filters, found, related_, kept⟩
        exact ⟨combinator, filters, related.joined :: found, by simpa using related_,
          by simp [same, kept]⟩
      · obtain ⟨predicates, restores⟩ := filters_restore related.dataset here.filters
        have present : related.expr? = some (foldItems related.combinator.fold
            ((predicates.map Expr.predicate).map .grouped)) := by
          have some_ := restored_some restores none_
          simp only [Related.expr?, foldExprs, restored_exprs restores]
          simpa using some_
        rw [List.map_cons, present, List.reduceOption_cons_of_some, List.map_cons, addConjuncts]
        refine (foreign_conjunct restores none_ here.fold
          (foreign related List.mem_cons_self none_) draft
          ⟨related.joined, by simp [listed], rfl⟩).bind ?_
        rintro middle ⟨combinator, filters, found, related_, kept⟩
        have earlier : ∀ other ∈ done, other.dataset ≠ related.dataset := fun other member =>
          apart other member related List.mem_cons_self none_
        have table : related.joined.dataset = related.dataset := rfl
        rw [listed, List.map_cons, add_related_here earlier table] at related_
        refine (ih restorable' first.2 foreign' middle
          (done ++ [{ related.joined with
            combinator := related.combinator, filters := related.joined.filters ++ found }])
          (apart' _ rfl) (by simpa using related_)).weaken ?_
        rintro result ⟨combinator', filters', others, behind, kept'⟩
        refine ⟨combinator'.trans combinator, filters'.trans filters, _ :: others,
          by simpa using behind, ?_⟩
        have same : found.map Filter.withoutId =
            (related.filters.map Filter.collapse).map Filter.withoutId := by
          simpa [Function.comp_def] using kept
        simp [kept', Related.joined, Related.withoutIds, Related.collapse, same]

/-- Numbering changes nothing but ids. -/
theorem numbered_fresh (joins : List Related) :
    Gives (numberRelated joins) fun found =>
      found.map Related.unnumbered = joins.map Related.unnumbered := by
  induction joins with
  | nil => exact gives_pure rfl
  | cons related joins ih =>
      refine gives_fresh.bind fun id _ => ih.bind fun others kept => gives_pure ?_
      simp [kept, Related.unnumbered]

theorem numbered_related (joins : List Related) :
    Gives (numberRelated joins) fun found =>
      found.map Related.withoutIds = joins.map Related.withoutIds := by
  refine (numbered_fresh joins).weaken fun found same => ?_
  have inner := congrArg (List.map Related.withoutIds) same
  have blind : Related.withoutIds ∘ Related.unnumbered = Related.withoutIds := rfl
  simpa only [List.map_map, blind] using inner

theorem correlation_free (source : EventSource) (outer : String) (event : Event) :
    isCorrelation (event.correlationExpr source outer) = true := by
  simp only [Event.correlationExpr]
  cases event.window? with
  | none => rfl
  | some span => rfl

/-- The first span of time of the sub-query is that of the time window. -/
theorem correlation_span (source : EventSource) (outer : String) (event : Event) :
    (event.correlationExpr source outer).predicates.findSome? Predicate.interval? =
      event.window?.map fun span => spanText span.1 span.2 := by
  simp only [Event.correlationExpr]
  cases event.window? with
  | none => rfl
  | some span => rfl

def conjunctsOf : Expr → List Expr
  | .and items => items
  | other => [other]

def EventDraft.event (draft : EventDraft) (count : Nat) (window : Option (Int × String))
    (related : List Related) (id : Nat) : Event where
  id := id
  columnKey := defaultKey
  relatedColKey := defaultKey
  eventType := .performed
  frequency := some .atLeast
  count := count
  timeValue := window.map (·.1)
  timePeriod := window.map (·.2)
  filterCombinator := draft.combinator
  filters := draft.filters.map .filter
  combinator := .and
  related := related

theorem recover_event_some {query : Subquery} {filter : Expr} (found : query.filter = some filter)
    (whole : Expr) :
    recoverEvent query whole = (do
      let count ← recoverCount query.having
      let draft ← addConjuncts query.table
        { related := query.joins.map fun join => ⟨0, join.table, join.left.name, [], .and, []⟩ }
        (conjunctsOf filter)
      let related ← numberRelated draft.related
      let id ← freshId
      pure (some (draft.event count (recoverWindow filter query.having) related id))) := by
  simp only [recoverEvent, found]
  cases filter <;> rfl

theorem selection_shape (source : EventSource) (outer : String) (event : Event) :
    ∃ filter, event.selectionExpr? source outer = some filter ∧
      conjunctsOf filter =
        (event.correlationExpr source outer ::
          (event.filterExpr? source :: event.joinable.map Related.expr?).reduceOption).map
            .grouped ∧
      filter.predicates = (event.correlationExpr source outer).predicates ++
        (event.filterExpr? source :: event.joinable.map Related.expr?).reduceOption.flatMap
          Expr.predicates := by
  simp only [Event.selectionExpr?, foldExprs, List.reduceOption_cons_of_some, List.isEmpty_cons,
    Bool.false_eq_true, ↓reduceIte, Option.some.injEq, exists_eq_left']
  generalize (event.filterExpr? source :: event.joinable.map Related.expr?).reduceOption = others
  constructor
  · cases others <;> rfl
  · simpa [Expr.predicates, Function.comp_def, List.flatMap_map] using
      predicates_fold .and ((event.correlationExpr source outer :: others).map .grouped)

def Event.having? (source : EventSource) (event : Event) : Option Predicate :=
  match event.eventType with
  | .performed => event.countExpr?
  | .firstTime => event.timeExpr? source "MIN"
  | .lastTime => event.timeExpr? source "MAX"
  | .notPerformed | .unknown => none

theorem event_expr (source : EventSource) (outer : String) {event : Event}
    (known : event.eventType ≠ .unknown) :
    ∃ negated groupBy, event.expr? source outer =
      some (.exist negated (event.query source outer groupBy (event.having? source))) := by
  simp only [Event.expr?, Event.having?]
  cases type : event.eventType with
  | performed => exact ⟨false, _, rfl⟩
  | notPerformed => exact ⟨true, _, rfl⟩
  | firstTime => exact ⟨false, _, rfl⟩
  | lastTime => exact ⟨false, _, rfl⟩
  | unknown => exact absurd type known

theorem window_not_blank {event : Event} {value : Int} {period : String}
    (window : event.window? = some (value, period)) :
    some value = event.timeValue ∧ Text.isBlankText period = false := by
  simp only [Event.window?] at window
  split at window
  · next value' period' time unit =>
      split_ifs at window with blank
      cases window
      exact ⟨time.symm, Text.trim_not_blank (by simpa using blank)⟩
  · cases window

theorem compared_count {args : List Operand} {op : Comparison} {n : Nat}
    (fits : n ≤ Decimal.maxU32) :
    Gives (recoverCount (some (.compare (.call "COUNT" args) op (.number (Decimal.numberText n)))))
      (· = n) := by
  simp only [recoverCount, count_threshold fits]
  exact gives_pure rfl

theorem uncompared_count (source : EventSource) (aggregate : String) (event : Event) :
    Gives (recoverCount (event.timeExpr? source aggregate)) (· = defaultCount) := by
  cases window : event.window? with
  | none =>
      simp only [Event.timeExpr?, window, Option.map_none]
      exact gives_pure rfl
  | some span =>
      simp only [Event.timeExpr?, window, Option.map_some]
      exact gives_pure rfl

theorem recovered_count (source : EventSource) {event : Event}
    (fits : event.count ≤ Decimal.maxU32) :
    Gives (recoverCount (event.having? source)) (· = event.comparedCount) := by
  simp only [Event.having?, Event.comparedCount]
  cases event.eventType with
  | performed =>
      simp only [Event.countExpr?]
      cases event.frequency with
      | none => exact gives_pure rfl
      | some frequency =>
          cases frequency with
          | atLeast | exactly | atMost => exact compared_count fits
          | unknown => exact gives_pure rfl
  | firstTime | lastTime => exact uncompared_count source _ event
  | notPerformed | unknown => exact gives_pure rfl

theorem having_span (source : EventSource) {event : Event} (none_ : event.window? = none) :
    (event.having? source).bind Predicate.interval? = none := by
  simp only [Event.having?]
  cases event.eventType with
  | performed =>
      simp only [Event.countExpr?]
      cases event.frequency.bind Frequency.op? <;> rfl
  | firstTime | lastTime => simp [Event.timeExpr?, none_]
  | notPerformed | unknown => rfl

/-- Filters hold no spans of time. -/
theorem restored_fold_spans {table : String} {filters : List Filter}
    (restorable : ∀ filter ∈ filters, filter.Restorable) (combinator : Combinator) :
    ∀ expr ∈ foldExprs combinator (filters.map (Filter.expr? table)),
      expr.predicates.findSome? Predicate.interval? = none := by
  intro expr found
  obtain ⟨predicates, restores⟩ := filters_restore table restorable
  simp only [foldExprs, restored_exprs restores] at found
  split_ifs at found with none_
  · cases found
  · cases found
    rw [predicates_fold, List.flatMap_map]
    simpa [Expr.predicates] using restored_spans restores

theorem selection_spans {source : EventSource} {event : Event}
    (restorable : event.Restorable source) :
    ((event.filterExpr? source :: event.joinable.map Related.expr?).reduceOption.flatMap
      Expr.predicates).findSome? Predicate.interval? = none := by
  rw [List.findSome?_eq_none_iff]
  intro predicate member
  obtain ⟨expr, found, within⟩ := List.mem_flatMap.mp member
  have free : expr.predicates.findSome? Predicate.interval? = none := by
    rw [List.reduceOption_mem_iff, List.mem_cons, List.mem_map] at found
    rcases found with own | ⟨related, joined, of_⟩
    · exact restored_fold_spans restorable.filters _ expr own.symm
    · exact restored_fold_spans (restorable.related related joined).filters _ expr of_
  exact List.findSome?_eq_none_iff.mp free predicate within

theorem recovered_window {source : EventSource} {outer : String} {event : Event}
    (restorable : event.Restorable source) {filter : Expr}
    (found : event.selectionExpr? source outer = some filter) :
    recoverWindow filter (event.having? source) = event.span? := by
  obtain ⟨filter', found', _, predicates⟩ := selection_shape source outer event
  obtain rfl : filter' = filter := Option.some.inj (found'.symm.trans found)
  simp only [recoverWindow, predicates, List.findSome?_append, correlation_span, Event.span?]
  cases window : event.window? with
  | none => simp [selection_spans restorable, having_span source window]
  | some span =>
      obtain ⟨value, period⟩ := span
      obtain ⟨time, some_⟩ := window_not_blank window
      have fits := restorable.time value (by simp [← time])
      simp [split_interval_span fits some_]

/-- The conjuncts of an event fill the draft with its filters and those of its joined tables. -/
theorem recovered_draft {source : EventSource} {outer : String} {event : Event}
    (restorable : event.Restorable source) :
    Gives (addConjuncts source.table { related := event.joinable.map Related.joined }
      ((event.correlationExpr source outer ::
        (event.filterExpr? source :: event.joinable.map Related.expr?).reduceOption).map .grouped))
      fun draft => draft.combinator = event.filterCombinator ∧
        draft.filters.map Filter.withoutId = (event.filters.filterMap Condition.filter?).map
          (fun filter => filter.collapse.withoutId) ∧
        draft.related.map Related.withoutIds =
          event.joinable.map fun related => related.collapse.withoutIds := by
  have tied : ∀ draft, addConjunct source.table draft
      (.grouped (event.correlationExpr source outer)) = pure draft := fun draft => by
    simp [addConjunct, Expr.unwrap, correlation_free]
  have rest : ∀ draft : EventDraft, draft.related = event.joinable.map Related.joined →
      Gives (addConjuncts source.table draft
        ((event.joinable.map Related.expr?).reduceOption.map .grouped))
        fun result => result.combinator = draft.combinator ∧ result.filters = draft.filters ∧
          ∃ found, result.related = found ∧ found.map Related.withoutIds =
            event.joinable.map fun related => related.collapse.withoutIds := fun draft listed =>
    related_conjuncts restorable.related restorable.first restorable.foreign draft [] (by simp)
      (by simpa using listed)
  have own := restorable.filters
  have kept := restorable.fold
  rw [List.map_cons, addConjuncts, tied, pure_bind]
  simp only [Event.filterExpr?]
  generalize event.filters.filterMap Condition.filter? = filters at own kept ⊢
  by_cases none_ : filters = []
  · subst none_
    have absent : foldExprs event.filterCombinator
        (([] : List Filter).map (Filter.expr? source.table)) = none := rfl
    rw [absent, List.reduceOption_cons_of_none]
    refine (rest _ rfl).weaken ?_
    rintro result ⟨combinator, found, related, rfl, same⟩
    exact ⟨combinator.trans (fold_kept_none kept).symm, by simp [found], same⟩
  · obtain ⟨predicates, restores⟩ := filters_restore source.table own
    have present : foldExprs event.filterCombinator (filters.map (Filter.expr? source.table)) =
        some (foldItems event.filterCombinator.fold
          ((predicates.map Expr.predicate).map .grouped)) := by
      have some_ := restored_some restores none_
      simp only [foldExprs, restored_exprs restores]
      simpa using some_
    rw [present, List.reduceOption_cons_of_some, List.map_cons, addConjuncts]
    refine (own_conjunct restores none_ kept _).bind ?_
    rintro middle ⟨listed, combinator, found, filters', same⟩
    refine (rest middle listed).weaken ?_
    rintro result ⟨combinator', filters'', related, rfl, same'⟩
    refine ⟨combinator'.trans combinator, ?_, same'⟩
    rw [filters'', filters']
    simpa using same

theorem event_without_ids (event : Event) :
    event.withoutIds = { event with
      id := 0
      filters := event.filters.map Condition.withoutIds
      related := event.related.map Related.withoutIds } := by
  have each : ∀ conditions : List Condition,
      Condition.withoutIdsOf conditions = conditions.map Condition.withoutIds := by
    intro conditions
    induction conditions with
    | nil => rfl
    | cons condition rest ih => simp [Condition.withoutIdsOf, ih]
  obtain ⟨⟩ := event
  simp [Event.withoutIds, each]

/-- A sub-query comes back as what remains of its event. -/
theorem recovered_event {source : EventSource} {outer : String} {event : Event}
    (restorable : event.Restorable source) (groupBy : Option Column) (whole : Expr) :
    Gives (recoverEvent (event.query source outer groupBy (event.having? source)) whole)
      fun back => ∃ found, back = some found ∧ found.withoutIds = event.collapse.withoutIds := by
  obtain ⟨filter, found, conjuncts, _⟩ := selection_shape source outer event
  rw [recover_event_some found]
  refine (recovered_count source restorable.count).bind ?_
  rintro count rfl
  have joined : (event.query source outer groupBy (event.having? source)).joins.map
      (fun join => (⟨0, join.table, join.left.name, [], .and, []⟩ : Related)) =
        event.joinable.map Related.joined := by
    simp [Event.query, Join.onKey, Related.joined, Function.comp_def]
  rw [joined, conjuncts]
  refine (recovered_draft restorable).bind ?_
  rintro draft ⟨combinator, filters, related⟩
  refine (numbered_related draft.related).bind fun numbered same => gives_fresh.bind
    fun id _ => gives_pure ⟨_, rfl, ?_⟩
  have window : recoverWindow filter (event.query source outer groupBy
      (event.having? source)).having = event.span? := recovered_window restorable found
  have filters' : (draft.filters.map Condition.filter).map Condition.withoutIds =
      ((event.filters.filterMap Condition.filter?).map fun filter =>
        Condition.filter filter.collapse).map Condition.withoutIds := by
    have wrapped := congrArg (List.map Condition.filter) filters
    simpa [Condition.withoutIds, Function.comp_def] using wrapped
  have related' : numbered.map Related.withoutIds =
      (event.joinable.map Related.collapse).map Related.withoutIds := by
    simpa [Function.comp_def] using same.trans related
  rw [event_without_ids, event_without_ids]
  simp only [EventDraft.event, Event.collapse, window, filters', related', combinator]

end Cohort
