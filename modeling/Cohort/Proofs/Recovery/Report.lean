import Cohort.Proofs.Recovery.Literals
import Cohort.Proofs.Recovery.Subquery

/-!
The report on an event is honest. If nothing is reported of the clause of an event, every filter
that is in the clause comes back, and the event that comes back has the same clause again. Filters
whose clause is taken for a tie are the exception: a fold of nothing else is passed over in silence.
-/

namespace Cohort

open Sql

/-- Whether the clause of a filter is taken for a tie: it compares its column with a truth value,
which is read as a column, or with a span of days. -/
def Filter.isTied (filter : Filter) : Bool :=
  match filter.operator, filter.value with
  | .equals, .bool _ | .on, .bool _ => true
  | .relativeDaysAgo, value => decide (value.NoExponent ∧ value.IsAmount)
  | _, _ => false

/-- Whether a predicate is left out or comes back as a filter, but is not reported. -/
def Sql.Predicate.isQuiet (predicate : Predicate) : Bool :=
  isMatchAll predicate || predicate.atom?.isSome

/-- The clause of a filter holds a predicate that is quiet only if the filter is a literal, and a
tie only if the filter is tied. -/
theorem item_predicate {table : String} {filter : Filter} {item : Expr}
    (is : filter.IsItem table item) :
    ∃ p ∈ item.predicates, (p.isQuiet = true → filter.literal?.isSome = true) ∧
      (filter.isTied = false → isTie p = false) := by
  -- What is not read back as it was meant starts with a fragment, which is neither.
  rcases is with ⟨legible, expr, found, rfl⟩ | ⟨_, text, rest, starts⟩
  · obtain ⟨id, field, operator, value, value2⟩ := filter
    cases operator with
    | equals | on =>
        obtain rfl := Option.some.inj found
        refine ⟨_, List.mem_singleton.mpr rfl, ?_, ?_⟩
        · cases value <;> simp [Predicate.isQuiet, isMatchAll, Predicate.atom?, operandOf,
            Filter.literal?, Json.Value.quoted?]
        · cases value <;> simp [Filter.isTied, isTie, operandOf, Predicate.interval?,
            Operand.interval?]
    | between =>
        obtain ⟨upper, rfl, rfl⟩ := Option.map_eq_some_iff.mp found
        refine ⟨_, List.mem_singleton.mpr rfl, ?_, fun _ => rfl⟩
        cases value <;> cases upper <;> simp [Predicate.isQuiet, isMatchAll, Predicate.atom?,
          operandOf, Filter.literal?, Json.Value.quoted?]
    | relativeDaysAgo =>
        obtain rfl := Option.some.inj found
        refine ⟨_, List.mem_singleton.mpr rfl, by rintro ⟨⟩, fun untied => ?_⟩
        simp [Filter.isTied, legible.value rfl, legible.amount rfl] at untied
    | containsAll =>
        simp only [Filter.expr?, foldExprs] at found
        split_ifs at found with none_
        obtain rfl := Option.some.inj found
        obtain ⟨element, like⟩ := List.exists_mem_of_ne_nil _ (by simpa using none_)
        obtain ⟨needle, _, same⟩ := List.mem_map.mp (List.reduceOption_mem_iff.mp like)
        obtain rfl := Option.some.inj same
        refine ⟨.like (.column ⟨some table, field⟩)
          (.string ("%" ++ patternText needle ++ "%")) false, ?_, by rintro ⟨⟩, fun _ => rfl⟩
        rw [Expr.predicates, predicates_fold]
        exact List.mem_flatMap.mpr ⟨_, List.mem_map_of_mem like, List.mem_singleton.mpr rfl⟩
    | unknown => cases found
    | _ =>
        obtain rfl := Option.some.inj found
        exact ⟨_, List.mem_singleton.mpr rfl, by rintro ⟨⟩, fun _ => by cases value <;> rfl⟩
  · exact ⟨.unparsed text, by simp [starts], by simp [Predicate.isQuiet, isMatchAll, Predicate.atom?],
      fun _ => rfl⟩

theorem filter_quiet (predicate : Predicate) :
    Keeps (recoverFilter predicate) fun _ => predicate.isQuiet = true := by
  simp only [recoverFilter]
  split
  · exact keeps_fresh.bind fun id => keeps_pure fun _ => rfl
  · exact keeps_fresh.bind fun id => keeps_pure fun _ => rfl
  · exact keeps_drop _ _ none
  · next other _ _ _ =>
      split_ifs with same
      · exact keeps_pure (by simp [Predicate.isQuiet, same])
      · exact keeps_drop _ _ none

/-- A predicate alone is all there is in any number of parentheses. -/
theorem innermost_predicates {member : Expr} {predicate : Predicate}
    (shape : member.innermost = .predicate predicate) : member.predicates = [predicate] := by
  fun_induction Expr.innermost member with
  | case1 inner ih => exact ih shape
  | case2 =>
      subst shape
      rfl

theorem nested_quiet (member : Expr) :
    Keeps (recoverNested member) fun _ => ∀ p ∈ member.predicates, p.isQuiet = true := by
  simp only [recoverNested]
  split
  · next predicate shape =>
      rw [innermost_predicates shape]
      exact (filter_quiet predicate).weaken fun _ quiet => by simpa using quiet
  · exact keeps_drop _ _ none

theorem filters_quiet (members : List Expr) :
    Keeps (recoverFilters members) fun _ =>
      ∀ p ∈ members.flatMap Expr.predicates, p.isQuiet = true := by
  induction members with
  | nil => exact keeps_pure (by simp)
  | cons member rest ih =>
      refine (nested_quiet member).bind fun first => ih.bind fun others => keeps_pure ?_
      intro behind here p listed
      rw [List.flatMap_cons, List.mem_append] at listed
      exact listed.elim (here p) (behind p)

def Unreported (conjunct : Expr) : Prop :=
  isCorrelation conjunct.unwrap = true ∨ ∀ p ∈ conjunct.unwrap.predicates, p.isQuiet = true

theorem conjunct_unreported (table : String) (draft : EventDraft) (conjunct : Expr) :
    Keeps (addConjunct table draft conjunct) fun _ => Unreported conjunct := by
  have members := filters_quiet (splitFold conjunct.unwrap).2
  rw [← split_predicates] at members
  simp only [addConjunct]
  split_ifs with tie
  · exact keeps_pure (.inl tie)
  · exact members.bind fun found => keeps_pure .inr
  · exact members.bind fun found => keeps_pure .inr
  · exact keeps_drop _ _ draft

theorem conjuncts_unreported (table : String) (draft : EventDraft) (conjuncts : List Expr) :
    Keeps (addConjuncts table draft conjuncts) fun _ =>
      ∀ conjunct ∈ conjuncts, Unreported conjunct := by
  induction conjuncts generalizing draft with
  | nil => exact keeps_pure (by simp)
  | cons conjunct rest ih =>
      refine (conjunct_unreported table draft conjunct).bind fun middle => ?_
      exact (ih middle).weaken fun _ others first => by simpa using ⟨first, others⟩

/-- Every conjunct of a sub-query of which nothing is reported is a tie, or all of it comes back. -/
theorem event_unreported {query : Subquery} {filter : Expr} (found : query.filter = some filter)
    (whole : Expr) :
    Keeps (recoverEvent query whole) fun _ => ∀ conjunct ∈ conjunctsOf filter, Unreported conjunct := by
  rw [recover_event_some found]
  refine (count_normal query.having).bind fun count => ?_
  refine (conjuncts_unreported query.table _ (conjunctsOf filter)).bind fun draft => ?_
  refine (numbered_fresh draft.related).keeps.bind fun related => ?_
  exact keeps_fresh.bind fun id => keeps_pure fun _ _ unreported _ => unreported

theorem criteria_unreported {expr : Expr} {negated : Bool} {query : Subquery}
    (sole : expr.innermost = .exist negated query) {filter : Expr}
    (found : query.filter = some filter) :
    Keeps (recoverCriteria expr) fun _ =>
      ∀ conjunct ∈ conjunctsOf filter, Unreported conjunct := by
  rw [sole_criteria sole]
  refine (event_unreported found _).bind fun back => ?_
  exact (closed_normal .and _).bind fun group => keeps_pure fun _ unreported => unreported

/-- Nothing is reported of a fold that is no tie only if its filters all compare with texts. -/
theorem unreported_literal {fold : FilterFold} {item : Expr} (is : fold.IsItem item)
    (untied : ∃ filter ∈ fold.shown, filter.isTied = false) (unreported : Unreported item) :
    fold.IsLiteral := by
  obtain ⟨inner, ⟨items, each, rfl⟩, rfl⟩ := is
  have predicate : ∀ filter ∈ fold.shown,
      ∃ p ∈ (foldItems fold.combinator.fold items).predicates,
        (p.isQuiet = true → filter.literal?.isSome = true) ∧
          (filter.isTied = false → isTie p = false) := by
    intro filter shown
    obtain ⟨item, member, is⟩ := condition_met each (List.mem_map_of_mem shown)
    obtain ⟨p, within, facts⟩ := item_predicate is
    refine ⟨p, ?_, facts⟩
    rw [predicates_fold]
    exact List.mem_flatMap.mpr ⟨item, member, within⟩
  rcases unreported with tie | quiet
  · -- All predicates of a tie are ties, that of the untied filter is not.
    obtain ⟨filter, shown, free⟩ := untied
    obtain ⟨p, within, _, apart⟩ := predicate filter shown
    have ties := (Bool.and_eq_true_iff.mp tie).2
    rw [List.all_eq_true] at ties
    exact absurd (ties p within) (by simp [apart free])
  · intro filter shown
    obtain ⟨p, within, literal, _⟩ := predicate filter shown
    exact literal (quiet p within)

section Events

variable {source : EventSource} {outer : String} {event : Event}

/-- Each fold that is not left out is read as a conjunct of the sub-query. -/
theorem selected_item {filter : Expr} (selected : event.IsSelected source outer filter)
    {fold : FilterFold} (shown : fold ∈ event.shownFolds source) :
    ∃ item ∈ conjunctsOf filter, fold.IsItem item := by
  obtain ⟨items, each, rfl⟩ := selected
  have conjuncts : conjunctsOf (foldItems .and items) = items := by
    obtain ⟨tie, others, rfl, _, rfl⟩ := List.forall₂_cons_left_iff.mp each
    cases others <;> rfl
  rw [conjuncts]
  exact condition_met each (List.mem_cons_of_mem _ (List.mem_map_of_mem shown))

/-- If nothing is reported of the sub-query of an event, all filters compare with texts, except for
folds of which every filter is tied. -/
theorem unreported_event {filter : Expr}
    (selected : event.IsSelected source outer filter)
    (untied : ∀ fold ∈ event.shownFolds source, ∃ filter ∈ fold.shown, filter.isTied = false)
    (unreported : ∀ conjunct ∈ conjunctsOf filter, Unreported conjunct) :
    ∀ fold ∈ event.folds source, fold.IsLiteral := by
  intro fold member
  by_cases none_ : fold.shown = []
  · simp [FilterFold.IsLiteral, none_]
  · have shown : fold ∈ event.shownFolds source :=
      List.mem_filter.mpr ⟨member, by simpa using none_⟩
    obtain ⟨item, found, is⟩ := selected_item selected shown
    exact unreported_literal is (untied fold shown) (unreported item found)

end Events

def Criteria.sole (combinator : Combinator) (event : Event) : Criteria :=
  ⟨[.event event], [], combinator⟩

section Statements

variable {source : EventSource} {dataset : String} {event : Event}

theorem sole_clause {combinator : Combinator}
    (filled : Text.isBlankText (event.clause source dataset) = false) :
    (Criteria.sole combinator event).whereClause source dataset =
      "(" ++ event.clause source dataset ++ ")" := by
  have folded : foldClauses combinator [event.clause source dataset] =
      "(" ++ event.clause source dataset ++ ")" := by
    simp [foldClauses, filled]
  have some_ : ("(" ++ event.clause source dataset ++ ")").isEmpty = false := by
    simp [← String.toList_inj]
  simp only [Criteria.whereClause, Criteria.sole, List.map_cons, List.map_nil, List.append_nil,
    Condition.clause, folded, some_, Bool.false_eq_true, ↓reduceIte]

/-- The condition of the statement is read as what the clause is read as, in parentheses. -/
theorem sole_denotes {limit : Nat} {post : Expr → Prop}
    (denotes : DenotesAs limit (event.clause source dataset) post) (combinator : Combinator) :
    DenotesAs (limit + 1) ((Criteria.sole combinator event).whereClause source dataset)
      (IsFold .and [fun expr => ∃ inner, post inner ∧ expr = .grouped inner]) := by
  rw [sole_clause denotes.item.not_blank]
  simpa [Combinator.fold] using items_denote .and (.cons denotes.item .nil) (List.cons_ne_nil _ _)

theorem statement_condition (plain : IsPlain dataset) {criteria : Criteria} {limit : Nat}
    {post : Expr → Prop} (denotes : DenotesAs limit (criteria.whereClause source dataset) post)
    (low : limit ≤ maxNesting) :
    ∃ expr, condition? (criteria.statement source dataset) = some expr ∧ post expr := by
  have whole := denotes
  obtain ⟨ks, writes, ⟨height, _, nested⟩, _, _⟩ := denotes
  obtain ⟨body, found, kept⟩ := where_body_statement nested (statement_shape plain writes)
  obtain ⟨expr, read, holds⟩ := whole.read low (kept.trans writes.kinds_eq.symm)
  refine ⟨expr, ?_, holds⟩
  simp [condition?, statement_normalized, found, read]

end Statements

/-- Whether a tree is that of an event alone does not depend on ids. -/
theorem sole_event_ids {criteria : Criteria} {event : Event}
    (same : criteria.withoutIds = ⟨[], [⟨0, .and, [.condition (.event event)]⟩], .and⟩) :
    ∃ found, criteria.soleEvent? = some found ∧ found.withoutIds = event := by
  obtain ⟨conditions, groups, combinator⟩ := criteria
  simp only [Criteria.withoutIds, Criteria.mk.injEq, List.map_eq_nil_iff,
    List.map_eq_singleton_iff] at same
  obtain ⟨rfl, ⟨⟨id, inner, members⟩, rfl, shape⟩, rfl⟩ := same
  simp only [Group.withoutIds, members_without_ids, Group.mk.injEq, true_and,
    List.map_eq_singleton_iff] at shape
  obtain ⟨rfl, member, rfl, shape⟩ := shape
  cases member with
  | group => cases shape
  | condition condition =>
      cases condition with
      | filter => cases shape
      | event found =>
          simp only [Member.withoutIds, Condition.withoutIds, Member.condition.injEq,
            Condition.event.injEq] at shape
          exact ⟨found, rfl, shape⟩

/-- A normal event that stands alone comes back with its clause. -/
theorem sole_event_back {source : EventSource} (plain : source.Plain) {dataset : String}
    (datasetPlain : IsPlain dataset) {event : Event} (normal : (Condition.event event).Normal source)
    (shallow : nesting ((Criteria.sole .and event).whereClause source dataset) ≤ maxNesting) :
    ∃ found,
      (Recovered.ofStatement ((Criteria.sole .and event).statement source dataset)).criteria.soleEvent?
        = some found ∧ found.clause source dataset = event.clause source dataset := by
  have leaf : ∀ condition ∈ (Criteria.sole .and event).leaves, condition = .event event := by
    simp [Criteria.leaves, Criteria.sole]
  have restorable : (Criteria.sole .and event).Restorable source := by
    constructor
    · intro condition member
      rw [leaf condition member]
      exact normal.restorable
    · simp [Criteria.sole]
    · simp [Criteria.sole, FoldKept]
  obtain ⟨back, whole, same⟩ := statement_recovered plain datasetPlain
    (fun condition member => leaf condition member ▸ normal.named) restorable shallow
  have tree : (Criteria.sole .and event).collapse =
      ⟨[], [⟨0, .and, [.condition (.event event)]⟩], .and⟩ := by
    simp [Criteria.sole, Criteria.collapse, Condition.collapse, Condition.asGroup,
      default_event normal.default]
  rw [tree] at same
  obtain ⟨found, sole, ids⟩ := @sole_event_ids back event.withoutIds same
  refine ⟨found, by rw [whole]; exact sole, ?_⟩
  rw [← event_clause_ids, ids, event_clause_ids]

/-- An event of which nothing is reported comes back with the clause that it had, if none of its
folds is taken for a tie. -/
theorem unreported_event_comes_back {source : EventSource} (plain : source.Plain) {dataset : String}
    (datasetPlain : IsPlain dataset) {event : Event} (named : event.Named IsPlain)
    (typical : event.Typical source)
    (untied : ∀ fold ∈ event.shownFolds source, ∃ filter ∈ fold.shown, filter.isTied = false)
    (combinator : Combinator) :
    let back := Recovered.ofStatement ((Criteria.sole combinator event).statement source dataset)
    back.dropped = [] → ∃ found, back.criteria.soleEvent? = some found ∧
      found.clause source dataset = event.clause source dataset := by
  intro back kept
  have denotes := sole_denotes (performed_as plain datasetPlain named typical.eventType) combinator
  -- The condition of the statement is known only up to what filters are read as.
  obtain ⟨expr, found, fold⟩ := statement_condition datasetPlain denotes (by decide)
  obtain ⟨_, ⟨filter, selected, rfl⟩, rfl⟩ := single_fold fold
  obtain ⟨_, _, unreported⟩ := @kept_condition _ kept
    (fun _ _ => ∀ conjunct ∈ conjunctsOf filter, Unreported conjunct) fun expr same => by
      obtain rfl := Option.some.inj (found.symm.trans same)
      exact criteria_unreported rfl rfl
  have literal := unreported_event selected untied unreported
  -- So the statement is also that of an event that comes back as it is.
  let restored := event.restored source
  have normal : (Condition.event restored).Normal source := restored_event_normal typical named
  have clause := restored_event_clause typical literal dataset
  have filled := (performed_as plain datasetPlain named typical.eventType).item.not_blank
  have text : (Criteria.sole combinator event).statement source dataset =
      (Criteria.sole .and restored).statement source dataset := by
    rw [statement_text, statement_text, sole_clause filled, sole_clause (clause ▸ filled), clause]
  have shallow : nesting ((Criteria.sole .and restored).whereClause source dataset) ≤ maxNesting := by
    rw [sole_clause (clause ▸ filled), clause, ← sole_clause filled]
    exact denotes.nesting_le.trans (by decide)
  have comes := sole_event_back plain datasetPlain normal shallow
  rwa [← text, clause] at comes

def visits : EventSource :=
  ⟨"p", "d"⟩

def listedVisit : Event where
  id := 1
  columnKey := "customer_id"
  relatedColKey := "customer_id"
  eventType := .performed
  frequency := some .atLeast
  count := 2
  timeValue := none
  timePeriod := none
  filterCombinator := .or
  filters := [.filter ⟨2, "a", .on, .array [], some .null⟩]
  combinator := .and
  related := [⟨3, "q", "k", ["b"], .and, [⟨4, "b", .equals, .string "x", none⟩]⟩]

theorem listed_visit_comes_back :
    let back := Recovered.ofStatement ((Criteria.sole .and listedVisit).statement visits "t")
    ∃ found, back.criteria.soleEvent? = some found ∧
      found.clause visits "t" = listedVisit.clause visits "t" := by
  have kept : (Recovered.ofStatement
      ((Criteria.sole .and listedVisit).statement visits "t")).dropped = [] := by
    rw [Recovered.ofStatement, tokenize_normalized]
    decide +kernel
  exact unreported_event_comes_back ⟨by decide, by decide⟩ (by decide) (by decide +kernel)
    (by decide +kernel) (by decide +kernel) .and kept

def tiedVisit : Event :=
  { listedVisit with
    filterCombinator := .and
    filters := [.filter ⟨2, "a", .equals, .bool true, none⟩]
    related := [] }

/-- The filter neither comes back nor is reported. -/
theorem tied_visit_passed_over :
    let back := Recovered.ofStatement ((Criteria.sole .and tiedVisit).statement visits "t")
    let bare : Event := { tiedVisit with filters := [] }
    tiedVisit.Named IsPlain ∧ tiedVisit.Typical visits ∧ back.dropped = [] ∧
      back.criteria.soleEvent?.map (Event.clause visits "t") = some (bare.clause visits "t") ∧
      bare.clause visits "t" ≠ tiedVisit.clause visits "t" := by
  dsimp only
  rw [Recovered.ofStatement, tokenize_normalized]
  decide +kernel

end Cohort
