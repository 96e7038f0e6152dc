import Cohort.Proofs.Clause.Selection
import Cohort.Proofs.Recovery.Drafts

/-!
Filters that compare with texts. What is not a text may be written as one: a list, an object, or an
operator that has a clause in common with another. An event whose filters all compare with texts has
the clause of an event that comes back as it is.
-/

namespace Cohort

open Sql
open Json (Value)

def Json.Value.quoted? : Value → Option String
  | .string s => some s
  | .null | .bool _ | .number _ => none
  | other => some other.print

def Filter.literal? (filter : Filter) : Option Filter :=
  match filter.operator with
  | .equals | .on => do
      let text ← filter.value.quoted?
      some ⟨filter.id, filter.field, .equals, .string text, none⟩
  | .between => do
      let low ← filter.value.quoted?
      let upper ← filter.value2
      let high ← upper.quoted?
      some ⟨filter.id, filter.field, .between, .string low, some (.string high)⟩
  | _ => none

theorem quoted_clause {value : Value} {text : String} (quoted : value.quoted? = some text) :
    renderValue (.string text) = renderValue value := by
  cases value with
  | null | bool b | number n => cases quoted
  | string s | array items | object members =>
      obtain rfl := Option.some.inj quoted
      rfl

theorem literal_forms {filter literal : Filter} (found : filter.literal? = some literal) :
    (∃ text, (filter.operator = .equals ∨ filter.operator = .on) ∧
      filter.value.quoted? = some text ∧
      literal = ⟨filter.id, filter.field, .equals, .string text, none⟩) ∨
    ∃ low upper high, filter.operator = .between ∧ filter.value.quoted? = some low ∧
      filter.value2 = some upper ∧ upper.quoted? = some high ∧
      literal = ⟨filter.id, filter.field, .between, .string low, some (.string high)⟩ := by
  simp only [Filter.literal?] at found
  split at found
  · next equals =>
      obtain ⟨text, quoted, same⟩ := Option.bind_eq_some_iff.mp found
      exact .inl ⟨text, .inl equals, quoted, (Option.some.inj same).symm⟩
  · next on =>
      obtain ⟨text, quoted, same⟩ := Option.bind_eq_some_iff.mp found
      exact .inl ⟨text, .inr on, quoted, (Option.some.inj same).symm⟩
  · next between =>
      obtain ⟨low, quoted, found⟩ := Option.bind_eq_some_iff.mp found
      obtain ⟨upper, bound, found⟩ := Option.bind_eq_some_iff.mp found
      obtain ⟨high, quoted', same⟩ := Option.bind_eq_some_iff.mp found
      exact .inr ⟨low, upper, high, between, quoted, bound, quoted', (Option.some.inj same).symm⟩
  · cases found

section Literals

variable {filter literal : Filter} (found : filter.literal? = some literal)

include found

theorem literal_clause (table : String) : literal.clause table = filter.clause table := by
  obtain ⟨id, field, operator, value, value2⟩ := filter
  rcases literal_forms found with ⟨text, form, quoted, rfl⟩ | ⟨low, upper, high, form, rest⟩
  · rcases form with rfl | rfl <;> simp [Filter.clause, quoted_clause quoted]
  · obtain ⟨quoted, rfl, quoted', rfl⟩ := rest
    obtain rfl : operator = .between := form
    simp [Filter.clause, quoted_clause quoted, quoted_clause quoted']

theorem literal_normal (plain : IsPlain filter.field) : literal.Normal := by
  rcases literal_forms found with ⟨_, _, _, rfl⟩ | ⟨_, _, _, _, _, _, _, rfl⟩
  · exact ⟨rfl, rfl, plain⟩
  · exact ⟨rfl, rfl, plain⟩

end Literals

namespace FilterFold

def IsLiteral (fold : FilterFold) : Prop :=
  ∀ filter ∈ fold.shown, filter.literal?.isSome = true

/-- The fold that comes back; one filter alone is not told from a conjunction. -/
def restored (fold : FilterFold) : FilterFold :=
  let literals := fold.shown.filterMap Filter.literal?
  ⟨fold.table, if 2 ≤ literals.length then fold.combinator else .and, literals⟩

theorem restored_kept (fold : FilterFold) :
    FoldKept fold.restored.combinator fold.restored.filters.length := by
  intro disjunction
  by_contra few
  simp only [restored] at disjunction few
  rw [if_neg few] at disjunction
  cases disjunction

theorem restored_normal {fold : FilterFold} (fields : ∀ filter ∈ fold.filters, IsPlain filter.field) :
    ∀ filter ∈ fold.restored.filters, filter.Normal := by
  intro literal member
  obtain ⟨filter, shown, found⟩ := List.mem_filterMap.mp member
  exact literal_normal found (fields filter (List.mem_of_mem_filter shown))

theorem clause_of_shown (fold : FilterFold) (combinator : Combinator) :
    foldClauses combinator (fold.shown.map (Filter.clause fold.table)) =
      foldClauses combinator (fold.filters.map (Filter.clause fold.table)) := by
  simp [foldClauses, shown, List.filter_map, Function.comp_def]

theorem restored_clauses {fold : FilterFold} (literal : fold.IsLiteral) :
    fold.restored.filters.map (Filter.clause fold.table) =
      fold.shown.map (Filter.clause fold.table) := by
  simp only [IsLiteral, restored] at literal ⊢
  generalize fold.shown = shown at literal ⊢
  induction shown with
  | nil => rfl
  | cons filter rest ih =>
      obtain ⟨back, found⟩ := Option.isSome_iff_exists.mp (literal filter List.mem_cons_self)
      have others := ih fun other member => literal other (List.mem_cons_of_mem filter member)
      simp [found, others, literal_clause found]

theorem restored_clause {fold : FilterFold} (literal : fold.IsLiteral) :
    fold.restored.clause = fold.clause := by
  have clauses := restored_clauses literal
  rw [clause, clause, ← clause_of_shown fold, ← clauses]
  by_cases many : 2 ≤ fold.restored.filters.length
  · have same : fold.restored.combinator = fold.combinator := if_pos many
    rw [same]
    rfl
  · exact fold_few (by simpa using many) _ _

end FilterFold

structure Event.Typical (source : EventSource) (event : Event) : Prop where
  columnKey : event.columnKey = defaultKey
  relatedColKey : event.relatedColKey = defaultKey
  eventType : event.eventType = .performed
  frequency : event.frequency = some .atLeast
  count : event.count ≤ Decimal.maxU32
  time : ∀ value ∈ event.timeValue, -2 ^ 63 ≤ value ∧ value < 2 ^ 63
  period : ∀ span ∈ event.window?, " ".intercalate (Text.words span.2) = span.2
  distinct : event.joinable.Pairwise fun earlier later => earlier.dataset ≠ later.dataset
  foreign : ∀ related ∈ event.joinable, related.dataset ≠ source.table

instance (source : EventSource) : DecidablePred (Event.Typical source) := fun event =>
  decidable_of_iff
    ((event.columnKey = defaultKey ∧ event.relatedColKey = defaultKey ∧
      event.eventType = .performed ∧ event.frequency = some .atLeast) ∧
      (event.count ≤ Decimal.maxU32 ∧
      (∀ value ∈ event.timeValue, -2 ^ 63 ≤ value ∧ value < 2 ^ 63) ∧
      ∀ span ∈ event.window?, " ".intercalate (Text.words span.2) = span.2) ∧
      (event.joinable.Pairwise fun earlier later => earlier.dataset ≠ later.dataset) ∧
      ∀ related ∈ event.joinable, related.dataset ≠ source.table)
    ⟨fun ⟨⟨columnKey, relatedColKey, eventType, frequency⟩, ⟨count, time, period⟩, distinct,
        foreign⟩ =>
        ⟨columnKey, relatedColKey, eventType, frequency, count, time, period, distinct, foreign⟩,
      fun ⟨columnKey, relatedColKey, eventType, frequency, count, time, period, distinct,
        foreign⟩ =>
        ⟨⟨columnKey, relatedColKey, eventType, frequency⟩, ⟨count, time, period⟩, distinct,
          foreign⟩⟩

def Related.restored (related : Related) : Related :=
  ⟨related.id, related.dataset, related.joinKey, [], related.fold.restored.combinator,
    related.fold.restored.filters⟩

def Event.draft (source : EventSource) (event : Event) : EventDraft :=
  ⟨(event.ownFold source).restored.combinator, (event.ownFold source).restored.filters,
    event.joinable.map Related.restored⟩

def Event.restored (source : EventSource) (event : Event) : Event :=
  (event.draft source).event event.count event.window? (event.draft source).related event.id

section Events

variable {source : EventSource} {event : Event} (typical : event.Typical source)

include typical

theorem Event.Typical.windows : ∀ span ∈ event.window?, IsWindow span := by
  intro span found
  obtain ⟨time, some_⟩ := @window_not_blank event span.1 span.2 found
  have single := typical.period span found
  have words := Text.words_trimmed (Text.words_are_words span.2) (Text.words_some some_)
  rw [single] at words
  exact ⟨typical.time span.1 (by simp [← time]), words, single⟩

/-- What is left of an event comes back as it is. -/
theorem restored_event_normal (named : event.Named IsPlain) :
    (Condition.event (event.restored source)).Normal source := by
  refine draft_event_normal ?_ typical.count typical.windows rfl event.id
  constructor
  · exact FilterFold.restored_normal named.filters
  · exact (event.ownFold source).restored_kept
  · intro related member
    obtain ⟨original, joined, rfl⟩ := List.mem_map.mp member
    have names := named.related original joined
    exact ⟨rfl, names.dataset, names.joinKey, typical.foreign original joined,
      FilterFold.restored_normal names.filters, original.fold.restored_kept⟩
  · refine List.pairwise_map.mpr (typical.distinct.imp fun apart _ => ?_)
    exact apart

omit typical in
theorem restored_joinable : (event.restored source).joinable = event.joinable.map Related.restored := by
  refine List.filter_eq_self.mpr fun related member => ?_
  obtain ⟨original, joined, rfl⟩ := List.mem_map.mp member
  exact (List.mem_filter.mp joined).2

omit typical in
theorem restored_folds :
    (event.restored source).folds source = (event.folds source).map FilterFold.restored := by
  have own : (event.restored source).ownFold source = (event.ownFold source).restored := by
    simp only [Event.ownFold, Event.restored, EventDraft.event, draft_filters]
    rfl
  rw [Event.folds, restored_joinable, own, Event.folds, List.map_cons, List.map_map, List.map_map]
  rfl

/-- An event has the clause of what is left of it, if nothing of its filters is lost. -/
theorem restored_event_clause (literal : ∀ fold ∈ event.folds source, fold.IsLiteral)
    (outer : String) : (event.restored source).clause source outer = event.clause source outer := by
  have window : (event.restored source).window? = event.window? :=
    draft_window _ _ typical.windows _ _
  have tie : (event.restored source).correlation source outer = event.correlation source outer := by
    simp only [Event.correlation, window, typical.columnKey, typical.relatedColKey]
    rfl
  have clauses : ((event.restored source).folds source).map FilterFold.clause =
      (event.folds source).map FilterFold.clause := by
    rw [restored_folds, List.map_map]
    exact List.map_congr_left fun fold member => FilterFold.restored_clause (literal fold member)
  have joins : (event.restored source).joinable.map (Related.join source.table) =
      event.joinable.map (Related.join source.table) := by
    rw [restored_joinable, List.map_map]
    rfl
  have selection : (event.restored source).selection source outer = event.selection source outer := by
    rw [Event.selection_folds, Event.selection_folds, tie, clauses, joins]
  simp only [Event.clause, selection, typical.eventType, Event.countHaving, typical.frequency,
    typical.columnKey]
  rfl

end Events

end Cohort
