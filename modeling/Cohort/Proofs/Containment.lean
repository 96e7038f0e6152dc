import Cohort.Proofs.Masking
import Cohort.Proofs.Sql.Alike
import Cohort.Proofs.Statement

/-!
Strings stay within their literals. Statements of trees with the same mask have tokens of the same
kinds, and every string token holds a text that was meant to be there.
-/

namespace Cohort

open Json (Value)
open Sql
open Text (isBlankText)

/-! ### The texts of literals, in the order of the statement -/

def valueLiterals : Value → List String
  | .string s => [s]
  | .null | .bool _ | .number _ => []
  | other => [other.print]

def Filter.literals (filter : Filter) : List String :=
  match filter.operator with
  | .equals | .on | .notEquals | .notOn | .greaterThan | .after | .lessThan | .before
  | .relativeDaysAgo => valueLiterals filter.value
  | .contains | .notContains => ["%" ++ patternText filter.value ++ "%"]
  | .startsWith => [patternText filter.value ++ "%"]
  | .endsWith => ["%" ++ patternText filter.value]
  | .between =>
      match filter.value2 with
      | some upper => valueLiterals filter.value ++ valueLiterals upper
      | none => []
  | .containsAll => (elementsOf filter.value).map fun element => "%" ++ patternText element ++ "%"
  | .isNull | .isNotNull | .isEmpty | .isNotEmpty | .unknown => []

def Related.literals (related : Related) : List String :=
  related.filters.flatMap Filter.literals

namespace Event

def windowLiterals (event : Event) : List String :=
  (event.window?.map fun (value, period) => spanText value period).toList

def selectionLiterals (event : Event) : List String :=
  event.windowLiterals ++ (event.filters.filterMap Condition.filter?).flatMap Filter.literals
    ++ event.joinable.flatMap Related.literals

/-- The first and the last event are compared with the window once more. -/
def literals (event : Event) : List String :=
  match event.eventType with
  | .performed | .notPerformed => event.selectionLiterals
  | .firstTime | .lastTime => event.selectionLiterals ++ event.windowLiterals
  | .unknown => []

end Event

def Condition.literals : Condition → List String
  | .filter f => f.literals
  | .event e => e.literals

def Criteria.literals (criteria : Criteria) : List String :=
  criteria.leaves.flatMap Condition.literals

/-- Whether a name is free of quotes and hyphens. -/
def IsCalm (name : String) : Prop :=
  ∀ c ∈ name.toList, opensQuote c = false ∧ c ≠ '-'

instance (name : String) : Decidable (IsCalm name) :=
  decidable_of_iff (name.toList.all fun c => !opensQuote c && c != '-') (by simp [IsCalm])

/-- The parts that a fold keeps, and all of their literals. -/
theorem kept_alike {firsts seconds : List Written} (each : List.Forall₂ Alike firsts seconds) :
    List.Forall₂ Alike (firsts.filter fun part => !isBlankText part.text)
        (seconds.filter fun part => !isBlankText part.text) ∧
      (firsts.filter fun part => !isBlankText part.text).flatMap Written.literals =
        firsts.flatMap Written.literals ∧
      (seconds.filter fun part => !isBlankText part.text).flatMap Written.literals =
        seconds.flatMap Written.literals := by
  induction each with
  | nil => simp
  | @cons first second firsts seconds alike _ ih =>
      have same := alike.blank
      cases blank : isBlankText first.text with
      | true =>
          have none_ := alike.blank_literals blank
          simpa [← same, blank, none_] using ih
      | false => simpa [← same, blank, alike] using ih

theorem joined_alike (combinator : Combinator) {firsts seconds : List Written}
    (each : List.Forall₂ Alike firsts seconds) :
    Alike
      ⟨(" " ++ combinator.keyword ++ " ").intercalate
          (firsts.map fun part => "(" ++ part.text ++ ")"), firsts.flatMap Written.literals⟩
      ⟨(" " ++ combinator.keyword ++ " ").intercalate
          (seconds.map fun part => "(" ++ part.text ++ ")"), seconds.flatMap Written.literals⟩ := by
  have opening : Stretch "(" := ⟨by decide, by decide⟩
  have closing : Alike ⟨")", []⟩ ⟨")", []⟩ := alike_plain (by decide)
  have word : Alike ⟨" " ++ combinator.keyword ++ " ", []⟩
      ⟨" " ++ combinator.keyword ++ " ", []⟩ := by
    cases combinator <;> exact alike_plain (by decide)
  induction each with
  | nil => exact .empty
  | @cons first second firsts seconds alike rest ih =>
      have item := (alike.plain opening).append closing
      cases rest with
      | nil => simpa [Written.append] using item
      | cons =>
          simp only [List.map_cons] at ih ⊢
          rw [String.intercalate_cons_of_ne_nil (List.cons_ne_nil _ _),
            String.intercalate_cons_of_ne_nil (List.cons_ne_nil _ _)]
          simpa [Written.append] using (item.append word).append ih

theorem fold_alike (combinator : Combinator) {firsts seconds : List Written}
    (each : List.Forall₂ Alike firsts seconds) :
    Alike ⟨foldClauses combinator (firsts.map Written.text), firsts.flatMap Written.literals⟩
      ⟨foldClauses combinator (seconds.map Written.text), seconds.flatMap Written.literals⟩ := by
  obtain ⟨kept, first, second⟩ := kept_alike each
  have whole := joined_alike combinator kept
  rw [first, second] at whole
  simpa only [foldClauses, List.filter_map, List.map_map, Function.comp_def] using whole

theorem fold_map_alike (combinator : Combinator) {item : Type} {written : item → Written}
    {firsts seconds : List item}
    (each : List.Forall₂ (fun a b => Alike (written a) (written b)) firsts seconds) :
    Alike
      ⟨foldClauses combinator (firsts.map fun a => (written a).text),
        firsts.flatMap fun a => (written a).literals⟩
      ⟨foldClauses combinator (seconds.map fun a => (written a).text),
        seconds.flatMap fun a => (written a).literals⟩ := by
  have parts : List.Forall₂ Alike (firsts.map written) (seconds.map written) :=
    List.forall₂_map_left_iff.mpr (List.forall₂_map_right_iff.mpr each)
  simpa only [List.map_map, List.flatMap_map, Function.comp_def] using fold_alike combinator parts

theorem IsCalm.quiet {name : String} (calm : IsCalm name) : tame name.toList = true :=
  tame_calm calm

theorem column_stretch {table field : String} (first : IsCalm table) (second : IsCalm field) :
    Stretch (table ++ "." ++ field) := by
  have point : tame ['.'] = true := by decide
  refine ⟨by simp, ?_⟩
  simpa using tame_append (tame_append first.quiet point) second.quiet

theorem rendered_alike {front : String} (stretch : Stretch front) {first second : Value}
    (same : first.mask = second.mask) :
    Alike ⟨front ++ renderValue first, valueLiterals first⟩
      ⟨front ++ renderValue second, valueLiterals second⟩ := by
  cases first <;> cases second <;> try cases same
  case null => exact alike_plain (stretch.append (by decide)).quiet
  case bool b => cases b <;> exact alike_plain (stretch.append (by decide)).quiet
  case number n => exact alike_plain (stretch.append (Json.number_print_tame n)).quiet
  all_goals exact alike_literal stretch _ _

theorem pattern_alike {front : String} (stretch : Stretch front) (before behind : String)
    (first second : Value) :
    Alike ⟨front ++ likePattern before behind first, [before ++ patternText first ++ behind]⟩
      ⟨front ++ likePattern before behind second, [before ++ patternText second ++ behind]⟩ :=
  alike_literal stretch _ _

theorem elements_masked (value : Value) :
    elementsOf value.mask = (elementsOf value).map Value.mask := by
  cases value <;> simp [Value.mask, elementsOf, items_masked]

theorem patterns_alike {column : String} (stretch : Stretch (column ++ " LIKE "))
    {first second : Value} (same : first.mask = second.mask) :
    Alike
      ⟨foldClauses .and ((elementsOf first).map fun element =>
          column ++ " LIKE " ++ likePattern "%" "%" element),
        (elementsOf first).map fun element => "%" ++ patternText element ++ "%"⟩
      ⟨foldClauses .and ((elementsOf second).map fun element =>
          column ++ " LIKE " ++ likePattern "%" "%" element),
        (elementsOf second).map fun element => "%" ++ patternText element ++ "%"⟩ := by
  have masks : (elementsOf first).map Value.mask = (elementsOf second).map Value.mask := by
    rw [← elements_masked, ← elements_masked, same]
  have pairs := pairs_of_masks masks fun a _ b _ => pattern_alike stretch "%" "%" a b
  simpa only [← List.map_eq_flatMap] using
    @fold_map_alike .and Value (fun element =>
      ⟨column ++ " LIKE " ++ likePattern "%" "%" element, ["%" ++ patternText element ++ "%"]⟩)
      _ _ pairs

theorem filter_alike {table : String} (calm : IsCalm table) {first second : Filter}
    (same : first.mask = second.mask) (field : IsCalm first.field) :
    Alike ⟨first.clause table, first.literals⟩ ⟨second.clause table, second.literals⟩ := by
  have column := column_stretch calm field
  obtain ⟨id, name, operator, value, value2⟩ := first
  obtain ⟨id', name', operator', value', value2'⟩ := second
  simp only [Filter.mask, Filter.mk.injEq] at same
  obtain ⟨rfl, rfl, rfl, values, uppers⟩ := same
  have compared (sign : String) (quiet : tame sign.toList = true) :=
    rendered_alike (column.append quiet) values
  have matched (sign : String) (quiet : tame sign.toList = true) (before behind : String) :=
    pattern_alike (column.append quiet) before behind value value'
  have alone (sign : String) (quiet : tame sign.toList = true) :=
    alike_plain (column.append quiet).quiet
  have length (sign : String) (quiet : tame sign.toList = true) :
      Alike ⟨"JSON_LENGTH(" ++ (table ++ "." ++ name) ++ sign, []⟩
        ⟨"JSON_LENGTH(" ++ (table ++ "." ++ name) ++ sign, []⟩ := by
    have call : Stretch "JSON_LENGTH(" := ⟨by decide, by decide⟩
    exact alike_plain ((call.append column.quiet).append quiet).quiet
  cases operator with
  | equals | on => exact compared " = " (by decide)
  | notEquals | notOn => exact compared " != " (by decide)
  | greaterThan | after => exact compared " > " (by decide)
  | lessThan | before => exact compared " < " (by decide)
  | contains => exact matched " LIKE " (by decide) "%" "%"
  | notContains => exact matched " NOT LIKE " (by decide) "%" "%"
  | startsWith => simpa [Filter.clause, Filter.literals] using matched " LIKE " (by decide) "" "%"
  | endsWith => simpa [Filter.clause, Filter.literals] using matched " LIKE " (by decide) "%" ""
  | between =>
      cases value2 with
      | none =>
          cases value2' with
          | none => exact .empty
          | some upper' => simp at uppers
      | some upper =>
          cases value2' with
          | none => simp at uppers
          | some upper' =>
              have word : Stretch " AND " := ⟨by decide, by decide⟩
              have upper := rendered_alike word (Option.some.inj uppers)
              simpa [Written.append, Filter.clause, Filter.literals, String.append_assoc] using
                (compared " BETWEEN " (by decide)).append upper
  | relativeDaysAgo =>
      have behind : Alike ⟨" DAY)", []⟩ ⟨" DAY)", []⟩ := alike_plain (by decide)
      simpa [Written.append, Filter.clause, Filter.literals, String.append_assoc] using
        (compared " >= DATE_SUB(CURRENT_DATE, INTERVAL " (by decide)).append behind
  | isNull => exact alone " IS NULL" (by decide)
  | isNotNull => exact alone " IS NOT NULL" (by decide)
  | containsAll => exact patterns_alike (column.append (by decide)) values
  | isEmpty => exact length ") = 0" (by decide)
  | isNotEmpty => exact length ") > 0" (by decide)
  | unknown => exact .empty

theorem filters_alike {table : String} (calm : IsCalm table) (combinator : Combinator)
    {firsts seconds : List Filter} (same : firsts.map Filter.mask = seconds.map Filter.mask)
    (fields : ∀ filter ∈ firsts, IsCalm filter.field) :
    Alike ⟨foldClauses combinator (firsts.map (Filter.clause table)), firsts.flatMap Filter.literals⟩
      ⟨foldClauses combinator (seconds.map (Filter.clause table)),
        seconds.flatMap Filter.literals⟩ := by
  have pairs := pairs_of_masks same fun a member b masks =>
    filter_alike calm masks (fields a member)
  exact @fold_map_alike combinator Filter (fun filter => ⟨filter.clause table, filter.literals⟩)
    _ _ pairs

theorem related_alike {first second : Related} (same : first.mask = second.mask)
    (named : first.Named IsCalm) :
    Alike ⟨first.clause, first.literals⟩ ⟨second.clause, second.literals⟩ := by
  obtain ⟨id, dataset, joinKey, fields, combinator, filters⟩ := first
  obtain ⟨id', dataset', joinKey', fields', combinator', filters'⟩ := second
  simp only [Related.mask, Related.mk.injEq] at same
  obtain ⟨rfl, rfl, rfl, rfl, rfl, masks⟩ := same
  exact filters_alike named.dataset combinator masks named.filters

theorem join_quiet {table : String} (calm : IsCalm table) {related : Related}
    (named : related.Named IsCalm) : tame (related.join table).toList = true := by
  have join : Stretch " INNER JOIN " := ⟨by decide, by decide⟩
  have on : tame " ON ".toList = true := by decide
  have point : tame ".".toList = true := by decide
  have sign : tame " = ".toList = true := by decide
  unfold Related.join
  exact ((((((((join.append named.dataset.quiet).append on).append calm.quiet).append point).append
    named.joinKey.quiet).append sign).append named.dataset.quiet).append point).append
    named.joinKey.quiet |>.quiet

theorem joins_quiet {table : String} (calm : IsCalm table) {related : List Related}
    (named : ∀ r ∈ related, r.Named IsCalm) :
    tame (String.join (related.map (Related.join table))).toList = true := by
  induction related with
  | nil => rfl
  | cons first rest ih =>
      have others := ih fun r member => named r (List.mem_cons_of_mem first member)
      rw [List.map_cons, String.join_cons, String.toList_append]
      exact tame_append (join_quiet calm (named first List.mem_cons_self)) others

structure EventSource.Calm (source : EventSource) : Prop where
  table : IsCalm source.table
  timestampColumn : IsCalm source.timestampColumn

structure Event.Twins (first second : Event) : Prop where
  columnKey : first.columnKey = second.columnKey
  relatedColKey : first.relatedColKey = second.relatedColKey
  eventType : first.eventType = second.eventType
  countHaving : first.countHaving = second.countHaving
  filterCombinator : first.filterCombinator = second.filterCombinator
  window : first.window?.isSome = second.window?.isSome
  filters : (first.filters.filterMap Condition.filter?).map Filter.mask =
    (second.filters.filterMap Condition.filter?).map Filter.mask
  joinable : first.joinable.map Related.mask = second.joinable.map Related.mask

theorem twins_of_mask {first second : Event} (same : first.mask = second.mask) :
    first.Twins second := by
  have windows := congrArg Event.window? same
  have joins := congrArg Event.joinable same
  rw [window_masked, window_masked] at windows
  rw [joinable_masked, joinable_masked] at joins
  have both := congrArg Option.isSome windows
  rw [Option.isSome_map, Option.isSome_map] at both
  rw [event_masked, event_masked, Event.mk.injEq] at same
  obtain ⟨_, columnKey, relatedColKey, eventType, frequency, count, _, _, filterCombinator, filters,
    _, _⟩ := same
  have own := congrArg (List.filterMap Condition.filter?) filters
  rw [filters_masked, filters_masked] at own
  exact ⟨columnKey, relatedColKey, eventType, by simp only [Event.countHaving, frequency, count],
    filterCombinator, both, own, joins⟩

def Event.since (event : Event) (front : String) : String :=
  match event.window? with
  | some (value, period) => front ++ " >= NOW() - " ++ intervalLiteral value period
  | none => ""

theorem correlation_since (source : EventSource) (outer : String) (event : Event) :
    event.correlation source outer =
      source.table ++ "." ++ event.columnKey ++ " = " ++ outer ++ "." ++ event.relatedColKey ++
        event.since (" AND " ++ source.table ++ "." ++ source.timestampColumn) := rfl

theorem time_having_since (source : EventSource) (aggregate : String) (event : Event) :
    event.timeHaving source aggregate =
      event.since (" HAVING " ++ aggregate ++ "(" ++ source.table ++ "." ++
        source.timestampColumn ++ ")") := by
  cases window : event.window? with
  | none => simp [Event.timeHaving, Event.since, window]
  | some span => simp [Event.timeHaving, Event.since, window, String.append_assoc]

theorem since_alike {front : String} (stretch : Stretch front) {first second : Event}
    (twins : first.Twins second) :
    Alike ⟨first.since front, first.windowLiterals⟩ ⟨second.since front, second.windowLiterals⟩ := by
  have both := twins.window
  simp only [Event.since, Event.windowLiterals]
  cases one : first.window? with
  | none =>
      cases other : second.window? with
      | none => exact .empty
      | some window => simp [one, other] at both
  | some window =>
      cases other : second.window? with
      | none => simp [one, other] at both
      | some window' =>
          have start : tame " >= NOW() - INTERVAL ".toList = true := by decide
          have shape (value : Int) (period : String) :
              front ++ " >= NOW() - " ++ intervalLiteral value period =
                front ++ " >= NOW() - INTERVAL " ++ Text.literal (spanText value period) := by
            rw [interval_literal, ← String.append_assoc, @String.append_assoc front]
            rfl
          simpa [shape] using alike_literal (stretch.append start) (spanText window.1 window.2)
            (spanText window'.1 window'.2)

section Clauses

variable {source : EventSource} (calm : source.Calm) {outer : String} (outerCalm : IsCalm outer)
  {first second : Event} (twins : first.Twins second) (named : first.Named IsCalm)

include calm outerCalm twins named in
theorem correlation_alike :
    Alike ⟨first.correlation source outer, first.windowLiterals⟩
      ⟨second.correlation source outer, second.windowLiterals⟩ := by
  have sign : tame " = ".toList = true := by decide
  have word : Stretch " AND " := ⟨by decide, by decide⟩
  have tie := ((column_stretch calm.table named.columnKey).append sign).append
    (column_stretch outerCalm named.relatedColKey).quiet
  have start := word.append (column_stretch calm.table calm.timestampColumn).quiet
  simp only [correlation_since, ← twins.columnKey, ← twins.relatedColKey]
  simpa [Written.append, String.append_assoc] using
    (alike_plain tie.quiet).append (since_alike start twins)

include calm twins named in
theorem filter_clause_alike :
    Alike ⟨first.filterClause source,
        (first.filters.filterMap Condition.filter?).flatMap Filter.literals⟩
      ⟨second.filterClause source,
        (second.filters.filterMap Condition.filter?).flatMap Filter.literals⟩ := by
  simp only [Event.filterClause, ← twins.filterCombinator]
  exact filters_alike calm.table first.filterCombinator twins.filters named.filters

include twins named in
theorem related_clauses_alike :
    List.Forall₂ Alike
      (first.joinable.map fun related => ⟨related.clause, related.literals⟩)
      (second.joinable.map fun related => ⟨related.clause, related.literals⟩) := by
  rw [List.forall₂_map_left_iff, List.forall₂_map_right_iff]
  exact pairs_of_masks twins.joinable fun related member other same =>
    related_alike same (named.related related member)

include twins in
theorem joins_same (table : String) :
    first.joinable.map (Related.join table) = second.joinable.map (Related.join table) := by
  have blind : Related.join table ∘ Related.mask = Related.join table := rfl
  have masks := congrArg (List.map (Related.join table)) twins.joinable
  simpa only [List.map_map, blind] using masks

include calm outerCalm twins named in
theorem selection_alike :
    Alike ⟨first.selection source outer, first.selectionLiterals⟩
      ⟨second.selection source outer, second.selectionLiterals⟩ := by
  have ties := correlation_alike calm outerCalm twins named
  have own := filter_clause_alike calm twins named
  have related := related_clauses_alike twins named
  have select : Stretch "SELECT 1 FROM " := ⟨by decide, by decide⟩
  have word : tame " WHERE ".toList = true := by decide
  have tables := ((select.append calm.table.quiet).append
    (joins_quiet calm.table named.related)).append word
  have whole := (alike_plain tables.quiet).append (fold_alike .and (.cons ties (.cons own related)))
  simp only [selection_text, Event.selectionLiterals, ← joins_same twins source.table]
  simpa [Written.append, Function.comp_def, List.flatMap_map] using whole

theorem count_having_quiet (event : Event) : tame event.countHaving.toList = true := by
  have digits : tame (Decimal.numberText event.count).toList = true := by
    simpa [Decimal.numberText] using
      Json.positional_tame (Decimal.positional_digits (Decimal.digit_text_digits event.count))
  simp only [Event.countHaving]
  cases event.frequency with
  | none => rfl
  | some frequency =>
      have front (sign : String) (quiet : tame (" HAVING COUNT(*) " ++ sign ++ " ").toList = true) :
          tame (" HAVING COUNT(*) " ++ sign ++ " " ++ Decimal.numberText event.count).toList =
            true := by
        rw [String.toList_append]
        exact tame_append quiet digits
      cases frequency with
      | atLeast => exact front ">=" (by decide)
      | exactly => exact front "=" (by decide)
      | atMost => exact front "<=" (by decide)
      | unknown => rfl

include calm twins in
theorem time_having_alike {aggregate : String} (quiet : tame aggregate.toList = true) :
    Alike ⟨first.timeHaving source aggregate, first.windowLiterals⟩
      ⟨second.timeHaving source aggregate, second.windowLiterals⟩ := by
  have having : Stretch " HAVING " := ⟨by decide, by decide⟩
  have opening : tame "(".toList = true := by decide
  have closing : tame ")".toList = true := by decide
  have column := column_stretch calm.table calm.timestampColumn
  have front := (((having.append quiet).append opening).append column.quiet).append closing
  simp only [time_having_since]
  simpa [String.append_assoc] using since_alike front twins

include calm outerCalm twins named in
theorem event_alike :
    Alike ⟨first.clause source outer, first.literals⟩
      ⟨second.clause source outer, second.literals⟩ := by
  have selection := selection_alike calm outerCalm twins named
  have count := count_having_quiet first
  have time (aggregate : String) (quiet : tame aggregate.toList = true) :=
    time_having_alike calm twins quiet
  have opening : Stretch "EXISTS (" := ⟨by decide, by decide⟩
  have negated : Stretch "NOT EXISTS (" := ⟨by decide, by decide⟩
  have closing : Alike ⟨")", []⟩ ⟨")", []⟩ := alike_plain (by decide)
  have group : Stretch " GROUP BY " := ⟨by decide, by decide⟩
  have key := group.append (column_stretch calm.table named.columnKey).quiet
  have exists_ := selection.plain opening
  simp only [Event.clause, Event.literals, ← twins.eventType, ← twins.columnKey,
    ← twins.countHaving]
  cases first.eventType with
  | performed =>
      have behind := alike_plain (key.append count).quiet
      simpa [Written.append, String.append_assoc] using (exists_.append behind).append closing
  | notPerformed =>
      simpa [Written.append, String.append_assoc] using (selection.plain negated).append closing
  | firstTime =>
      have behind := (alike_plain key.quiet).append (time "MIN" (by decide))
      simpa [Written.append, String.append_assoc] using (exists_.append behind).append closing
  | lastTime =>
      have behind := (alike_plain key.quiet).append (time "MAX" (by decide))
      simpa [Written.append, String.append_assoc] using (exists_.append behind).append closing
  | unknown => exact .empty

end Clauses

def Member.literals (member : Member) : List String :=
  member.leaves.flatMap Condition.literals

theorem group_literals (id : Nat) (combinator : Combinator) (members : List Member) :
    (Member.group ⟨id, combinator, members⟩).literals = members.flatMap Member.literals := by
  simp only [Member.literals, Member.leaves, Group.leaves]
  induction members with
  | nil => rfl
  | cons member rest ih => simp [Member.leavesOf, ih, Member.literals]

section Trees

variable {source : EventSource} (calm : source.Calm) {table : String} (tableCalm : IsCalm table)

include calm tableCalm

theorem condition_alike {first second : Condition} (same : first.mask = second.mask)
    (named : first.Named IsCalm) :
    Alike ⟨first.clause source table, first.literals⟩
      ⟨second.clause source table, second.literals⟩ := by
  cases first with
  | filter f =>
      cases second with
      | filter g => exact filter_alike tableCalm (Condition.filter.inj same) named
      | event e => cases same
  | event e =>
      cases second with
      | filter g => cases same
      | event d => exact event_alike calm tableCalm (twins_of_mask (Condition.event.inj same)) named

theorem member_alike {first second : Member} (same : first.mask = second.mask)
    (named : ∀ c ∈ first.leaves, c.Named IsCalm) :
    Alike ⟨first.clause source table, first.literals⟩
      ⟨second.clause source table, second.literals⟩ := by
  induction first using Member.induction generalizing second with
  | condition c =>
      cases second with
      | condition d =>
          have leaf := condition_alike calm tableCalm (Member.condition.inj same)
            (named c (by simp [Member.leaves]))
          simpa [Member.clause, Member.literals, Member.leaves] using leaf
      | group g => cases same
  | group id combinator members ih =>
      cases second with
      | condition d => cases same
      | group g =>
          have masks := Member.group.inj same
          obtain ⟨id', combinator', members'⟩ := g
          simp only [Group.mask, Group.mk.injEq, members_masked] at masks
          obtain ⟨rfl, rfl, inner⟩ := masks
          have pairs := pairs_of_masks inner fun a found b equal =>
            ih a found equal fun c leaf => named c (Member.mem_leaves_of.mpr ⟨a, found, leaf⟩)
          have whole := @fold_map_alike combinator Member
            (fun member => ⟨member.clause source table, member.literals⟩) _ _ pairs
          simpa only [Member.clause, Group.clause, clauses_map, group_literals] using whole

theorem where_clause_alike {first second : Criteria} (same : first.mask = second.mask)
    (named : ∀ c ∈ first.leaves, c.Named IsCalm) :
    Alike ⟨first.whereClause source table, first.literals⟩
      ⟨second.whereClause source table, second.literals⟩ := by
  obtain ⟨conditions, groups, combinator⟩ := first
  obtain ⟨conditions', groups', combinator'⟩ := second
  simp only [Criteria.mask, Criteria.mk.injEq] at same
  obtain ⟨leaves, trees, rfl⟩ := same
  have alone := pairs_of_masks leaves fun a found b equal =>
    condition_alike calm tableCalm equal (named a (List.mem_append_left _ found))
  have grouped := pairs_of_masks trees fun a found b equal =>
    have whole : (Member.group a).mask = (Member.group b).mask := congrArg Member.group equal
    member_alike calm tableCalm whole fun c leaf =>
      named c (List.mem_append_right _ (List.mem_flatMap.mpr ⟨a, found, leaf⟩))
  have parts := List.rel_append
    (List.forall₂_map_left_iff.mpr (List.forall₂_map_right_iff.mpr alone))
    (List.forall₂_map_left_iff.mpr (List.forall₂_map_right_iff.mpr grouped))
  have whole := fold_alike combinator parts
  simp only [List.map_append, List.map_map, List.flatMap_append, List.flatMap_map,
    Function.comp_def] at whole
  simp only [Criteria.whereClause, Criteria.literals, Criteria.leaves, List.flatMap_append,
    List.flatMap_assoc]
  exact whole.filled (by decide)

end Trees

/-- What the strings of a tree hold does not show in the tokens of its statement, apart from what
the string tokens hold: exactly the texts that were meant to be there, in order. -/
theorem strings_contained {source : EventSource} (calm : source.Calm) {dataset : String}
    (datasetCalm : IsCalm dataset) {first second : Criteria} (same : first.mask = second.mask)
    (named : ∀ condition ∈ first.leaves, condition.Named IsCalm) :
    List.Forall₂ (fun a b => a.kind.Alike b.kind) (tokenize (first.statement source dataset))
        (tokenize (second.statement source dataset)) ∧
      (tokenize (first.statement source dataset)).filterMap (fun a => a.kind.content?) =
        first.literals ∧
      (tokenize (second.statement source dataset)).filterMap (fun a => a.kind.content?) =
        second.literals := by
  have select : Stretch "SELECT * FROM " := ⟨by decide, by decide⟩
  have word : tame " WHERE ".toList = true := by decide
  have front := (select.append datasetCalm.quiet).append word
  have closing : Alike ⟨";", []⟩ ⟨";", []⟩ := alike_plain (by decide)
  have body := where_clause_alike calm datasetCalm same named
  have whole : Alike ⟨first.statement source dataset, first.literals⟩
      ⟨second.statement source dataset, second.literals⟩ := by
    simpa [statement_text, Written.append, String.append_assoc] using
      (body.plain front).append closing
  have scanned := @Alike.scanned _ _ whole [] rfl
  simpa [← kinds_of_tokenize, kindsOf, List.filterMap_map, Function.comp_def] using scanned

def taggedVisit (text period : String) : Criteria where
  conditions := [.filter ⟨1, "note", .endsWith, .string text, none⟩]
  groups := [⟨2, .or, [.condition (.event {
    id := 3
    columnKey := "buyer"
    relatedColKey := "key"
    eventType := .lastTime
    frequency := none
    count := 1
    timeValue := some (-3)
    timePeriod := some period
    filterCombinator := .and
    filters := [.filter ⟨4, "tags", .containsAll,
      .array [.string text, .object [(text, .number (.int (-1)))]], none⟩]
    combinator := .and
    related := [⟨5, "shops", "shop", [], .or,
      [⟨6, "city", .between, .string text, some .null⟩]⟩] })]⟩]

theorem hostile_strings_contained :
    List.Forall₂ (fun a b => a.kind.Alike b.kind)
        (tokenize ((taggedVisit "x" "day").statement {} "customers"))
        (tokenize ((taggedVisit "');--\n/* OR" " w'eek ").statement {} "customers")) ∧
      (tokenize ((taggedVisit "');--\n/* OR" " w'eek ").statement {} "customers")).filterMap
          (fun a => a.kind.content?) =
        ["%');--\n/* OR", "-3 w'eek", "%');--\n/* OR%", "%\x7b\"');--\\n/* OR\":-1\x7d%",
          "');--\n/* OR", "-3 w'eek"] := by
  have calm : EventSource.Calm {} := ⟨by decide, by decide⟩
  have customers : IsCalm "customers" := by decide
  have same : (taggedVisit "x" "day").mask = (taggedVisit "');--\n/* OR" " w'eek ").mask := rfl
  obtain ⟨kinds, _, texts⟩ := strings_contained calm customers same (by decide)
  exact ⟨kinds, texts⟩

end Cohort
