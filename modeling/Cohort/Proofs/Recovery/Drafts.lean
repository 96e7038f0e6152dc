import Cohort.Proofs.Recovery.Names
import Cohort.Proofs.Recovery.RoundTrip

/-!
What recovery makes of any sub-query. Unless something of it is dropped, the event comes back from
its own clause: the filters stand with the first join of their table, and only folds of several
filters are disjunctions.
-/

namespace Cohort

open Sql

structure Filter.Normal (filter : Filter) : Prop where
  restorable : filter.Restorable
  whole : filter.collapse = filter
  field : IsPlain filter.field

/-- A predicate on plain names that does not compare a number with itself. -/
def Plainly (predicate : Predicate) : Prop :=
  predicate.Named IsPlain ∧ isMatchAll predicate = false

/-- A join of a table with a plain name other than that of the table of events. -/
def Joinable (source : EventSource) (join : Join) : Prop :=
  join.Named IsPlain ∧ join.table ≠ source.table

theorem filter_normal {predicate : Predicate} (plainly : Plainly predicate) :
    Keeps (recoverFilter predicate) fun back => ∃ filter, back = some filter ∧ filter.Normal := by
  obtain ⟨named, other⟩ := plainly
  simp only [recoverFilter]
  split
  · next column value =>
      refine keeps_fresh.bind fun id => keeps_pure fun _ => ⟨_, rfl, rfl, rfl, ?_⟩
      exact named column rfl
  · next column low high =>
      refine keeps_fresh.bind fun id => keeps_pure fun _ => ⟨_, rfl, rfl, rfl, ?_⟩
      exact named column rfl
  · exact keeps_drop _ _ none
  · simp only [other, Bool.false_eq_true, ↓reduceIte]
    exact keeps_drop _ _ none

def Sql.Expr.Clean (source : EventSource) (expr : Expr) : Prop :=
  expr.Regular Plainly (Joinable source)

section Filters

variable {source : EventSource}

theorem clean_innermost {expr : Expr} (clean : expr.Clean source) :
    expr.innermost.Clean source := by
  fun_induction Expr.innermost expr with
  | case1 inner ih => exact ih (regular_grouped.mp clean)
  | case2 => exact clean

theorem clean_unwrap {expr : Expr} (clean : expr.Clean source) : expr.unwrap.Clean source := by
  fun_cases Expr.unwrap expr with
  | case1 inner => exact regular_grouped.mp clean
  | case2 => exact clean

/-- A disjunction has at least two items. -/
theorem clean_split {expr : Expr} (clean : expr.Clean source) :
    FoldKept (splitFold expr).1 (splitFold expr).2.length ∧ (splitFold expr).2 ≠ [] ∧
      ∀ item ∈ (splitFold expr).2, item.Clean source := by
  fun_cases splitFold expr with
  | case1 items =>
      obtain ⟨many, each⟩ := regular_and.mp clean
      refine ⟨by simp [FoldKept], ?_, each⟩
      rintro rfl
      simp at many
  | case2 items =>
      obtain ⟨many, each⟩ := regular_or.mp clean
      refine ⟨fun _ => many, ?_, each⟩
      rintro rfl
      simp at many
  | case3 => exact ⟨by simp [FoldKept], by simp, by simpa using clean⟩

theorem nested_normal {member : Expr} (clean : member.Clean source) :
    Keeps (recoverNested member) fun back => ∃ filter, back = some filter ∧ filter.Normal := by
  have inner := clean_innermost clean
  simp only [recoverNested]
  split
  · next predicate shape =>
      rw [shape] at inner
      exact filter_normal (inner.predicates predicate (by simp [Expr.everyPredicate]))
  · exact keeps_drop _ _ none

theorem filters_normal {members : List Expr} (clean : ∀ member ∈ members, member.Clean source) :
    Keeps (recoverFilters members) fun found =>
      found.length = members.length ∧ ∀ filter ∈ found, filter.Normal := by
  rw [recover_filters_each]
  exact each_comes_back fun member found => nested_normal (clean member found)

end Filters

structure Related.Normal (source : EventSource) (related : Related) : Prop where
  fields : related.fields = []
  dataset : IsPlain related.dataset
  joinKey : IsPlain related.joinKey
  foreign : related.dataset ≠ source.table
  filters : ∀ filter ∈ related.filters, filter.Normal
  fold : FoldKept related.combinator related.filters.length

structure EventDraft.Normal (source : EventSource) (draft : EventDraft) : Prop where
  filters : ∀ filter ∈ draft.filters, filter.Normal
  fold : FoldKept draft.combinator draft.filters.length
  related : ∀ related ∈ draft.related, related.Normal source
  /-- Only the first join of a table has filters. -/
  first : draft.related.Pairwise fun earlier later =>
    later.filters ≠ [] → earlier.dataset ≠ later.dataset

theorem fold_grows {combinator : Combinator} {size : Nat} (kept : FoldKept combinator size)
    (more : Nat) : FoldKept combinator (more + size) := by
  intro disjunction
  have enough := kept disjunction
  omega

theorem joined_filters_normal {old new : List Filter} (first : ∀ filter ∈ old, filter.Normal)
    (second : ∀ filter ∈ new, filter.Normal) : ∀ filter ∈ old ++ new, filter.Normal :=
  fun filter member => (List.mem_append.mp member).elim (first filter) (second filter)

section Drafts

variable {source : EventSource}

theorem related_added {related : Related} (normal : related.Normal source)
    {combinator : Combinator} {found : List Filter} (kept : FoldKept combinator found.length)
    (filters : ∀ filter ∈ found, filter.Normal) :
    ({ related with combinator, filters := related.filters ++ found } : Related).Normal source where
  fields := normal.fields
  dataset := normal.dataset
  joinKey := normal.joinKey
  foreign := normal.foreign
  filters := joined_filters_normal normal.filters filters
  fold := by simpa using fold_grows kept related.filters.length

/-- A fold for a table goes to the first join of the table, which leaves the others as they were. -/
theorem add_related_normal {table : String} {combinator : Combinator} {found : List Filter}
    (kept : FoldKept combinator found.length) (filters : ∀ filter ∈ found, filter.Normal)
    {joins : List Related} (normal : ∀ related ∈ joins, related.Normal source)
    (first : joins.Pairwise fun earlier later =>
      later.filters ≠ [] → earlier.dataset ≠ later.dataset) :
    (∀ related ∈ addRelated table combinator found joins, related.Normal source) ∧
      (addRelated table combinator found joins).Pairwise (fun earlier later =>
        later.filters ≠ [] → earlier.dataset ≠ later.dataset) ∧
      ∀ later ∈ addRelated table combinator found joins, later ∈ joins ∨ later.dataset = table := by
  induction joins with
  | nil => exact ⟨normal, first, by simp [addRelated]⟩
  | cons related rest ih =>
      obtain ⟨here, apart⟩ := List.pairwise_cons.mp first
      obtain ⟨normal', first', origin⟩ := ih
        (fun other member => normal other (List.mem_cons_of_mem related member)) apart
      have own := normal related List.mem_cons_self
      rw [addRelated]
      -- The table is that of this join, or the filters go to one behind it.
      split_ifs with same
      · refine ⟨?_, List.pairwise_cons.mpr ⟨here, apart⟩, ?_⟩
        · intro other member
          rcases List.mem_cons.mp member with rfl | member
          · exact related_added own kept filters
          · exact normal other (List.mem_cons_of_mem related member)
        · intro other member
          rcases List.mem_cons.mp member with rfl | member
          · exact .inr same
          · exact .inl (List.mem_cons_of_mem related member)
      · refine ⟨?_, List.pairwise_cons.mpr ⟨?_, first'⟩, ?_⟩
        · intro other member
          rcases List.mem_cons.mp member with rfl | member
          · exact own
          · exact normal' other member
        · intro later member filled
          rcases origin later member with old | added
          · exact here later old filled
          · exact added ▸ same
        · intro other member
          rcases List.mem_cons.mp member with rfl | member
          · exact .inl List.mem_cons_self
          · exact (origin other member).imp (List.mem_cons_of_mem related) id

theorem conjunct_normal (table : String) (draft : EventDraft) {conjunct : Expr}
    (clean : conjunct.Clean source) :
    Keeps (addConjunct table draft conjunct) fun result =>
      draft.Normal source → result.Normal source := by
  obtain ⟨kept, _, each⟩ := clean_split (clean_unwrap clean)
  have members := filters_normal each
  simp only [addConjunct]
  split_ifs
  · exact keeps_pure id
  · refine members.bind fun found => keeps_pure ?_
    rintro ⟨length, filters⟩ normal
    refine ⟨joined_filters_normal normal.filters filters, ?_, normal.related, normal.first⟩
    simpa using fold_grows (length ▸ kept) draft.filters.length
  · refine members.bind fun found => keeps_pure ?_
    rintro ⟨length, filters⟩ normal
    obtain ⟨related, first, _⟩ :=
      add_related_normal (length ▸ kept) filters normal.related normal.first
    exact ⟨normal.filters, normal.fold, related, first⟩
  · exact keeps_drop _ _ draft

theorem conjuncts_normal (table : String) (draft : EventDraft) {conjuncts : List Expr}
    (clean : ∀ conjunct ∈ conjuncts, conjunct.Clean source) :
    Keeps (addConjuncts table draft conjuncts) fun result =>
      draft.Normal source → result.Normal source := by
  induction conjuncts generalizing draft with
  | nil => exact keeps_pure id
  | cons conjunct rest ih =>
      have first := conjunct_normal table draft (clean conjunct List.mem_cons_self)
      have others (draft : EventDraft) :=
        ih draft fun other member => clean other (List.mem_cons_of_mem conjunct member)
      refine first.bind fun middle => (others middle).weaken ?_
      exact fun result step before normal => step (before normal)

/-- The joins of a sub-query before any filter is found. -/
theorem joined_normal {joins : List Join} (joinable : ∀ join ∈ joins, Joinable source join) :
    EventDraft.Normal source
      { related := joins.map fun join => ⟨0, join.table, join.left.name, [], .and, []⟩ } where
  filters := by simp
  fold := by simp [FoldKept]
  related := by
    intro related member
    obtain ⟨join, found, rfl⟩ := List.mem_map.mp member
    obtain ⟨⟨table, key⟩, foreign⟩ := joinable join found
    exact ⟨rfl, table, key, foreign, by simp, by simp [FoldKept]⟩
  first := List.pairwise_map.mpr (List.pairwise_of_forall (by simp))

end Drafts

theorem count_normal (having : Option Predicate) :
    Keeps (recoverCount having) (· ≤ Decimal.maxU32) := by
  have one : defaultCount ≤ Decimal.maxU32 := by decide
  fun_cases recoverCount having with
  | case1 => exact keeps_pure one
  | case2 predicate count found =>
      refine keeps_pure ?_
      simp only [countThreshold?] at found
      split at found
      · split_ifs at found
        obtain rfl := Option.some.inj found
        exact Nat.min_le_right _ _
      · cases found
  | case3 => exact keeps_pure one
  | case4 => exact keeps_drop _ _ defaultCount

def IsWindow (window : Int × String) : Prop :=
  (-2 ^ 63 ≤ window.1 ∧ window.1 < 2 ^ 63) ∧ Text.IsTrimmed window.2 ∧
    " ".intercalate (Text.words window.2) = window.2

theorem read_integer_fits {text : String} {n : Int} (found : readInteger? text = some n) :
    -2 ^ 63 ≤ n ∧ n < 2 ^ 63 := by
  simp only [readInteger?] at found
  split at found
  all_goals
    split_ifs at found with _ fits
    obtain rfl := Option.some.inj found
    rwa [sign_bit] at fits

theorem interval_normal {text : String} {window : Int × String}
    (found : splitInterval? text = some window) : IsWindow window := by
  simp only [splitInterval?] at found
  split at found
  · next amount unit units shape =>
      obtain ⟨n, read, rfl⟩ := Option.map_eq_some_iff.mp found
      have whole : ∀ word ∈ unit :: units, Text.IsWord word := fun word member =>
        Text.words_are_words text word (shape ▸ List.mem_cons_of_mem amount member)
      refine ⟨read_integer_fits read, Text.words_trimmed whole (List.cons_ne_nil _ _), ?_⟩
      rw [Text.words_intercalate whole]
  · cases found

theorem window_normal (filter : Expr) (having : Option Predicate) :
    ∀ window ∈ recoverWindow filter having, IsWindow window := by
  intro window found
  obtain ⟨text, _, read⟩ := Option.bind_eq_some_iff.mp found
  exact interval_normal read

structure Condition.Normal (source : EventSource) (condition : Condition) : Prop where
  default : condition.Default
  restorable : condition.Restorable source
  named : condition.Named IsPlain

theorem plain_not_blank {name : String} (plain : IsPlain name) :
    Text.isBlankText name = false := by
  obtain ⟨c, word, shape, start, _, _⟩ := plain_word plain
  simp [Text.isBlankText, shape, word_not_blank (word_start_is_word start)]

section Events

variable {source : EventSource}

theorem Related.Normal.joinable {related : Related} (normal : related.Normal source) :
    related.isJoinable = true := by
  simp [Related.isJoinable, plain_not_blank normal.dataset, plain_not_blank normal.joinKey]

theorem Related.Normal.whole {related : Related} (normal : related.Normal source) :
    related.collapse = related := by
  have filters : related.filters.map Filter.collapse = related.filters := by
    rw [List.map_congr_left fun filter member => (normal.filters filter member).whole,
      List.map_id']
  have fields := normal.fields
  obtain ⟨⟩ := related
  simp only at fields filters
  simp only [Related.collapse, filters, fields]

theorem numbered_normal {draft : EventDraft} (normal : draft.Normal source)
    {related : List Related}
    (same : related.map Related.unnumbered = draft.related.map Related.unnumbered) :
    (∀ join ∈ related, join.Normal source) ∧
      related.Pairwise fun earlier later =>
        later.filters ≠ [] → earlier.dataset ≠ later.dataset := by
  constructor
  · intro join member
    have listed : join.unnumbered ∈ draft.related.map Related.unnumbered :=
      same ▸ List.mem_map_of_mem member
    obtain ⟨original, found, shape⟩ := List.mem_map.mp listed
    have kept := normal.related original found
    obtain ⟨⟩ := join
    obtain ⟨⟩ := original
    simp only [Related.unnumbered, Related.mk.injEq] at shape
    obtain ⟨_, rfl, rfl, rfl, rfl, rfl⟩ := shape
    exact ⟨kept.fields, kept.dataset, kept.joinKey, kept.foreign, kept.filters, kept.fold⟩
  · have apart : (draft.related.map Related.unnumbered).Pairwise fun earlier later =>
        later.filters ≠ [] → earlier.dataset ≠ later.dataset := List.pairwise_map.mpr normal.first
    rw [← same] at apart
    exact List.pairwise_map.mp apart

theorem draft_filters (filters : List Filter) :
    (filters.map Condition.filter).filterMap Condition.filter? = filters := by
  induction filters with
  | nil => rfl
  | cons filter rest ih => simpa [Condition.filter?] using ih

theorem draft_window (draft : EventDraft) (count : Nat) {window : Option (Int × String)}
    (windows : ∀ span ∈ window, IsWindow span) (related : List Related) (id : Nat) :
    (draft.event count window related id).window? = window := by
  cases window with
  | none => rfl
  | some span =>
      obtain ⟨_, trimmed, _⟩ := windows span rfl
      simp [Event.window?, EventDraft.event, Text.trimmed_not_blank trimmed,
        Text.trim_trimmed trimmed]

theorem draft_span (draft : EventDraft) (count : Nat) {window : Option (Int × String)}
    (windows : ∀ span ∈ window, IsWindow span) (related : List Related) (id : Nat) :
    (draft.event count window related id).span? = window := by
  rw [Event.span?, draft_window draft count windows]
  cases window with
  | none => rfl
  | some span =>
      obtain ⟨_, _, single⟩ := windows span rfl
      simp [single]

/-- What a normal draft becomes comes back from its own clause. -/
theorem draft_event_normal {draft : EventDraft} (normal : draft.Normal source) {count : Nat}
    (fits : count ≤ Decimal.maxU32) {window : Option (Int × String)}
    (windows : ∀ span ∈ window, IsWindow span) {related : List Related}
    (same : related.map Related.unnumbered = draft.related.map Related.unnumbered) (id : Nat) :
    (Condition.event (draft.event count window related id)).Normal source := by
  obtain ⟨joins, first⟩ := numbered_normal normal same
  have joinable : (draft.event count window related id).joinable = related :=
    List.filter_eq_self.mpr fun join member => (joins join member).joinable
  have span := draft_span draft count windows related id
  have own : (draft.event count window related id).filters.filterMap Condition.filter? =
      draft.filters := draft_filters draft.filters
  have key : IsPlain defaultKey := by decide
  -- The event has the default shape, its clause says all of it, and its names are plain.
  refine ⟨?_, ?_, ?_⟩
  · refine ⟨rfl, rfl, rfl, rfl, by rw [span]; rfl, by rw [span]; rfl, ?_, rfl, ?_⟩
    · intro condition member
      obtain ⟨filter, found, rfl⟩ := List.mem_map.mp member
      exact ⟨filter, rfl, (normal.filters filter found).whole⟩
    · exact fun join member => ⟨(joins join member).joinable, (joins join member).whole⟩
  · refine ⟨by simp [EventDraft.event], fits, ?_, ?_, ?_, ?_, ?_, ?_⟩
    · intro value member
      obtain ⟨found, listed, rfl⟩ := Option.map_eq_some_iff.mp member
      exact (windows found listed).1
    · rw [own]
      exact fun filter member => (normal.filters filter member).restorable
    · rw [own]
      exact normal.fold
    · rw [joinable]
      exact fun join member => ⟨fun filter found =>
        ((joins join member).filters filter found).restorable, (joins join member).fold⟩
    · rw [joinable]
      exact first
    · rw [joinable]
      exact fun join member _ => (joins join member).foreign
  · refine ⟨key, key, ?_, ?_⟩
    · rw [own]
      exact fun filter member => (normal.filters filter member).field
    · rw [joinable]
      exact fun join member => ⟨(joins join member).dataset, (joins join member).joinKey,
        fun filter found => ((joins join member).filters filter found).field⟩

/-- A sub-query comes back as an event, unless something of it is dropped. -/
theorem event_normal {negated : Bool} {query : Subquery}
    (clean : (Expr.exist negated query).Clean source) (whole : Expr) :
    Keeps (recoverEvent query whole) fun back =>
      ∃ event, back = some event ∧ (Condition.event event).Normal source := by
  obtain ⟨joins, filters, _⟩ := regular_exist.mp clean
  cases found : query.filter with
  | none =>
      simp only [recoverEvent, found]
      exact keeps_drop _ _ none
  | some filter =>
      have conjuncts : ∀ conjunct ∈ conjunctsOf filter, conjunct.Clean source := by
        have kept := filters filter found
        fun_cases conjunctsOf filter with
        | case1 items => exact (regular_and.mp kept).2
        | case2 =>
            intro conjunct member
            obtain rfl := List.mem_singleton.mp member
            exact kept
      rw [recover_event_some found]
      refine (count_normal query.having).bind fun count => ?_
      refine (conjuncts_normal query.table _ conjuncts).bind fun draft => ?_
      refine (numbered_fresh draft.related).keeps.bind fun related => ?_
      refine keeps_fresh.bind fun id => keeps_pure fun _ same normal fits => ⟨_, rfl, ?_⟩
      exact draft_event_normal (normal (joined_normal joins)) fits
        (window_normal filter query.having) same id

end Events

end Cohort
