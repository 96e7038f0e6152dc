import Cohort.Proofs.Recovery.Meaning

/-!
What the filters of a sub-query say, and what those of its event say. An event has one fold for each
table; a sub-query may have several, of which the last one gives the combinator for the filters of
all. The event says what the sub-query says where a table with several folds has conjunctions only.
-/

namespace Cohort

open Sql

structure TableFold where
  table : String
  combinator : Combinator
  atoms : List Atom
  deriving DecidableEq, Repr

def TableFold.holds (truth : String → Atom → Bool) (fold : TableFold) : Bool :=
  fold.combinator.holds (fold.atoms.map (truth fold.table))

def Sql.Expr.placed? (item : Expr) : Option (String × Atom) :=
  match item.innermost with
  | .predicate p => do
      let table ← predicateTable? p
      let atom ← p.atom?
      some (table, atom)
  | _ => none

def tableFold? (conjunct : Expr) : Option TableFold := do
  let (combinator, items) := splitFold conjunct.unwrap
  match ← items.mapM Expr.placed? with
  | [] => none
  | (table, atom) :: rest =>
      if rest.all (·.1 == table) then some ⟨table, combinator, atom :: rest.map (·.2)⟩ else none

def isTieItem : Expr → Bool
  | .predicate p => isTie p
  | _ => false

def isTieConjunct (conjunct : Expr) : Bool :=
  let (combinator, items) := splitFold conjunct.unwrap
  combinator = .and ∧ items ≠ [] ∧ items.all isTieItem

namespace Sql.Subquery

def conjuncts (query : Subquery) : List Expr :=
  match query.filter with
  | some filter => conjunctsOf filter
  | none => []

def folds (query : Subquery) : List TableFold :=
  query.conjuncts.filterMap tableFold?

def tables (query : Subquery) : List String :=
  query.table :: query.joins.map Join.table

/-- The condition is made of ties and of folds on the tables of the sub-query, and what is compared
behind it, if anything, is a count or a time. -/
structure IsFolded (query : Subquery) : Prop where
  filter : query.filter.isSome = true
  conjuncts : ∀ conjunct ∈ query.conjuncts,
    isTieConjunct conjunct = true ∨ (tableFold? conjunct).isSome = true
  tables : ∀ fold ∈ query.folds, fold.table ∈ query.tables
  having : ∀ having ∈ query.having,
    (countThreshold? having).isSome = true ∨ having.interval?.isSome = true

instance (query : Subquery) : Decidable query.IsFolded :=
  decidable_of_iff
    (query.filter.isSome = true ∧
      (∀ conjunct ∈ query.conjuncts,
        isTieConjunct conjunct = true ∨ (tableFold? conjunct).isSome = true) ∧
      (∀ fold ∈ query.folds, fold.table ∈ query.tables) ∧
      ∀ having ∈ query.having,
        (countThreshold? having).isSome = true ∨ having.interval?.isSome = true)
    ⟨fun ⟨filter, conjuncts, tables, having⟩ => ⟨filter, conjuncts, tables, having⟩,
      fun ⟨filter, conjuncts, tables, having⟩ => ⟨filter, conjuncts, tables, having⟩⟩

end Sql.Subquery

section Values

variable (truth : String → Atom → Bool)

def Related.value? (related : Related) : Option Bool :=
  (related.filters.mapM (Filter.value? (truth related.dataset))).map related.combinator.holds

def EventDraft.value? (table : String) (draft : EventDraft) : Option Bool := do
  let own ← draft.filters.mapM (Filter.value? (truth table))
  let related ← draft.related.mapM (Related.value? truth)
  some (draft.combinator.holds own && related.all (·))

def Event.filtersValue? (table : String) (event : Event) : Option Bool := do
  let own ← (event.filters.filterMap Condition.filter?).mapM (Filter.value? (truth table))
  let related ← event.related.mapM (Related.value? truth)
  some (event.filterCombinator.holds own && related.all (·))

end Values

/-- A filter that says what an atom says comes back of an item with the atom. -/
theorem placed_gives {item : Expr} {table : String} {atom : Atom}
    (placed : item.placed? = some (table, atom)) :
    Gives (recoverNested item) fun back =>
      ∃ filter, back = some filter ∧ filter.atom? = some atom := by
  simp only [Expr.placed?] at placed
  split at placed
  · next p shape =>
      simp only [recoverNested, shape]
      obtain ⟨_, _, placed⟩ := Option.bind_eq_some_iff.mp placed
      obtain ⟨atom', found, same⟩ := Option.bind_eq_some_iff.mp placed
      obtain ⟨_, rfl⟩ := Prod.mk.inj (Option.some.inj same)
      simp only [Predicate.atom?] at found
      split at found
      · obtain rfl := Option.some.inj found
        exact gives_fresh.bind fun id _ => gives_pure ⟨_, rfl, rfl⟩
      · obtain rfl := Option.some.inj found
        exact gives_fresh.bind fun id _ => gives_pure ⟨_, rfl, rfl⟩
      · cases found
  · cases placed

/-- An item with an atom is one predicate, which is not a tie. -/
theorem placed_shape {item : Expr} {table : String} {atom : Atom}
    (placed : item.placed? = some (table, atom)) :
    splitFold item = (.and, [item]) ∧ ∃ p, item.innermost = .predicate p ∧
      item.predicates = [p] ∧ predicateTable? p = some table ∧ isTie p = false := by
  have inner (item : Expr) {p : Predicate} (shape : item.innermost = .predicate p) :
      splitFold item = (.and, [item]) ∧ item.predicates = [p] := by
    fun_induction Expr.innermost item with
    | case1 inner ih => exact ⟨rfl, (ih shape).2⟩
    | case2 other plain =>
        subst shape
        exact ⟨rfl, rfl⟩
  simp only [Expr.placed?] at placed
  split at placed
  · next p shape =>
      obtain ⟨table', named, placed⟩ := Option.bind_eq_some_iff.mp placed
      obtain ⟨atom', found, same⟩ := Option.bind_eq_some_iff.mp placed
      obtain ⟨rfl, rfl⟩ := Prod.mk.inj (Option.some.inj same)
      refine ⟨(inner item shape).1, p, shape, (inner item shape).2, named, ?_⟩
      simp only [Predicate.atom?] at found
      split at found
      · rfl
      · rfl
      · cases found
  · cases placed

theorem placed_items {items : List Expr} {placed : List (String × Atom)}
    (found : items.mapM Expr.placed? = some placed) :
    List.Forall₂ (fun item place => item.placed? = some place) items placed := by
  induction items generalizing placed with
  | nil =>
      obtain rfl : [] = placed := by simpa using found
      exact .nil
  | cons item rest ih =>
      rw [List.mapM_cons] at found
      obtain ⟨first, here, found⟩ := Option.bind_eq_some_iff.mp found
      obtain ⟨others, behind, found⟩ := Option.bind_eq_some_iff.mp found
      obtain rfl := Option.some.inj found
      exact .cons here (ih behind)

theorem placed_on_table {items : List Expr} {placed : List (String × Atom)} {table : String}
    (each : List.Forall₂ (fun item place => item.placed? = some place) items placed)
    (places : ∀ place ∈ placed, place.1 = table) :
    List.Forall₂ (fun item atom => item.placed? = some (table, atom)) items
      (placed.map (·.2)) := by
  induction each with
  | nil => exact .nil
  | @cons item place _ _ here _ ih =>
      obtain rfl := places place List.mem_cons_self
      exact .cons here (ih fun other member => places other (List.mem_cons_of_mem _ member))

structure Folds (conjunct : Expr) (fold : TableFold) (items : List Expr) : Prop where
  split : splitFold conjunct.unwrap = (fold.combinator, items)
  some_ : items ≠ []
  placed : List.Forall₂ (fun item atom => item.placed? = some (fold.table, atom)) items fold.atoms

theorem folds_of {conjunct : Expr} {fold : TableFold} (found : tableFold? conjunct = some fold) :
    ∃ items, Folds conjunct fold items := by
  simp only [tableFold?] at found
  obtain ⟨placed, each, found⟩ := Option.bind_eq_some_iff.mp found
  have items := placed_items each
  split at found
  · cases found
  · next table atom rest =>
      split_ifs at found with same
      obtain rfl := Option.some.inj found
      refine ⟨(splitFold conjunct.unwrap).2, rfl, ?_, ?_⟩
      · intro none_
        rw [none_] at items
        cases items
      · have places : ∀ place ∈ (table, atom) :: rest, place.1 = table := by simpa using same
        have shape : atom :: rest.map (·.2) = ((table, atom) :: rest).map (·.2) := rfl
        rw [shape]
        exact placed_on_table items places

theorem split_predicates (expr : Expr) :
    expr.predicates = (splitFold expr).2.flatMap Expr.predicates := by
  fun_cases splitFold expr with
  | case1 items => exact predicates_of items
  | case2 items => exact predicates_of items
  | case3 => simp

section Folds

variable {conjunct : Expr} {fold : TableFold} {items : List Expr} (folds : Folds conjunct fold items)

include folds

theorem fold_filters :
    Gives (recoverFilters items) fun found => ∀ truth : Atom → Bool,
      found.mapM (Filter.value? truth) = some (fold.atoms.map truth) := by
  obtain ⟨-, -, placed⟩ := folds
  rw [recover_filters_each]
  generalize fold.table = table at placed
  generalize fold.atoms = atoms at placed ⊢
  induction placed with
  | nil => exact gives_pure fun _ => rfl
  | cons first _ ih =>
      rw [recoverEach]
      refine (placed_gives first).bind ?_
      rintro back ⟨filter, rfl, atom⟩
      refine ih.bind fun others values => gives_pure fun truth => ?_
      simp [List.mapM_cons, Filter.value?, atom, values truth]

theorem fold_table : foldTable? items = some fold.table := by
  obtain ⟨_, some_, placed⟩ := folds
  generalize fold.atoms = atoms at placed
  cases placed with
  | nil => exact absurd rfl some_
  | cons first _ =>
      obtain ⟨_, p, shape, _, named, _⟩ := placed_shape first
      simp [foldTable?, shape, named]

theorem fold_free : isCorrelation conjunct.unwrap = false := by
  obtain ⟨split, some_, placed⟩ := folds
  rw [isCorrelation, split_predicates, split]
  generalize fold.atoms = atoms at placed
  cases placed with
  | nil => exact absurd rfl some_
  | cons first _ =>
      obtain ⟨_, p, _, predicates, _, free⟩ := placed_shape first
      simp [predicates, free]

end Folds

theorem tie_item {item : Expr} (tie : isTieItem item = true) :
    ∃ p, item = .predicate p ∧ isTie p = true := by
  fun_cases isTieItem item with
  | case1 p => exact ⟨p, rfl, tie⟩
  | case2 => simp_all [isTieItem]

theorem tie_correlates {conjunct : Expr} (tie : isTieConjunct conjunct = true) :
    isCorrelation conjunct.unwrap = true ∧ tableFold? conjunct = none := by
  simp only [isTieConjunct, decide_eq_true_eq] at tie
  obtain ⟨_, some_, each⟩ := tie
  have predicates : ∀ p ∈ conjunct.unwrap.predicates, isTie p = true := by
    rw [split_predicates]
    intro p member
    obtain ⟨item, found, within⟩ := List.mem_flatMap.mp member
    obtain ⟨q, rfl, tie⟩ := tie_item (List.all_eq_true.mp each item found)
    obtain rfl := List.mem_singleton.mp within
    exact tie
  rw [isCorrelation, tableFold?]
  cases items : (splitFold conjunct.unwrap).2 with
  | nil => exact absurd items some_
  | cons first rest =>
      obtain ⟨q, rfl, tie⟩ := tie_item (List.all_eq_true.mp each first (by simp [items]))
      have no_place : (Expr.predicate q).placed? = none := by
        cases found : (Expr.predicate q).placed? with
        | none => rfl
        | some place =>
            obtain ⟨_, p, same, _, _, free⟩ := placed_shape found
            cases same
            simp [tie] at free
      refine ⟨?_, by simp [items, List.mapM_cons, no_place]⟩
      have filled : conjunct.unwrap.predicates ≠ [] := by
        simp [split_predicates, items, Expr.predicates]
      simpa [filled] using predicates

theorem holds_append {first second : Combinator} {old : List Bool} (new : List Bool)
    (fits : old = [] ∨ first = .and ∧ second = .and) :
    second.holds (old ++ new) = (first.holds old && second.holds new) := by
  rcases fits with rfl | ⟨rfl, rfl⟩
  · simp [Combinator.holds]
  · simp [conjunction_holds]

/-- Two folds on the same table are both conjunctions. -/
def Compatible (first second : TableFold) : Prop :=
  first.table = second.table → first.combinator = .and ∧ second.combinator = .and

instance : DecidableRel Compatible := fun first second =>
  inferInstanceAs (Decidable (first.table = second.table → _ ∧ _))

section Joined

variable {table : String} {combinator : Combinator} {found : List Filter}

theorem add_related_tables (joins : List Related) :
    (addRelated table combinator found joins).map Related.dataset = joins.map Related.dataset := by
  induction joins with
  | nil => rfl
  | cons related rest ih =>
      rw [addRelated]
      split_ifs <;> simp [ih]

/-- The fold goes to a join of its table, and the others stay. -/
theorem add_related_origin {joins : List Related} {related : Related}
    (member : related ∈ addRelated table combinator found joins) :
    related ∈ joins ∨ related.dataset = table ∧ related.combinator = combinator := by
  induction joins with
  | nil => simp [addRelated] at member
  | cons first rest ih =>
      rw [addRelated] at member
      split_ifs at member with same
      · rcases List.mem_cons.mp member with rfl | member
        · exact .inr ⟨same, rfl⟩
        · exact .inl (List.mem_cons_of_mem first member)
      · rcases List.mem_cons.mp member with rfl | member
        · exact .inl List.mem_cons_self
        · exact (ih member).imp (List.mem_cons_of_mem first) id

/-- A fold more holds together with what held before. -/
theorem add_related_value {truth : String → Atom → Bool} {joins : List Related}
    (fits : ∀ related ∈ joins, related.dataset = table → related.filters ≠ [] →
      related.combinator = .and ∧ combinator = .and)
    (listed : table ∈ joins.map Related.dataset) {values new : List Bool}
    (before : joins.mapM (Related.value? truth) = some values)
    (added : found.mapM (Filter.value? (truth table)) = some new) :
    ∃ after, (addRelated table combinator found joins).mapM (Related.value? truth) = some after ∧
      after.all (·) = (values.all (·) && combinator.holds new) := by
  induction joins generalizing values with
  | nil => simp at listed
  | cons related rest ih =>
      rw [List.mapM_cons] at before
      obtain ⟨first, here, before⟩ := Option.bind_eq_some_iff.mp before
      obtain ⟨others, behind, before⟩ := Option.bind_eq_some_iff.mp before
      obtain rfl := Option.some.inj before
      rw [addRelated]
      split_ifs with same
      · obtain ⟨old, read, rfl⟩ := Option.map_eq_some_iff.mp here
        -- The new combinator takes the place of the old one, which is no loss between conjunctions.
        have fit : old = [] ∨ related.combinator = .and ∧ combinator = .and := by
          by_cases none_ : related.filters = []
          · exact .inl (by simpa [none_] using read.symm)
          · exact .inr (fits related List.mem_cons_self same none_)
        refine ⟨combinator.holds (old ++ new) :: others, ?_, ?_⟩
        · simp [List.mapM_cons, Related.value?, List.mapM_append, same ▸ read, added, behind, same]
        · simp [holds_append new fit, Bool.and_right_comm]
      · obtain ⟨after, read, value⟩ := ih
          (fun other member => fits other (List.mem_cons_of_mem related member))
          (by simpa [Ne.symm same] using listed) behind
        exact ⟨first :: after, by simp [List.mapM_cons, here, read],
          by simp [value, Bool.and_assoc]⟩

end Joined

structure EventDraft.Holds (query : Subquery) (done : List TableFold) (draft : EventDraft) :
    Prop where
  tables : draft.related.map Related.dataset = query.joins.map Join.table
  own : draft.filters ≠ [] →
    ∃ fold ∈ done, fold.table = query.table ∧ fold.combinator = draft.combinator
  joined : ∀ related ∈ draft.related, related.filters ≠ [] →
    ∃ fold ∈ done, fold.table = related.dataset ∧ fold.combinator = related.combinator
  value : done.Pairwise Compatible → ∀ truth : String → Atom → Bool,
    draft.value? truth query.table = some (done.all (TableFold.holds truth))

section Drafts

variable {query : Subquery} {done : List TableFold} {draft : EventDraft} {fold : TableFold}
  {found : List Filter}

/-- The folds that were read before one are compatible with it and with each other. -/
theorem compatible_before (all : (done ++ [fold]).Pairwise Compatible) :
    done.Pairwise Compatible ∧ ∀ earlier ∈ done, Compatible earlier fold := by
  obtain ⟨before, _, across⟩ := List.pairwise_append.mp all
  exact ⟨before, fun earlier member => across earlier member fold List.mem_cons_self⟩

theorem holds_own (holds : draft.Holds query done) (here : fold.table = query.table)
    (values : ∀ truth : Atom → Bool,
      found.mapM (Filter.value? truth) = some (fold.atoms.map truth)) :
    EventDraft.Holds query (done ++ [fold])
      { draft with combinator := fold.combinator, filters := draft.filters ++ found } where
  tables := holds.tables
  own := fun _ => ⟨fold, by simp, here, rfl⟩
  joined := by
    intro related member filled
    obtain ⟨earlier, before, same⟩ := holds.joined related member filled
    exact ⟨earlier, List.mem_append_left _ before, same⟩
  value := by
    intro all truth
    obtain ⟨before, across⟩ := compatible_before all
    have value := holds.value before truth
    obtain ⟨old, read, value⟩ := Option.bind_eq_some_iff.mp value
    obtain ⟨related, read', value⟩ := Option.bind_eq_some_iff.mp value
    have fit : old = [] ∨ draft.combinator = .and ∧ fold.combinator = .and := by
      by_cases none_ : draft.filters = []
      · exact .inl (by simpa [none_] using read.symm)
      · obtain ⟨earlier, member, table, combinator⟩ := holds.own none_
        exact .inr (combinator ▸ across earlier member (table.trans here.symm))
    have grown := holds_append (fold.atoms.map (truth query.table)) fit
    simp only [Option.some.injEq] at value
    simp only [EventDraft.value?, List.mapM_append, read, values, read', Option.bind_eq_bind,
      Option.bind_some, Option.pure_def, grown, List.all_append, ← value]
    simp [TableFold.holds, here, Bool.and_right_comm]

theorem holds_joined (holds : draft.Holds query done)
    (listed : fold.table ∈ draft.related.map Related.dataset)
    (values : ∀ truth : Atom → Bool,
      found.mapM (Filter.value? truth) = some (fold.atoms.map truth)) :
    EventDraft.Holds query (done ++ [fold])
      { draft with related := addRelated fold.table fold.combinator found draft.related } where
  tables := (add_related_tables draft.related).trans holds.tables
  own := by
    intro filled
    obtain ⟨earlier, before, same⟩ := holds.own filled
    exact ⟨earlier, List.mem_append_left _ before, same⟩
  joined := by
    intro related member filled
    rcases add_related_origin member with old | ⟨table, combinator⟩
    · obtain ⟨earlier, before, same⟩ := holds.joined related old filled
      exact ⟨earlier, List.mem_append_left _ before, same⟩
    · exact ⟨fold, by simp, table.symm, combinator.symm⟩
  value := by
    intro all truth
    obtain ⟨before, across⟩ := compatible_before all
    have value := holds.value before truth
    obtain ⟨own, read, value⟩ := Option.bind_eq_some_iff.mp value
    obtain ⟨related, read', value⟩ := Option.bind_eq_some_iff.mp value
    have fits : ∀ related ∈ draft.related, related.dataset = fold.table → related.filters ≠ [] →
        related.combinator = .and ∧ fold.combinator = .and := by
      intro related member table filled
      obtain ⟨earlier, found, same, combinator⟩ := holds.joined related member filled
      exact combinator ▸ across earlier found (same.trans table)
    obtain ⟨after, read'', grown⟩ := add_related_value fits listed read' (values _)
    simp only [Option.some.injEq] at value
    simp only [EventDraft.value?, read, read'', Option.bind_eq_bind, Option.bind_some, grown,
      List.all_append, ← value]
    simp [TableFold.holds, Bool.and_assoc]

theorem conjunct_holds {conjunct : Expr}
    (shape : isTieConjunct conjunct = true ∨ (tableFold? conjunct).isSome = true)
    (tables : ∀ fold ∈ tableFold? conjunct, fold.table ∈ query.tables)
    (holds : draft.Holds query done) :
    Gives (addConjunct query.table draft conjunct)
      (EventDraft.Holds query (done ++ (tableFold? conjunct).toList)) := by
  rcases shape with tie | fold
  · obtain ⟨correlates, none_⟩ := tie_correlates tie
    simp only [addConjunct, correlates, ↓reduceIte, none_, Option.toList_none, List.append_nil]
    exact gives_pure holds
  · obtain ⟨fold, shape⟩ := Option.isSome_iff_exists.mp fold
    obtain ⟨items, folds⟩ := folds_of shape
    have table := tables fold shape
    have filters := fold_filters folds
    simp only [addConjunct, fold_free folds, folds.split, fold_table folds, shape,
      Option.getD_some, Bool.false_eq_true, ↓reduceIte, Option.toList_some]
    split_ifs with own joined
    · exact filters.bind fun found values => gives_pure (holds_own holds own values)
    · refine filters.bind fun found values => gives_pure (holds_joined holds ?_ values)
      simpa using joined
    · -- The fold would be dropped, but its table is one of those of the sub-query.
      have listed : fold.table ∈ draft.related.map Related.dataset := by
        rw [holds.tables]
        exact (List.mem_cons.mp table).resolve_left own
      exact absurd (by simpa using listed) joined

theorem conjuncts_holds {conjuncts : List Expr}
    (shape : ∀ conjunct ∈ conjuncts,
      isTieConjunct conjunct = true ∨ (tableFold? conjunct).isSome = true)
    (tables : ∀ fold ∈ conjuncts.filterMap tableFold?, fold.table ∈ query.tables)
    (holds : draft.Holds query done) :
    Gives (addConjuncts query.table draft conjuncts)
      (EventDraft.Holds query (done ++ conjuncts.filterMap tableFold?)) := by
  induction conjuncts generalizing draft done with
  | nil => exact gives_pure (by simpa using holds)
  | cons conjunct rest ih =>
      have here : ∀ fold ∈ tableFold? conjunct, fold.table ∈ query.tables := fun fold found =>
        tables fold (List.mem_filterMap.mpr ⟨conjunct, List.mem_cons_self, found⟩)
      have behind : ∀ fold ∈ rest.filterMap tableFold?, fold.table ∈ query.tables := by
        intro fold member
        obtain ⟨other, found, same⟩ := List.mem_filterMap.mp member
        exact tables fold (List.mem_filterMap.mpr ⟨other, List.mem_cons_of_mem _ found, same⟩)
      refine (conjunct_holds (shape conjunct List.mem_cons_self) here holds).bind
        fun middle held => ?_
      refine (ih (fun other found => shape other (List.mem_cons_of_mem _ found)) behind
        held).weaken fun result whole => ?_
      have same : (conjunct :: rest).filterMap tableFold? =
          (tableFold? conjunct).toList ++ rest.filterMap tableFold? := by
        cases found : tableFold? conjunct <;> simp [found]
      rw [same, ← List.append_assoc]
      exact whole

theorem joined_holds (query : Subquery) :
    EventDraft.Holds query []
      { related := query.joins.map fun join => ⟨0, join.table, join.left.name, [], .and, []⟩ } where
  tables := by simp
  own := by simp
  joined := by simp
  value := by
    intro _ truth
    have free : ∀ joins : List Join,
        (joins.map fun join => (⟨0, join.table, join.left.name, [], .and, []⟩ : Related)).mapM
          (Related.value? truth) = some (joins.map fun _ => true) := by
      intro joins
      induction joins with
      | nil => rfl
      | cons join rest ih => simp [List.mapM_cons, Related.value?, Combinator.holds, ih]
    simp [EventDraft.value?, free, Combinator.holds]

end Drafts

theorem count_given {having : Option Predicate}
    (fits : ∀ predicate ∈ having,
      (countThreshold? predicate).isSome = true ∨ predicate.interval?.isSome = true) :
    Gives (recoverCount having) fun _ => True := by
  fun_cases recoverCount having with
  | case1 => exact gives_pure trivial
  | case2 predicate count found => exact gives_pure trivial
  | case3 predicate none_ timed => exact gives_pure trivial
  | case4 predicate none_ untimed =>
      rcases fits predicate rfl with counted | timed
      · simp [none_] at counted
      · exact absurd timed untimed

def Means (query : Subquery) (event : Event) : Prop :=
  query.folds.Pairwise Compatible → ∀ truth : String → Atom → Bool,
    event.filtersValue? truth query.table = some (query.folds.all (TableFold.holds truth))

theorem folded_event {query : Subquery} (folded : query.IsFolded) (whole : Expr) :
    Gives (recoverEvent query whole) fun back => ∃ event, back = some event ∧
      Means query event := by
  obtain ⟨filter, found⟩ := Option.isSome_iff_exists.mp folded.filter
  have conjuncts : conjunctsOf filter = query.conjuncts := by simp [Subquery.conjuncts, found]
  rw [recover_event_some found, conjuncts]
  refine (count_given folded.having).bind fun count _ => ?_
  refine (conjuncts_holds folded.conjuncts folded.tables (joined_holds query)).bind
    fun draft holds => ?_
  refine (numbered_fresh draft.related).bind fun related same => gives_fresh.bind
    fun id _ => gives_pure ⟨_, rfl, fun compatible truth => ?_⟩
  have value := holds.value compatible truth
  have blind : related.mapM (Related.value? truth) = draft.related.mapM (Related.value? truth) := by
    have mapped := congrArg (List.mapM (Related.value? truth)) same
    have unnumbered : Related.value? truth ∘ Related.unnumbered = Related.value? truth := rfl
    rwa [List.mapM_map, List.mapM_map, unnumbered] at mapped
  simp only [Event.filtersValue?, EventDraft.event, draft_filters, blind]
  exact value

def Criteria.soleEvent? : Criteria → Option Event
  | ⟨[], [⟨_, .and, [.condition (.event event)]⟩], .and⟩ => some event
  | _ => none

/-- A sub-query that stands alone, in any number of parentheses, comes back as a group of its own. -/
theorem sole_criteria {expr : Expr} {negated : Bool} {query : Subquery}
    (sole : expr.innermost = .exist negated query) :
    recoverCriteria expr = (do
      let event ← recoverEvent query (.exist negated query)
      let group ← closeGroup .and (event.toList.map fun event => .condition (.event event))
      pure ⟨[], group.toList, .and⟩) := by
  have member (expr : Expr) (sole : expr.innermost = .exist negated query) :
      recoverMember expr = (do
        let event ← recoverEvent query (.exist negated query)
        pure (event.map fun event => .condition (.event event))) := by
    fun_induction Expr.innermost expr with
    | case1 inner ih =>
        rw [recoverMember]
        exact ih sole
    | case2 other =>
        subst sole
        rw [recoverMember]
  have alone (expr : Expr) (sole : expr.innermost = .exist negated query) :
      splitFold expr = (.and, [expr]) ∧ expr.unwrap.innermost = .exist negated query := by
    cases expr with
    | grouped inner => exact ⟨rfl, sole⟩
    | exist negated query => exact ⟨rfl, sole⟩
    | _ => cases sole
  obtain ⟨whole, inner⟩ := alone expr sole
  simp only [recoverCriteria, whole, recoverGroups, recoverGroup, (alone _ inner).1,
    recoverMembers, member _ inner, bind_assoc, pure_bind, List.append_nil]
  congr 1
  funext back
  cases back <;> rfl

theorem sole_query {expr : Expr} {negated : Bool} {query : Subquery}
    (sole : expr.innermost = .exist negated query) {post : Event → Prop}
    (event : ∀ whole, Gives (recoverEvent query whole) fun back =>
      ∃ event, back = some event ∧ post event) :
    Gives (recoverCriteria expr) fun criteria =>
      ∃ event, criteria.soleEvent? = some event ∧ post event := by
  rw [sole_criteria sole]
  refine (event _).bind ?_
  rintro back ⟨event, rfl, holds⟩
  refine (closed_group .and (List.cons_ne_nil _ _)).bind ?_
  rintro group ⟨id, rfl⟩
  exact gives_pure ⟨event, rfl, holds⟩

def soleQuery? (sql : String) : Option Subquery :=
  match (whereBody 0 (tokenize (normalizeStatement sql))).bind readExpr with
  | some (expr, []) =>
      match expr.innermost with
      | .exist _ query => some query
      | _ => none
  | _ => none

/-- For evaluation, as `tokenize_normalized`. -/
theorem sole_query_tokens (sql : String) : soleQuery? sql =
    match (whereBody 0 (statementTokens sql)).bind readExpr with
    | some (expr, []) =>
        match expr.innermost with
        | .exist _ query => some query
        | _ => none
    | _ => none := by
  delta soleQuery?
  rw [tokenize_normalized]

theorem sole_query_some {sql : String} {query : Subquery} (sole : soleQuery? sql = some query) :
    ∃ body expr negated, whereBody 0 (tokenize (normalizeStatement sql)) = some body ∧
      readExpr body = some (expr, []) ∧ expr.innermost = .exist negated query := by
  delta soleQuery? at sole
  split at sole
  · next expr read =>
      obtain ⟨body, framed, read⟩ := Option.bind_eq_some_iff.mp read
      split at sole
      · next negated query inner =>
          cases sole
          exact ⟨body, expr, negated, framed, read, inner⟩
      · cases sole
  · cases sole

/-- Nothing is dropped of a sub-query whose condition is made of folds of filters on its tables.
Where a table with several folds has conjunctions only, its event says what they say together. -/
theorem subquery_meaning_kept {sql : String} (folded : ∃ query ∈ soleQuery? sql, query.IsFolded) :
    (Recovered.ofStatement sql).dropped = [] ∧
      ∃ query event, soleQuery? sql = some query ∧
        (Recovered.ofStatement sql).criteria.soleEvent? = some event ∧
        (query.folds.Pairwise Compatible → ∀ truth : String → Atom → Bool,
          event.filtersValue? truth query.table =
            some (query.folds.all (TableFold.holds truth))) := by
  obtain ⟨query, sole, folded⟩ := folded
  obtain ⟨body, expr, negated, framed, read, inner⟩ := sole_query_some sole
  obtain ⟨dropped, event, tree, means⟩ := sole_query inner (folded_event folded) {}
  have whole : Recovered.ofStatement sql =
      ⟨(recoverCriteria expr {}).1, outerDataset 0 (tokenize (normalizeStatement sql)),
        (recoverCriteria expr {}).2.dropped⟩ := by
    simp only [Recovered.ofStatement, framed, read]
    rfl
  rw [whole]
  exact ⟨dropped, query, event, sole, tree, means⟩

def foldedStatement : String :=
  "SELECT * FROM t WHERE EXISTS(SELECT 1 FROM p JOIN d ON p.k=d.k " ++
    "WHERE p.c=t.c AND (d.a='x') AND (p.e='y' OR p.f='z') AND (d.b='w'))"

theorem folded_statement_meaning_kept :
    (Recovered.ofStatement foldedStatement).dropped = [] ∧
      ∃ query event, soleQuery? foldedStatement = some query ∧
        (Recovered.ofStatement foldedStatement).criteria.soleEvent? = some event ∧
        ∀ truth : String → Atom → Bool, event.filtersValue? truth query.table =
          some (query.folds.all (TableFold.holds truth)) := by
  obtain ⟨folded, compatible⟩ : (∃ query ∈ soleQuery? foldedStatement, query.IsFolded) ∧
      ∀ query ∈ soleQuery? foldedStatement, query.folds.Pairwise Compatible := by
    rw [sole_query_tokens]
    decide +kernel
  obtain ⟨dropped, query, event, sole, tree, means⟩ := subquery_meaning_kept folded
  exact ⟨dropped, query, event, sole, tree, means (compatible query sole)⟩

def mixedFolds : String :=
  "SELECT * FROM t WHERE EXISTS (SELECT 1 FROM p WHERE p.c = t.c AND (p.a = 'x') " ++
    "AND (p.b = 'y' OR p.b = 'z'))"

/-- The event holds of a row of which the disjunction does not hold, and nothing is dropped. -/
theorem mixed_folds_meaning_lost :
    let truth (_ : String) (atom : Atom) : Bool := atom = .equals "a" "x"
    (Recovered.ofStatement mixedFolds).dropped = [] ∧
      (soleQuery? mixedFolds).map (fun query =>
        (decide query.IsFolded, query.folds.all (TableFold.holds truth))) = some (true, false) ∧
      (Recovered.ofStatement mixedFolds).criteria.soleEvent?.bind
        (Event.filtersValue? truth "p") = some true := by
  dsimp only
  rw [sole_query_tokens, Recovered.ofStatement, tokenize_normalized]
  decide +kernel

end Cohort
