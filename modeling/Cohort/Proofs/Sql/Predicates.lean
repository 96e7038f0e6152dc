import Cohort.Proofs.Sql.Levels

/-!
All predicates and all joins of an expression, those of its sub-queries among them, and induction
over expressions.
-/

namespace Cohort.Sql

/-- What holds of an expression if it holds of its parts, and of one with a sub-query if it holds of
the condition of the sub-query, holds of every expression. -/
theorem Expr.induction_within {motive : Expr → Prop}
    (and : ∀ items, (∀ item ∈ items, motive item) → motive (.and items))
    (or : ∀ items, (∀ item ∈ items, motive item) → motive (.or items))
    (grouped : ∀ inner, motive inner → motive (.grouped inner))
    (not : ∀ inner, motive inner → motive (.not inner))
    (exist : ∀ negated query, (∀ filter ∈ query.filter, motive filter) →
      motive (.exist negated query))
    (predicate : ∀ predicate, motive (.predicate predicate)) (expr : Expr) : motive expr := by
  refine @Expr.rec motive (fun query => ∀ filter ∈ query.filter, motive filter)
    (fun items => ∀ item ∈ items, motive item) (fun filter => ∀ expr ∈ filter, motive expr)
    and or grouped not exist predicate (fun _ _ _ _ _ within => within) (by simp) ?_ (by simp)
    (fun filter holds => by simpa using holds) expr
  intro head tail first rest item found
  rcases List.mem_cons.mp found with rfl | found
  · exact first
  · exact rest item found

mutual

def Expr.everyPredicate : Expr → List Predicate
  | .and items => Expr.everyPredicateOf items
  | .or items => Expr.everyPredicateOf items
  | .grouped inner => inner.everyPredicate
  | .not inner => inner.everyPredicate
  | .exist _ query => query.everyPredicate
  | .predicate p => [p]

def Expr.everyPredicateOf : List Expr → List Predicate
  | [] => []
  | item :: rest => item.everyPredicate ++ Expr.everyPredicateOf rest

def Subquery.everyPredicate : Subquery → List Predicate
  | ⟨_, _, filter, _, having⟩ =>
      (match filter with
        | some filter => filter.everyPredicate
        | none => []) ++ having.toList

end

def Predicate.isParsed : Predicate → Bool
  | .unparsed _ => false
  | _ => true

def Expr.IsParsed (expr : Expr) : Prop :=
  ∀ predicate ∈ expr.everyPredicate, predicate.isParsed = true

theorem every_predicate_of_mem {items : List Expr} {predicate : Predicate} :
    predicate ∈ Expr.everyPredicateOf items ↔ ∃ item ∈ items, predicate ∈ item.everyPredicate := by
  induction items with
  | nil => simp [Expr.everyPredicateOf]
  | cons item rest ih => simp [Expr.everyPredicateOf, ih]

theorem exist_predicate_mem {negated : Bool} {query : Subquery} {predicate : Predicate} :
    predicate ∈ (Expr.exist negated query).everyPredicate ↔
      (∃ filter ∈ query.filter, predicate ∈ filter.everyPredicate) ∨ predicate ∈ query.having := by
  obtain ⟨table, joins, filter, groupBy, having⟩ := query
  cases filter <;> simp [Expr.everyPredicate, Subquery.everyPredicate]

/-- The items of a fold are parsed together. -/
theorem fold_parsed {combine : List Expr → Expr} {items : List Expr}
    (combines : (combine items).everyPredicate = Expr.everyPredicateOf items)
    (each : ∀ item ∈ items, item.IsParsed) : (foldItems combine items).IsParsed := by
  have whole : ∀ predicate ∈ Expr.everyPredicateOf items, predicate.isParsed = true := by
    intro predicate member
    obtain ⟨item, found, within⟩ := every_predicate_of_mem.mp member
    exact each item found predicate within
  fun_cases foldItems combine items with
  | case1 item => exact each item List.mem_cons_self
  | case2 => exact fun predicate member => whole predicate (combines ▸ member)

mutual

def Expr.everyJoin : Expr → List Join
  | .and items => Expr.everyJoinOf items
  | .or items => Expr.everyJoinOf items
  | .grouped inner => inner.everyJoin
  | .not inner => inner.everyJoin
  | .exist _ query => query.everyJoin
  | .predicate _ => []

def Expr.everyJoinOf : List Expr → List Join
  | [] => []
  | item :: rest => item.everyJoin ++ Expr.everyJoinOf rest

def Subquery.everyJoin : Subquery → List Join
  | ⟨_, joins, filter, _, _⟩ =>
      joins ++ match filter with
        | some filter => filter.everyJoin
        | none => []

end

mutual

def Expr.Branching : Expr → Prop
  | .and items => 2 ≤ items.length ∧ Expr.BranchingOf items
  | .or items => 2 ≤ items.length ∧ Expr.BranchingOf items
  | .grouped inner => inner.Branching
  | .not inner => inner.Branching
  | .exist _ query => query.Branching
  | .predicate _ => True

def Expr.BranchingOf : List Expr → Prop
  | [] => True
  | item :: rest => item.Branching ∧ Expr.BranchingOf rest

def Subquery.Branching : Subquery → Prop
  | ⟨_, _, filter, _, _⟩ =>
      match filter with
      | some filter => filter.Branching
      | none => True

end

theorem every_join_of_mem {items : List Expr} {join : Join} :
    join ∈ Expr.everyJoinOf items ↔ ∃ item ∈ items, join ∈ item.everyJoin := by
  induction items with
  | nil => simp [Expr.everyJoinOf]
  | cons item rest ih => simp [Expr.everyJoinOf, ih]

theorem branching_of {items : List Expr} :
    Expr.BranchingOf items ↔ ∀ item ∈ items, item.Branching := by
  induction items with
  | nil => simp [Expr.BranchingOf]
  | cons item rest ih => simp [Expr.BranchingOf, ih]

structure Expr.Regular (good : Predicate → Prop) (fit : Join → Prop) (expr : Expr) : Prop where
  branching : expr.Branching
  predicates : ∀ predicate ∈ expr.everyPredicate, good predicate
  joins : ∀ join ∈ expr.everyJoin, fit join

section Regular

variable {good : Predicate → Prop} {fit : Join → Prop}

theorem regular_predicate {predicate : Predicate} (holds : good predicate) :
    (Expr.predicate predicate).Regular good fit :=
  ⟨trivial, by simpa [Expr.everyPredicate] using holds, by simp [Expr.everyJoin]⟩

theorem regular_grouped {inner : Expr} :
    (Expr.grouped inner).Regular good fit ↔ inner.Regular good fit :=
  ⟨fun ⟨branching, predicates, joins⟩ => ⟨branching, predicates, joins⟩,
    fun ⟨branching, predicates, joins⟩ => ⟨branching, predicates, joins⟩⟩

theorem regular_not {inner : Expr} :
    (Expr.not inner).Regular good fit ↔ inner.Regular good fit :=
  ⟨fun ⟨branching, predicates, joins⟩ => ⟨branching, predicates, joins⟩,
    fun ⟨branching, predicates, joins⟩ => ⟨branching, predicates, joins⟩⟩

theorem regular_and {items : List Expr} :
    (Expr.and items).Regular good fit ↔
      2 ≤ items.length ∧ ∀ item ∈ items, item.Regular good fit := by
  constructor
  · rintro ⟨⟨many, branching⟩, predicates, joins⟩
    refine ⟨many, fun item found => ⟨branching_of.mp branching item found, ?_, ?_⟩⟩
    · exact fun predicate member =>
        predicates predicate (every_predicate_of_mem.mpr ⟨item, found, member⟩)
    · exact fun join member => joins join (every_join_of_mem.mpr ⟨item, found, member⟩)
  · rintro ⟨many, each⟩
    refine ⟨⟨many, branching_of.mpr fun item found => (each item found).branching⟩, ?_, ?_⟩
    · intro predicate member
      obtain ⟨item, found, within⟩ := every_predicate_of_mem.mp member
      exact (each item found).predicates predicate within
    · intro join member
      obtain ⟨item, found, within⟩ := every_join_of_mem.mp member
      exact (each item found).joins join within

theorem regular_or {items : List Expr} :
    (Expr.or items).Regular good fit ↔
      2 ≤ items.length ∧ ∀ item ∈ items, item.Regular good fit := by
  have same : (Expr.or items).Regular good fit ↔ (Expr.and items).Regular good fit :=
    ⟨fun ⟨branching, predicates, joins⟩ => ⟨branching, predicates, joins⟩,
      fun ⟨branching, predicates, joins⟩ => ⟨branching, predicates, joins⟩⟩
  rw [same, regular_and]

theorem regular_exist {negated : Bool} {query : Subquery} :
    (Expr.exist negated query).Regular good fit ↔
      (∀ join ∈ query.joins, fit join) ∧
        (∀ filter ∈ query.filter, filter.Regular good fit) ∧
        ∀ predicate ∈ query.having, good predicate := by
  obtain ⟨table, joins, filter, groupBy, having⟩ := query
  cases filter with
  | none =>
      constructor
      · rintro ⟨_, predicates, fits⟩
        simp only [Expr.everyPredicate, Subquery.everyPredicate, Expr.everyJoin,
          Subquery.everyJoin, List.nil_append, List.append_nil, Option.mem_toList]
          at predicates fits
        exact ⟨fits, by simp, predicates⟩
      · rintro ⟨own, _, count⟩
        refine ⟨trivial, ?_, ?_⟩
        · simpa [Expr.everyPredicate, Subquery.everyPredicate] using count
        · simpa [Expr.everyJoin, Subquery.everyJoin] using own
  | some filter =>
      constructor
      · rintro ⟨branching, predicates, fits⟩
        simp only [Expr.everyPredicate, Subquery.everyPredicate, Expr.everyJoin,
          Subquery.everyJoin, List.mem_append, Option.mem_toList] at predicates fits
        refine ⟨fun join found => fits join (.inl found), ?_,
          fun p found => predicates p (.inr found)⟩
        rintro expr ⟨⟩
        exact ⟨branching, fun p found => predicates p (.inl found),
          fun join found => fits join (.inr found)⟩
      · rintro ⟨own, within, count⟩
        obtain ⟨branching, predicates, joins⟩ := within filter rfl
        refine ⟨branching, ?_, ?_⟩
        · intro p found
          simp only [Expr.everyPredicate, Subquery.everyPredicate, List.mem_append,
            Option.mem_toList] at found
          exact found.elim (predicates p) (count p)
        · intro j found
          simp only [Expr.everyJoin, Subquery.everyJoin, List.mem_append] at found
          exact found.elim (own j) (joins j)

end Regular

end Cohort.Sql
