import Cohort.Proofs.Recovery.Drafts

/-!
Recovery reaches a normal form in one step. Whatever a statement looks like, if nothing of it is
dropped, its tree comes back unchanged from the statement that the tree is written as.
-/

namespace Cohort

open Sql

/-- What holds of an expression if it holds of its parts, those of sub-queries apart, holds of
every expression. -/
theorem Sql.Expr.induction {motive : Expr → Prop}
    (and : ∀ items, (∀ item ∈ items, motive item) → motive (.and items))
    (or : ∀ items, (∀ item ∈ items, motive item) → motive (.or items))
    (grouped : ∀ inner, motive inner → motive (.grouped inner))
    (not : ∀ inner, motive inner → motive (.not inner))
    (exist : ∀ negated query, motive (.exist negated query))
    (predicate : ∀ predicate, motive (.predicate predicate)) (expr : Expr) : motive expr :=
  expr.induction_within and or grouped not (fun negated query _ => exist negated query) predicate

structure Member.Normal (source : EventSource) (member : Member) : Prop where
  branching : member.Branching
  leaves : ∀ condition ∈ member.leaves, condition.Normal source

structure Group.Normal (source : EventSource) (group : Group) : Prop where
  standing : group.Standing
  leaves : ∀ condition ∈ group.leaves, condition.Normal source

section Members

variable {source : EventSource}

theorem condition_normal {condition : Condition} (normal : condition.Normal source) :
    (Member.condition condition).Normal source :=
  ⟨trivial, by simpa [Member.leaves] using normal⟩

theorem leaves_normal {members : List Member}
    (normal : ∀ member ∈ members, member.Normal source) :
    ∀ condition ∈ Member.leavesOf members, condition.Normal source := by
  intro condition leaf
  obtain ⟨member, found, within⟩ := Member.mem_leaves_of.mp leaf
  exact (normal member found).leaves condition within

theorem predicate_normal {predicate : Predicate} (plainly : Plainly predicate) :
    Keeps (recoverFilter predicate) fun back =>
      ∃ filter, back = some filter ∧ (Condition.filter filter).Normal source :=
  (filter_normal plainly).weaken fun _ ⟨filter, found, normal⟩ =>
    ⟨filter, found, normal.whole, normal.restorable, normal.field⟩

theorem members_normal {items : List Expr}
    (each : ∀ item ∈ items, Keeps (recoverMember item) fun back =>
      ∃ member, back = some member ∧ member.Normal source) :
    Keeps (recoverMembers items) fun found =>
      found.length = items.length ∧ ∀ member ∈ found, member.Normal source := by
  rw [recover_members_each]
  exact each_comes_back each

theorem closed_normal (combinator : Combinator) (members : List Member) :
    Keeps (closeGroup combinator members) fun back =>
      members ≠ [] → ∃ id, back = some ⟨id, combinator, members⟩ := by
  by_cases none_ : members = []
  · subst none_
    exact keeps_pure fun some_ => absurd rfl some_
  · exact ((closed_group combinator none_).keeps).weaken fun _ found _ => found

/-- A fold of several items comes back as a group of as many members. -/
theorem fold_normal (combinator : Combinator) {items : List Expr} (many : 2 ≤ items.length)
    (each : ∀ item ∈ items, Keeps (recoverMember item) fun back =>
      ∃ member, back = some member ∧ member.Normal source) :
    Keeps (do
      let group ← closeGroup combinator (← recoverMembers items)
      pure (group.map Member.group)) fun back =>
        ∃ member, back = some member ∧ member.Normal source := by
  refine (members_normal each).bind fun members => ?_
  refine (closed_normal combinator members).bind fun group => keeps_pure ?_
  rintro closed ⟨length, normal⟩
  have some_ : members ≠ [] := by
    rintro rfl
    simp at length
    omega
  obtain ⟨id, rfl⟩ := closed some_
  have branching : 2 ≤ members.length ∧ Member.AllBranching members :=
    ⟨length ▸ many, all_branching.mpr fun member found => (normal member found).branching⟩
  exact ⟨_, rfl, branching, leaves_normal normal⟩

/-- A clean expression comes back as a member, unless something of it is dropped. -/
theorem member_normal (expr : Expr) (clean : expr.Clean source) :
    Keeps (recoverMember expr) fun back =>
      ∃ member, back = some member ∧ member.Normal source := by
  induction expr using Expr.induction with
  | and items ih =>
      obtain ⟨many, each⟩ := regular_and.mp clean
      rw [recoverMember]
      exact fold_normal .and many fun item found => ih item found (each item found)
  | or items ih =>
      obtain ⟨many, each⟩ := regular_or.mp clean
      rw [recoverMember]
      exact fold_normal .or many fun item found => ih item found (each item found)
  | grouped inner ih =>
      rw [recoverMember]
      exact ih (regular_grouped.mp clean)
  | not inner ih =>
      rw [recoverMember]
      exact keeps_drop _ _ none
  | exist negated query =>
      rw [recoverMember]
      refine (event_normal clean _).bind fun back => keeps_pure ?_
      rintro ⟨event, rfl, normal⟩
      exact ⟨_, rfl, condition_normal normal⟩
  | predicate predicate =>
      rw [recoverMember]
      have plainly := clean.predicates predicate (by simp [Expr.everyPredicate])
      refine (@predicate_normal source _ plainly).bind fun back => keeps_pure ?_
      rintro ⟨filter, rfl, normal⟩
      exact ⟨_, rfl, condition_normal normal⟩

/-- A part of the outermost fold comes back as a group, unless something of it is dropped. -/
theorem group_normal {fragment : Expr} (clean : fragment.Clean source) :
    Keeps (recoverGroup fragment) fun back =>
      ∃ group, back = some group ∧ group.Normal source := by
  obtain ⟨kept, some_, each⟩ := clean_split (clean_unwrap clean)
  refine (members_normal fun item found => member_normal item (each item found)).bind
    fun members => (closed_normal _ members).weaken ?_
  rintro back closed ⟨length, normal⟩
  have filled : members ≠ [] := by
    rintro rfl
    exact some_ (List.length_eq_zero_iff.mp length.symm)
  obtain ⟨id, rfl⟩ := closed filled
  refine ⟨_, rfl, ⟨filled, length ▸ kept, ?_⟩, leaves_normal normal⟩
  exact all_branching.mpr fun member found => (normal member found).branching

theorem groups_normal {fragments : List Expr}
    (clean : ∀ fragment ∈ fragments, fragment.Clean source) :
    Keeps (recoverGroups fragments) fun found =>
      found.length = fragments.length ∧ ∀ group ∈ found, group.Normal source := by
  rw [recover_groups_each]
  exact each_comes_back fun fragment found => group_normal (clean fragment found)

end Members

structure Criteria.Normal (source : EventSource) (criteria : Criteria) : Prop where
  grouped : criteria.conditions = []
  groups : ∀ group ∈ criteria.groups, group.Normal source
  fold : FoldKept criteria.combinator criteria.groups.length

section Trees

variable {source : EventSource}

theorem criteria_normal {expr : Expr} (clean : expr.Clean source) :
    Keeps (recoverCriteria expr) (Criteria.Normal source) := by
  obtain ⟨kept, _, each⟩ := clean_split clean
  refine (groups_normal each).bind fun groups => keeps_pure ?_
  rintro ⟨length, normal⟩
  exact ⟨rfl, normal, length ▸ kept⟩

theorem Criteria.Normal.leaves {criteria : Criteria} (normal : criteria.Normal source) :
    ∀ condition ∈ criteria.leaves, condition.Normal source := by
  intro condition leaf
  simp only [Criteria.leaves, normal.grouped, List.nil_append, List.mem_flatMap] at leaf
  obtain ⟨group, found, within⟩ := leaf
  exact (normal.groups group found).leaves condition within

theorem Criteria.Normal.restorable {criteria : Criteria} (normal : criteria.Normal source) :
    criteria.Restorable source where
  conditions := fun condition leaf => (normal.leaves condition leaf).restorable
  groups := fun group found => (normal.groups group found).standing
  fold := by simpa [normal.grouped] using normal.fold

theorem Criteria.Normal.comes_back {criteria : Criteria} (normal : criteria.Normal source)
    (plain : source.Plain) {dataset : String} (datasetPlain : IsPlain dataset)
    (shallow : nesting (criteria.statement source dataset) ≤ maxNesting) :
    ∃ back, Recovered.ofStatement (criteria.statement source dataset) =
        ⟨back, some dataset, []⟩ ∧ back.withoutIds = criteria.withoutIds := by
  have leaves := normal.leaves
  have denotes := where_clause_denotes plain datasetPlain fun condition leaf =>
    restorable_readable (leaves condition leaf).named (leaves condition leaf).restorable
  rw [statement_nesting datasetPlain denotes] at shallow
  obtain ⟨back, whole, same⟩ := statement_recovered plain datasetPlain
    (fun condition leaf => (leaves condition leaf).named) normal.restorable shallow
  refine ⟨back, whole, ?_⟩
  rw [same, default_criteria normal.grouped fun condition leaf => (leaves condition leaf).default]

end Trees

def condition? (sql : String) : Option Expr :=
  ((whereBody 0 (tokenize (normalizeStatement sql))).bind readExpr).map Prod.fst

/-- What holds of the tree of a condition, unless something of it is dropped, holds of the tree of a
statement of which nothing is dropped. -/
theorem kept_condition {sql : String} (kept : (Recovered.ofStatement sql).dropped = [])
    {post : Expr → Criteria → Prop}
    (each : ∀ expr, condition? sql = some expr → Keeps (recoverCriteria expr) (post expr)) :
    ∃ expr, condition? sql = some expr ∧ post expr (Recovered.ofStatement sql).criteria := by
  obtain ⟨body, expr, rest, found, read, _, lost, whole⟩ := nothing_dropped kept
  have here : condition? sql = some expr := by simp [condition?, found, read]
  obtain ⟨lost', dropped, holds⟩ := each expr here {}
  refine ⟨expr, here, ?_⟩
  rw [whole]
  exact holds (by simpa using dropped.symm.trans lost)

/-- The condition of a statement without quoted names has plain names, and its folds branch. -/
theorem condition_named {sql : String}
    (unquoted : ∀ token ∈ tokenize sql, token.isQuotedName = false) {expr : Expr}
    (found : condition? sql = some expr) : expr.Named IsPlain := by
  obtain ⟨⟨_, rest⟩, read, rfl⟩ := Option.map_eq_some_iff.mp found
  obtain ⟨body, found, read⟩ := Option.bind_eq_some_iff.mp read
  exact yields_named (names_where_body (statement_names unquoted) found) read

/-- The tree of a statement is normal if nothing of the statement is dropped. -/
theorem recovered_normal {source : EventSource} {sql : String}
    (unquoted : ∀ token ∈ tokenize sql, token.isQuotedName = false)
    (distinct : ∀ expr ∈ condition? sql, ∀ predicate ∈ expr.everyPredicate,
      isMatchAll predicate = false)
    (foreign : ∀ expr ∈ condition? sql, ∀ join ∈ expr.everyJoin, join.table ≠ source.table)
    (kept : (Recovered.ofStatement sql).dropped = []) :
    (Recovered.ofStatement sql).criteria.Normal source := by
  obtain ⟨_, _, normal⟩ := @kept_condition sql kept (fun _ => Criteria.Normal source)
    fun expr found => by
      have named := condition_named unquoted found
      exact criteria_normal ⟨named.branching,
        fun p member => ⟨named.predicates p member, distinct expr found p member⟩,
        fun j member => ⟨named.joins j member, foreign expr found j member⟩⟩
  exact normal

/-- Recovery is done after one step: a statement of which nothing is dropped is recovered as a tree
that comes back unchanged from its own statement. -/
theorem recovery_reaches_normal_form {source : EventSource} (plain : source.Plain) {sql : String}
    (unquoted : ∀ token ∈ tokenize sql, token.isQuotedName = false)
    (distinct : ∀ expr ∈ condition? sql, ∀ predicate ∈ expr.everyPredicate,
      isMatchAll predicate = false)
    (foreign : ∀ expr ∈ condition? sql, ∀ join ∈ expr.everyJoin, join.table ≠ source.table) :
    let first := Recovered.ofStatement sql
    let dataset := first.dataset.getD "t"
    let again := Recovered.ofStatement (first.criteria.statement source dataset)
    first.dropped = [] → nesting (first.criteria.statement source dataset) ≤ maxNesting →
      again.dropped = [] ∧ again.dataset = some dataset ∧
        again.criteria.withoutIds = first.criteria.withoutIds := by
  intro first dataset again kept shallow
  have normal := recovered_normal unquoted distinct foreign kept
  have named : ∀ name ∈ first.dataset, IsPlain name := fun name found =>
    recovered_dataset_good (statement_names unquoted) found
  have datasetPlain : IsPlain dataset := by
    cases found : first.dataset with
    | none =>
        have unnamed : IsPlain "t" := by decide
        simpa [dataset, found] using unnamed
    | some name => simpa [dataset, found] using named name found
  obtain ⟨back, whole, same⟩ := normal.comes_back plain datasetPlain shallow
  have parts : again = ⟨back, some dataset, []⟩ := whole
  rw [parts]
  exact ⟨rfl, rfl, same⟩

def mixedStatement : String :=
  "SELECT * FROM t WHERE a='x' OR ((b='y')) AND EXISTS (SELECT 1 FROM e WHERE d='z')"

def mixedTree : Criteria :=
  (Recovered.ofStatement mixedStatement).criteria

theorem mixed_tree_reaches_normal_form :
    (Recovered.ofStatement mixedStatement).dropped = [] ∧
      (Recovered.ofStatement (mixedTree.statement {} "t")).dropped = [] ∧
      (Recovered.ofStatement (mixedTree.statement {} "t")).dataset = some "t" ∧
      (Recovered.ofStatement (mixedTree.statement {} "t")).criteria.withoutIds =
        mixedTree.withoutIds := by
  have plain : EventSource.Plain {} := ⟨by decide, by decide⟩
  have named : IsPlain "t" := by decide
  obtain ⟨kept, table, readable, levels⟩ :
      (Recovered.ofStatement mixedStatement).dropped = [] ∧
        (Recovered.ofStatement mixedStatement).dataset.getD "t" = "t" ∧
        (∀ condition ∈ mixedTree.leaves, condition.Readable) ∧
        (mixedTree.expr {} "t").levels ≤ maxNesting := by
    rw [mixedTree, Recovered.ofStatement, tokenize_normalized]
    decide +kernel
  have denotes := where_clause_denotes plain named readable
  have shallow : nesting (mixedTree.statement {} "t") ≤ maxNesting := by
    rw [statement_nesting named denotes, denotes.nesting_eq]
    exact levels
  have unquoted : ∀ token ∈ tokenize mixedStatement, token.isQuotedName = false := by
    decide +kernel
  obtain ⟨distinct, foreign⟩ :
      (∀ expr ∈ condition? mixedStatement, ∀ predicate ∈ expr.everyPredicate,
        isMatchAll predicate = false) ∧
      ∀ expr ∈ condition? mixedStatement, ∀ join ∈ expr.everyJoin,
        join.table ≠ ({} : EventSource).table := by
    rw [condition?, tokenize_normalized]
    decide +kernel
  have whole := recovery_reaches_normal_form plain unquoted distinct foreign
  simp only [table] at whole
  exact ⟨kept, whole kept shallow⟩

end Cohort
