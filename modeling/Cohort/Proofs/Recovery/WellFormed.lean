import Cohort.Proofs.Recovery.Size
import Cohort.Session

/-!
What every statement is recovered as: groups that have members, filters of two forms, events of one
kind, and ids from one on without a gap. So the ids that are handed out behind a statement go on
where those of its tree end.
-/

namespace Cohort

open Sql

inductive Filter.IsRecovered : Filter → Prop
  | equals (id : Nat) (field text : String) : IsRecovered ⟨id, field, .equals, .string text, none⟩
  | between (id : Nat) (field low high : String) :
      IsRecovered ⟨id, field, .between, .string low, some (.string high)⟩

structure Event.IsRecovered (event : Event) : Prop where
  performed : event.eventType = .performed
  atLeast : event.frequency = some .atLeast
  columnKey : event.columnKey = defaultKey
  relatedColKey : event.relatedColKey = defaultKey
  filters : ∀ condition ∈ event.filters, ∃ filter, condition = .filter filter ∧ filter.IsRecovered
  related : ∀ related ∈ event.related, ∀ filter ∈ related.filters, filter.IsRecovered

def Condition.IsRecovered : Condition → Prop
  | .filter f => f.IsRecovered
  | .event e => e.IsRecovered

mutual

def Member.IsRecovered : Member → Prop
  | .condition c => c.IsRecovered
  | .group g => g.IsRecovered

def Group.IsRecovered : Group → Prop
  | ⟨_, _, members⟩ => members ≠ [] ∧ Member.AllRecovered members

def Member.AllRecovered : List Member → Prop
  | [] => True
  | member :: rest => member.IsRecovered ∧ Member.AllRecovered rest

end

structure Criteria.IsRecovered (criteria : Criteria) : Prop where
  grouped : criteria.conditions = []
  groups : ∀ group ∈ criteria.groups, group.IsRecovered

theorem all_recovered {members : List Member} :
    Member.AllRecovered members ↔ ∀ member ∈ members, member.IsRecovered := by
  induction members with
  | nil => simp [Member.AllRecovered]
  | cons member rest ih => simp [Member.AllRecovered, ih]

/-- What comes back of an action, in another form. -/
theorem Makes.mapped {α β : Type} {action : Recovery (Option α)} {change : α → β}
    {post : α → Prop} {post' : β → Prop}
    (makes : Makes action fun back => ∀ value ∈ back, post value)
    (keeps : ∀ value, post value → post' (change value)) :
    Makes (do let value ← action; pure (value.map change)) fun back =>
      ∀ value ∈ back, post' value := by
  refine makes.bind fun value made => makes_pure fun changed found => ?_
  obtain ⟨value, rfl, rfl⟩ := Option.map_eq_some_iff.mp found
  exact keeps value (made value rfl)

theorem filter_made (predicate : Predicate) :
    Makes (recoverFilter predicate) fun back => ∀ filter ∈ back, filter.IsRecovered := by
  simp only [recoverFilter]
  split
  · exact Makes.behind fun id => makes_pure (by simpa using .equals _ _ _)
  · exact Makes.behind fun id => makes_pure (by simpa using .between _ _ _ _)
  · exact makes_drop _ _ (by simp)
  · split_ifs
    · exact makes_pure (by simp)
    · exact makes_drop _ _ (by simp)

theorem filters_made (members : List Expr) :
    Makes (recoverFilters members) fun found => ∀ filter ∈ found, filter.IsRecovered := by
  rw [recover_filters_each]
  refine each_makes fun member _ => ?_
  simp only [recoverNested]
  split
  · exact filter_made _
  · exact makes_drop _ _ (by simp)

def FiltersRecovered (joins : List Related) : Prop :=
  ∀ related ∈ joins, ∀ filter ∈ related.filters, filter.IsRecovered

structure EventDraft.IsRecovered (draft : EventDraft) : Prop where
  filters : ∀ filter ∈ draft.filters, filter.IsRecovered
  related : FiltersRecovered draft.related

theorem add_related_made {table : String} {combinator : Combinator} {filters : List Filter}
    (made : ∀ filter ∈ filters, filter.IsRecovered) {joins : List Related}
    (before : FiltersRecovered joins) :
    FiltersRecovered (addRelated table combinator filters joins) := by
  induction joins with
  | nil => exact before
  | cons related rest ih =>
      obtain ⟨first, others⟩ := List.forall_mem_cons.mp before
      rw [addRelated]
      split_ifs
      · exact List.forall_mem_cons.mpr ⟨List.forall_mem_append.mpr ⟨first, made⟩, others⟩
      · exact List.forall_mem_cons.mpr ⟨first, ih others⟩

theorem conjunct_made (table : String) {draft : EventDraft} (before : draft.IsRecovered)
    (conjunct : Expr) : Makes (addConjunct table draft conjunct) EventDraft.IsRecovered := by
  have filters := filters_made (splitFold conjunct.unwrap).2
  simp only [addConjunct]
  split_ifs
  · exact makes_pure before
  · refine filters.bind fun found made => makes_pure ⟨?_, before.related⟩
    exact List.forall_mem_append.mpr ⟨before.filters, made⟩
  · refine filters.bind fun found made => makes_pure ⟨before.filters, ?_⟩
    exact add_related_made made before.related
  · exact makes_drop _ _ before

theorem conjuncts_made (table : String) {draft : EventDraft} (before : draft.IsRecovered)
    (conjuncts : List Expr) :
    Makes (addConjuncts table draft conjuncts) EventDraft.IsRecovered := by
  induction conjuncts generalizing draft with
  | nil => exact makes_pure before
  | cons conjunct rest ih => exact (conjunct_made table before conjunct).bind fun _ made => ih made

theorem numbered_made {joins : List Related} (before : FiltersRecovered joins) :
    Makes (numberRelated joins) FiltersRecovered := by
  induction joins with
  | nil => exact makes_pure before
  | cons related rest ih =>
      obtain ⟨first, others⟩ := List.forall_mem_cons.mp before
      refine Makes.behind fun id => (ih others).bind fun found made => makes_pure ?_
      exact List.forall_mem_cons.mpr ⟨first, made⟩

theorem event_made (query : Subquery) (whole : Expr) :
    Makes (recoverEvent query whole) fun back => ∀ event ∈ back, event.IsRecovered := by
  cases found : query.filter with
  | none =>
      simp only [recoverEvent, found]
      exact makes_drop _ _ (by simp)
  | some filter =>
      rw [recover_event_some found]
      refine Makes.behind fun count => ?_
      -- The draft starts with the joins, which have no filters yet.
      have unfilled : EventDraft.IsRecovered { related := query.joins.map fun join =>
          ⟨0, join.table, join.left.name, [], .and, []⟩ } :=
        ⟨by simp, by simp [FiltersRecovered]⟩
      refine (conjuncts_made query.table unfilled _).bind fun draft made => ?_
      refine (numbered_made made.related).bind fun related joined => ?_
      refine Makes.behind fun id => makes_pure ?_
      rintro event ⟨⟩
      exact ⟨rfl, rfl, rfl, rfl, by simpa [EventDraft.event] using made.filters, joined⟩

theorem members_made {items : List Expr}
    (each : ∀ item ∈ items,
      Makes (recoverMember item) fun back => ∀ member ∈ back, member.IsRecovered) :
    Makes (recoverMembers items) Member.AllRecovered := by
  rw [recover_members_each]
  exact fun ledger => all_recovered.mpr (each_makes each ledger)

/-- What has no members does not become a group. -/
theorem closed_made (combinator : Combinator) {members : List Member}
    (made : Member.AllRecovered members) :
    Makes (closeGroup combinator members) fun back => ∀ group ∈ back, group.IsRecovered := by
  simp only [closeGroup]
  split_ifs with none_
  · exact makes_pure (by simp)
  · refine Makes.behind fun id => makes_pure ?_
    rintro group ⟨⟩
    exact ⟨by simpa using none_, made⟩

theorem fold_made (combinator : Combinator) {items : List Expr}
    (each : ∀ item ∈ items,
      Makes (recoverMember item) fun back => ∀ member ∈ back, member.IsRecovered) :
    Makes (do
      let group ← closeGroup combinator (← recoverMembers items)
      pure (group.map Member.group)) fun back => ∀ member ∈ back, member.IsRecovered := by
  refine (members_made each).bind fun members made => ?_
  exact (closed_made combinator made).mapped fun group whole => whole

theorem member_made (expr : Expr) :
    Makes (recoverMember expr) fun back => ∀ member ∈ back, member.IsRecovered := by
  induction expr using Expr.induction with
  | and items ih =>
      rw [recoverMember]
      exact fold_made .and ih
  | or items ih =>
      rw [recoverMember]
      exact fold_made .or ih
  | grouped inner ih =>
      rw [recoverMember]
      exact ih
  | not inner ih =>
      rw [recoverMember]
      exact makes_drop _ _ (by simp)
  | exist negated query =>
      rw [recoverMember]
      exact (event_made query _).mapped fun event made => made
  | predicate predicate =>
      rw [recoverMember]
      exact (filter_made predicate).mapped fun filter made => made

theorem criteria_made (expr : Expr) : Makes (recoverCriteria expr) Criteria.IsRecovered := by
  have groups := @each_makes _ _ recoverGroup Group.IsRecovered (splitFold expr).2
    fun fragment _ => (members_made fun item _ => member_made item).bind fun _ => closed_made _
  rw [← recover_groups_each] at groups
  exact groups.bind fun found made => makes_pure ⟨rfl, made⟩

/-- The ids behind a tree with as many nodes as ids from one on. -/
theorem ids_behind {criteria : Criteria} {after : Nat} (numbered : Numbered 1 criteria.ids after)
    (fits : criteria.ids.length < Decimal.maxU64) :
    IdSource.behind? criteria = some ⟨criteria.ids.length + 1⟩ := by
  rw [IdSource.behind?, numbered_max numbered, IdSource.startingAt?,
    if_pos (Nat.succ_le_of_lt fits)]

/-- Whatever a statement is, its tree is made of groups with members, of equalities with a text and
ranges between two texts, and of events that were performed at least a number of times; the ids of
its nodes are those from one up to their number. A session that the statement is typed into hands
out the next id. -/
theorem recovered_well_formed (sql : String) :
    (Recovered.ofStatement sql).criteria.IsRecovered ∧
      (Recovered.ofStatement sql).criteria.ids.Perm
        (List.range' 1 (Recovered.ofStatement sql).criteria.ids.length) ∧
      (sql.toList.length < Decimal.maxU64 → ∀ session : Session, ∃ later : Session,
        session.apply sql = .ok later ∧ later.criteria = (Recovered.ofStatement sql).criteria ∧
          later.ids.next = (Recovered.ofStatement sql).criteria.ids.length + 1) := by
  obtain ⟨after, numbered⟩ := recovered_numbered sql
  have made : (Recovered.ofStatement sql).criteria.IsRecovered :=
    @recovered_tree Criteria.IsRecovered ⟨rfl, by simp⟩ (fun expr => criteria_made expr {}) sql
  have size := recovered_size sql
  unfold Session.apply
  generalize Recovered.ofStatement sql = back at numbered made size ⊢
  refine ⟨made, ?_, fun bounded session => ?_⟩
  · -- The ids are those from one up to `after`, so there are as many as the last of them says.
    rw [show back.criteria.ids.length = after - 1 by have := numbered.length; omega]
    exact numbered.2
  · simp only [ids_behind numbered (size.trans_lt bounded)]
    exact ⟨_, rfl, rfl, rfl⟩

def patchy : String :=
  "SELECT * FROM t WHERE (a = 'x' AND (b > 2 OR (NOT c = 'y'))) OR (d ! 'z' AND ()) OR EXISTS " ++
    "(SELECT 1 FROM e INNER JOIN p ON e.k = p.k WHERE e.f = 'u' AND p.g BETWEEN '1' AND '2' AND h)"

theorem patchy_well_formed :
    (Recovered.ofStatement patchy).criteria.ids = [2, 1, 7, 6, 3, 5, 4] ∧
      (Recovered.ofStatement patchy).criteria.IsRecovered ∧
      ∀ session : Session, ∃ later : Session, session.apply patchy = .ok later ∧
        later.criteria = (Recovered.ofStatement patchy).criteria ∧ later.ids.next = 8 := by
  have ids : (Recovered.ofStatement patchy).criteria.ids = [2, 1, 7, 6, 3, 5, 4] := by
    rw [Recovered.ofStatement, tokenize_normalized]
    decide +kernel
  have bounded : patchy.toList.length < Decimal.maxU64 := by decide +kernel
  obtain ⟨whole, _, behind⟩ := recovered_well_formed patchy
  have later := behind bounded
  rw [ids] at later
  exact ⟨ids, whole, later⟩

end Cohort
