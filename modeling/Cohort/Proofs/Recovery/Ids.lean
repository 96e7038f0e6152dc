import Cohort.Proofs.Numbering
import Cohort.Proofs.Recovery.NormalForm

/-!
The ids that recovery hands out. Every id that is taken from the ledger becomes the id of one node
of what comes back, so the nodes of a tree are numbered from one on without a gap.
-/

namespace Cohort

open Sql

variable {α β : Type}

/-- The result of the action has the ids `before` and those that the action takes from the
ledger. -/
def Assigns (before : List Nat) (action : Recovery α) (ids : α → List Nat) : Prop :=
  ∀ ledger : Ledger, ∃ fresh,
    Numbered (ledger.lastId + 1) fresh ((action ledger).2.lastId + 1) ∧
      (ids (action ledger).1).Perm (before ++ fresh)

theorem assigns_pure {before : List Nat} {value : α} {ids : α → List Nat}
    (same : (ids value).Perm before) : Assigns before (pure value) ids := by
  intro ledger
  refine ⟨[], numbered_none _, ?_⟩
  rw [List.append_nil]
  exact same

theorem assigns_fresh (before : List Nat) : Assigns before freshId fun id => before ++ [id] :=
  fun ledger => ⟨[ledger.lastId + 1], numbered_single _, .rfl⟩

theorem assigns_drop {before : List Nat} (text : String) (reason : DropReason) {value : α}
    {ids : α → List Nat} (same : (ids value).Perm before) :
    Assigns before (do drop text reason; pure value) ids := by
  intro ledger
  refine ⟨[], numbered_none _, ?_⟩
  rw [List.append_nil]
  exact same

theorem Assigns.bind {before : List Nat} {first : Recovery α} {second : α → Recovery β}
    {ids : α → List Nat} {ids' : β → List Nat} (head : Assigns before first ids)
    (tail : ∀ value, Assigns (ids value) (second value) ids') :
    Assigns before (first >>= second) ids' := by
  intro ledger
  obtain ⟨fresh, numbered, same⟩ := head ledger
  obtain ⟨fresh', numbered', same'⟩ := tail (first ledger).1 (first ledger).2
  refine ⟨fresh ++ fresh', numbered.append numbered', same'.trans ?_⟩
  rw [← List.append_assoc]
  exact same.append_right fresh'

theorem Assigns.shuffle {before before' : List Nat} {action : Recovery α} {ids : α → List Nat}
    (assigns : Assigns before action ids) (same : before.Perm before') :
    Assigns before' action ids := by
  intro ledger
  obtain ⟨fresh, numbered, perm⟩ := assigns ledger
  exact ⟨fresh, numbered, perm.trans (same.append_right fresh)⟩

/-- Nodes that the action does not touch. -/
theorem Assigns.frame {before : List Nat} {action : Recovery α} {ids : α → List Nat}
    (assigns : Assigns before action ids) (front : List Nat) :
    Assigns (front ++ before) action fun value => front ++ ids value := by
  intro ledger
  obtain ⟨fresh, numbered, perm⟩ := assigns ledger
  refine ⟨fresh, numbered, ?_⟩
  rw [List.append_assoc]
  exact perm.append_left front

theorem Assigns.behind {action : Recovery α} {ids : α → List Nat}
    (assigns : Assigns [] action ids) (front : List Nat) :
    Assigns front action fun value => front ++ ids value :=
  (assigns.frame front).shuffle (by simp)

/-- What comes back of the items one by one has the ids that are taken for the list. -/
theorem each_assigns {recover : α → Recovery (Option β)} {ids : β → List Nat} {items : List α}
    (step : ∀ item ∈ items, Assigns [] (recover item) fun back => back.toList.flatMap ids) :
    Assigns [] (recoverEach recover items) fun found => found.flatMap ids := by
  induction items with
  | nil => exact assigns_pure .rfl
  | cons item rest ih =>
      refine (step item List.mem_cons_self).bind fun first => ?_
      have others := ih fun other found => step other (List.mem_cons_of_mem item found)
      exact (others.behind _).bind fun behind => assigns_pure (by simp)

theorem filter_assigns (predicate : Predicate) :
    Assigns [] (recoverFilter predicate) fun back => back.toList.flatMap fun f => [f.id] := by
  simp only [recoverFilter]
  split
  · exact (assigns_fresh []).bind fun id => assigns_pure .rfl
  · exact (assigns_fresh []).bind fun id => assigns_pure .rfl
  · exact assigns_drop _ _ .rfl
  · split_ifs
    · exact assigns_pure .rfl
    · exact assigns_drop _ _ .rfl

theorem nested_assigns (member : Expr) :
    Assigns [] (recoverNested member) fun back => back.toList.flatMap fun f => [f.id] := by
  simp only [recoverNested]
  split
  · exact filter_assigns _
  · exact assigns_drop _ _ .rfl

theorem filters_assign (members : List Expr) :
    Assigns [] (recoverFilters members) fun found => found.map Filter.id := by
  have each := @each_assigns _ _ recoverNested (fun filter => [filter.id]) members
    fun member _ => nested_assigns member
  rw [recover_filters_each]
  simpa only [← List.map_eq_flatMap] using each

def filterIds (joins : List Related) : List Nat :=
  joins.flatMap fun related => related.filters.map Filter.id

def EventDraft.ids (draft : EventDraft) : List Nat :=
  draft.filters.map Filter.id ++ filterIds draft.related

theorem add_related_ids {table : String} {joins : List Related} (combinator : Combinator)
    (filters : List Filter) (joined : (joins.any fun related => related.dataset == table) = true) :
    (filterIds (addRelated table combinator filters joins)).Perm
      (filterIds joins ++ filters.map Filter.id) := by
  simp only [filterIds]
  induction joins with
  | nil => cases joined
  | cons related rest ih =>
      rw [addRelated]
      split_ifs with here
      · simp only [List.flatMap_cons, List.map_append, List.append_assoc]
        exact List.perm_append_comm.append_left _
      · have behind : (rest.any fun related => related.dataset == table) = true := by
          simpa [here] using joined
        simpa using (ih behind).append_left _

theorem conjunct_assigns (table : String) (draft : EventDraft) (conjunct : Expr) :
    Assigns draft.ids (addConjunct table draft conjunct) EventDraft.ids := by
  have filters := (filters_assign (splitFold conjunct.unwrap).2).behind draft.ids
  simp only [addConjunct]
  split_ifs with tie own joined
  · exact assigns_pure .rfl
  · refine filters.bind fun found => assigns_pure ?_
    simp only [EventDraft.ids, List.map_append, List.append_assoc]
    exact List.perm_append_comm.append_left _
  · refine filters.bind fun found => assigns_pure ?_
    simp only [EventDraft.ids, List.append_assoc]
    exact (add_related_ids _ found joined).append_left _
  · exact assigns_drop _ _ .rfl

theorem conjuncts_assign (table : String) (draft : EventDraft) (conjuncts : List Expr) :
    Assigns draft.ids (addConjuncts table draft conjuncts) EventDraft.ids := by
  induction conjuncts generalizing draft with
  | nil => exact assigns_pure .rfl
  | cons conjunct rest ih => exact (conjunct_assigns table draft conjunct).bind ih

theorem count_assigns (having : Option Predicate) :
    Assigns [] (recoverCount having) fun _ => [] := by
  simp only [recoverCount]
  split
  · exact assigns_pure .rfl
  · split
    · exact assigns_pure .rfl
    · split_ifs
      · exact assigns_pure .rfl
      · exact assigns_drop _ _ .rfl

theorem joins_assign (joins : List Related) :
    Assigns (filterIds joins) (numberRelated joins) fun found => found.flatMap Related.ids := by
  induction joins with
  | nil => exact assigns_pure .rfl
  | cons related rest ih =>
      refine (assigns_fresh _).bind fun id => ?_
      have others := ih.frame (id :: related.filters.map Filter.id)
      refine (others.shuffle ?_).bind fun found => assigns_pure .rfl
      exact (List.perm_append_singleton id _).symm

theorem event_assigns (query : Subquery) (whole : Expr) :
    Assigns [] (recoverEvent query whole) fun back =>
      back.toList.flatMap fun event => (Condition.event event).ids := by
  cases found : query.filter with
  | none =>
      simp only [recoverEvent, found]
      exact assigns_drop _ _ .rfl
  | some filter =>
      rw [recover_event_some found]
      refine (count_assigns query.having).bind fun count => ?_
      have unfilled : ([] : List Nat).Perm (EventDraft.ids { related := query.joins.map fun join =>
          ⟨0, join.table, join.left.name, [], .and, []⟩ }) := by
        simp [EventDraft.ids, filterIds, List.flatMap_map]
      refine ((conjuncts_assign _ _ _).shuffle unfilled.symm).bind fun draft => ?_
      -- Joins are numbered behind all filters, and the event is last.
      have joins := (joins_assign draft.related).frame (draft.filters.map Filter.id)
      refine joins.bind fun related => (assigns_fresh _).bind fun id => assigns_pure ?_
      have filters : (draft.filters.map Condition.filter).flatMap Condition.ids =
          draft.filters.map Filter.id := by
        rw [List.flatMap_map, List.map_eq_flatMap]
        rfl
      simp only [Option.toList_some, List.flatMap_cons, List.flatMap_nil, List.append_nil,
        Condition.ids, Condition.idsWithin, event_ids_within, EventDraft.event, filters]
      exact (List.perm_append_singleton id _).symm

theorem closed_assigns (combinator : Combinator) (members : List Member) :
    Assigns (Member.idsOf members) (closeGroup combinator members) fun back =>
      back.toList.flatMap Group.ids := by
  simp only [closeGroup]
  split_ifs with none_
  · obtain rfl := List.isEmpty_iff.mp none_
    exact assigns_pure .rfl
  · refine (assigns_fresh _).bind fun id => assigns_pure ?_
    simp only [Option.toList_some, List.flatMap_cons, List.flatMap_nil, List.append_nil, Group.ids]
    exact (List.perm_append_singleton id _).symm

theorem members_assign {items : List Expr}
    (each : ∀ item ∈ items, Assigns [] (recoverMember item) fun back =>
      back.toList.flatMap Member.ids) :
    Assigns [] (recoverMembers items) Member.idsOf := by
  have all := each_assigns each
  rw [← recover_members_each] at all
  simpa only [← member_ids_of] using all

theorem fold_assigns (combinator : Combinator) {items : List Expr}
    (each : ∀ item ∈ items, Assigns [] (recoverMember item) fun back =>
      back.toList.flatMap Member.ids) :
    Assigns [] (do
      let group ← closeGroup combinator (← recoverMembers items)
      pure (group.map Member.group)) fun back => back.toList.flatMap Member.ids := by
  refine (members_assign each).bind fun members => ?_
  refine (closed_assigns combinator members).bind fun group => assigns_pure ?_
  cases group <;> exact .rfl

theorem member_assigns (expr : Expr) :
    Assigns [] (recoverMember expr) fun back => back.toList.flatMap Member.ids := by
  induction expr using Expr.induction with
  | and items ih =>
      rw [recoverMember]
      exact fold_assigns .and ih
  | or items ih =>
      rw [recoverMember]
      exact fold_assigns .or ih
  | grouped inner ih =>
      rw [recoverMember]
      exact ih
  | not inner ih =>
      rw [recoverMember]
      exact assigns_drop _ _ .rfl
  | exist negated query =>
      rw [recoverMember]
      refine (event_assigns query _).bind fun event => assigns_pure ?_
      cases event <;> exact .rfl
  | predicate predicate =>
      rw [recoverMember]
      refine (filter_assigns predicate).bind fun filter => assigns_pure ?_
      cases filter <;> exact .rfl

theorem group_assigns (fragment : Expr) :
    Assigns [] (recoverGroup fragment) fun back => back.toList.flatMap Group.ids :=
  (members_assign fun item _ => member_assigns item).bind (closed_assigns _)

/-- A tree that recovery makes is numbered from the first id that the ledger has left. -/
theorem criteria_assigns (expr : Expr) : Assigns [] (recoverCriteria expr) Criteria.ids := by
  have groups := @each_assigns _ _ recoverGroup Group.ids (splitFold expr).2
    fun fragment _ => group_assigns fragment
  rw [← recover_groups_each] at groups
  exact groups.bind fun found => assigns_pure .rfl

/-- What holds of an empty tree and of the tree of every condition holds of the tree of every
statement. -/
theorem recovered_tree {post : Criteria → Prop} (empty : post {})
    (each : ∀ expr, post (recoverCriteria expr {}).1) (sql : String) :
    post (Recovered.ofStatement sql).criteria := by
  simp only [Recovered.ofStatement]
  split
  · exact empty
  · split
    · exact empty
    · exact each _

/-- The nodes of the tree of a statement are numbered from one on. -/
theorem recovered_numbered (sql : String) :
    ∃ after, Numbered 1 (Recovered.ofStatement sql).criteria.ids after := by
  refine @recovered_tree (fun criteria => ∃ after, Numbered 1 criteria.ids after)
    ⟨1, numbered_none 1⟩ (fun expr => ?_) sql
  obtain ⟨fresh, numbered, same⟩ := criteria_assigns expr {}
  exact ⟨_, numbered.perm same⟩

end Cohort
