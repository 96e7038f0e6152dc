import Cohort.Proofs.Recovery.Event
import Cohort.Proofs.Statement

/-!
Groups come back from the expressions that their clauses stand for.
-/

namespace Cohort

open Sql

theorem members_without_ids (members : List Member) :
    Member.withoutIdsOf members = members.map Member.withoutIds := by
  induction members with
  | nil => rfl
  | cons member rest ih => simp [Member.withoutIdsOf, ih]

theorem members_collapse (members : List Member) :
    Member.collapseOf members = members.map Member.collapse := by
  induction members with
  | nil => rfl
  | cons member rest ih => simp [Member.collapseOf, ih]

theorem all_branching {members : List Member} :
    Member.AllBranching members ↔ ∀ member ∈ members, member.Branching := by
  induction members with
  | nil => simp [Member.AllBranching]
  | cons member rest ih => simp [Member.AllBranching, ih]

def Member.ComesBack (source : EventSource) (table : String) (member : Member) : Prop :=
  ∃ expr, member.expr? source table = some expr ∧
    Gives (recoverMember expr) fun back =>
      ∃ found, back = some found ∧ found.withoutIds = member.collapse.withoutIds

section Members

variable {source : EventSource} {table : String}

theorem condition_comes_back {condition : Condition} (restorable : condition.Restorable source) :
    (Member.condition condition).ComesBack source table ∧
      ∀ expr, condition.expr? source table = some expr → splitFold expr = (.and, [expr]) := by
  cases condition with
  | filter f =>
      obtain ⟨predicate, restores⟩ := restorable_restores table restorable
      refine ⟨⟨.predicate predicate, restores.expr, ?_⟩, ?_⟩
      · refine restores.back.bind fun back found => gives_pure ?_
        obtain ⟨filter, rfl, same⟩ := found
        exact ⟨_, rfl, by simp [Member.withoutIds, Member.collapse, Condition.withoutIds,
          Condition.collapse, same]⟩
      · intro expr found
        obtain rfl : .predicate predicate = expr := Option.some.inj (restores.expr.symm.trans found)
        rfl
  | event e =>
      obtain ⟨negated, groupBy, shape⟩ := event_expr source table restorable.known
      refine ⟨⟨_, shape, ?_⟩, ?_⟩
      · refine (recovered_event restorable groupBy _).bind fun back found => gives_pure ?_
        obtain ⟨event, rfl, same⟩ := found
        exact ⟨_, rfl, by simp [Member.withoutIds, Member.collapse, Condition.withoutIds,
          Condition.collapse, same]⟩
      · intro expr found
        obtain rfl := Option.some.inj (shape.symm.trans found)
        rfl

theorem members_come_back {members : List Member}
    (each : ∀ member ∈ members, member.ComesBack source table) :
    ∃ exprs : List Expr, (Member.exprs source table members).reduceOption = exprs ∧
      exprs.length = members.length ∧
      Gives (recoverMembers (exprs.map .grouped)) fun found =>
        Member.withoutIdsOf found = Member.withoutIdsOf (Member.collapseOf members) := by
  induction members with
  | nil => exact ⟨[], rfl, rfl, gives_pure rfl⟩
  | cons member rest ih =>
      obtain ⟨expr, shape, back⟩ := each member List.mem_cons_self
      obtain ⟨exprs, shapes, length, others⟩ := ih fun other found =>
        each other (List.mem_cons_of_mem member found)
      refine ⟨expr :: exprs, ?_, by simp [length], ?_⟩
      · rw [Member.exprs, shape, List.reduceOption_cons_of_some, shapes]
      · refine back.bind fun first found => others.bind fun found' same' => gives_pure ?_
        obtain ⟨member', rfl, same⟩ := found
        simpa [Member.withoutIdsOf, Member.collapseOf, same] using same'

theorem closed_group (combinator : Combinator) {members : List Member} (some_ : members ≠ []) :
    Gives (closeGroup combinator members) fun back =>
      ∃ id, back = some ⟨id, combinator, members⟩ := by
  simp only [closeGroup, List.isEmpty_iff, some_, ↓reduceIte]
  exact gives_fresh.bind fun id _ => gives_pure ⟨id, rfl⟩

theorem same_members {found members : List Member}
    (same : Member.withoutIdsOf found = Member.withoutIdsOf members) (some_ : members ≠ []) :
    found ≠ [] := by
  rintro rfl
  cases members with
  | nil => exact some_ rfl
  | cons member rest => simp [Member.withoutIdsOf] at same

theorem group_shape {combinator : Combinator} {members : List Member} {exprs : List Expr}
    (shapes : (Member.exprs source table members).reduceOption = exprs)
    (length : exprs.length = members.length) (some_ : members ≠ []) (id : Nat) :
    exprs ≠ [] ∧ (Group.mk id combinator members).expr? source table =
      some (foldItems combinator.fold (exprs.map .grouped)) := by
  have filled : exprs ≠ [] := by
    rintro rfl
    exact some_ (List.length_eq_zero_iff.mp length.symm)
  exact ⟨filled, by simp [Group.expr?, foldExprs, shapes, filled]⟩

theorem recovered_fold (combinator : Combinator) (items : List Expr) {post : Option Member → Prop}
    (whole : Gives (do
      let group ← closeGroup combinator (← recoverMembers items)
      pure (group.map .group)) post) : Gives (recoverMember (combinator.fold items)) post := by
  cases combinator
  · simpa only [Combinator.fold, recoverMember] using whole
  · simpa only [Combinator.fold, recoverMember] using whole

theorem member_comes_back (member : Member) (branching : member.Branching)
    (restorable : ∀ c ∈ member.leaves, c.Restorable source) : member.ComesBack source table := by
  induction member using Member.induction with
  | condition c => exact (condition_comes_back (restorable c (by simp [Member.leaves]))).1
  | group id combinator members ih =>
      have parts : 2 ≤ members.length ∧ Member.AllBranching members := branching
      have each : ∀ member ∈ members, member.ComesBack source table := by
        intro member found
        refine ih member found (all_branching.mp parts.2 member found) fun c leaf => ?_
        refine restorable c ?_
        simp only [Member.leaves, Group.leaves]
        exact Member.mem_leaves_of.mpr ⟨member, found, leaf⟩
      obtain ⟨exprs, shapes, length, back⟩ := members_come_back each
      have some_ : members ≠ [] := by
        rintro rfl
        simp at parts
      obtain ⟨filled, shape⟩ := @group_shape source table combinator _ _ shapes length some_ id
      -- With a single member the group would be read as the member alone.
      have many : foldItems combinator.fold (exprs.map .grouped) =
          combinator.fold (exprs.map .grouped) :=
        fold_several (by rw [List.length_map]; omega)
      refine ⟨_, shape, ?_⟩
      rw [many]
      refine recovered_fold combinator _ (back.bind fun found same => ?_)
      have found_ : found ≠ [] := same_members same (by
        rw [members_collapse]
        simpa using some_)
      refine (closed_group combinator found_).bind fun group closed => gives_pure ?_
      obtain ⟨id', rfl⟩ := closed
      exact ⟨_, rfl, by simp [Member.withoutIds, Member.collapse, Group.withoutIds, Group.collapse,
        same]⟩

end Members

def PartComesBack (part : Option Expr) (group : Group) : Prop :=
  ∃ expr, part = some expr ∧
    Gives (recoverGroup (.grouped expr)) fun back =>
      ∃ found, back = some found ∧ found.withoutIds = group.withoutIds

section Parts

variable {source : EventSource} {table : String}

theorem condition_part {condition : Condition} (restorable : condition.Restorable source) :
    PartComesBack (condition.expr? source table) condition.collapse.asGroup := by
  obtain ⟨⟨expr, shape, back⟩, alone⟩ := @condition_comes_back source table _ restorable
  refine ⟨expr, shape, ?_⟩
  have whole : splitFold (Expr.grouped expr).unwrap = (.and, [expr]) := alone expr shape
  have members : Gives (recoverMembers [expr]) fun found =>
      ∃ member, found = [member] ∧
        member.withoutIds = (Member.condition condition).collapse.withoutIds := by
    refine back.bind fun first found => gives_pure ?_
    obtain ⟨member, rfl, same⟩ := found
    exact ⟨member, rfl, same⟩
  simp only [recoverGroup, whole]
  refine members.bind fun found single => ?_
  obtain ⟨member, rfl, same⟩ := single
  refine (closed_group .and (List.cons_ne_nil member [])).weaken ?_
  rintro group ⟨id, rfl⟩
  refine ⟨_, rfl, ?_⟩
  simp only [Member.collapse] at same
  simp [Group.withoutIds, Condition.asGroup, Member.withoutIdsOf, same]

theorem group_part {group : Group} (standing : group.Standing)
    (restorable : ∀ c ∈ group.leaves, c.Restorable source) :
    PartComesBack (group.expr? source table) group.collapse := by
  obtain ⟨id, combinator, members⟩ := group
  obtain ⟨some_, kept, branching⟩ := standing
  have each : ∀ member ∈ members, member.ComesBack source table := by
    intro member found
    refine member_comes_back member (all_branching.mp branching member found) fun c leaf => ?_
    exact restorable c (Member.mem_leaves_of.mpr ⟨member, found, leaf⟩)
  obtain ⟨exprs, shapes, length, back⟩ := members_come_back each
  obtain ⟨filled, shape⟩ := @group_shape source table combinator _ _ shapes length some_ id
  refine ⟨_, shape, ?_⟩
  have whole : splitFold (Expr.grouped (foldItems combinator.fold (exprs.map .grouped))).unwrap =
      (combinator, exprs.map .grouped) := split_fold filled (by rw [length]; exact kept)
  simp only [recoverGroup, whole]
  refine back.bind fun found same => ?_
  have found_ : found ≠ [] := same_members same (by
    rw [members_collapse]
    simpa using some_)
  refine (closed_group combinator found_).weaken ?_
  rintro group ⟨id', rfl⟩
  exact ⟨_, rfl, by simp [Group.withoutIds, Group.collapse, same]⟩

theorem parts_come_back {parts : List (Option Expr)} {groups : List Group}
    (each : List.Forall₂ PartComesBack parts groups) :
    ∃ exprs : List Expr, parts.reduceOption = exprs ∧ exprs.length = groups.length ∧
      Gives (recoverGroups (exprs.map .grouped)) fun found =>
        found.map Group.withoutIds = groups.map Group.withoutIds := by
  induction each with
  | nil => exact ⟨[], rfl, rfl, gives_pure rfl⟩
  | cons first _ ih =>
      obtain ⟨expr, rfl, back⟩ := first
      obtain ⟨exprs, shapes, length, others⟩ := ih
      refine ⟨expr :: exprs, ?_, by simp [length], ?_⟩
      · rw [List.reduceOption_cons_of_some, shapes]
      · refine back.bind fun first found => others.bind fun found' same' => gives_pure ?_
        obtain ⟨group, rfl, same⟩ := found
        simp [same, same']

theorem match_all_dropped : Gives (recoverGroups [matchAllExpr]) (· = []) :=
  fun _ => ⟨rfl, rfl⟩

/-- The expression that mirrors a tree comes back as what remains of the tree. -/
theorem criteria_come_back {criteria : Criteria} (restorable : criteria.Restorable source) :
    Gives (recoverCriteria (criteria.expr source table)) fun back =>
      back.withoutIds = criteria.collapse.withoutIds := by
  have conditions : List.Forall₂ PartComesBack
      (criteria.conditions.map (Condition.expr? source table))
      (criteria.conditions.map fun condition => condition.collapse.asGroup) := by
    rw [List.forall₂_map_left_iff, List.forall₂_map_right_iff, List.forall₂_same]
    exact fun c found => condition_part (restorable.conditions c (List.mem_append_left _ found))
  have groups : List.Forall₂ PartComesBack
      (criteria.groups.map (Group.expr? source table)) (criteria.groups.map Group.collapse) := by
    rw [List.forall₂_map_left_iff, List.forall₂_map_right_iff, List.forall₂_same]
    refine fun group found => group_part (restorable.groups group found) fun c leaf => ?_
    exact restorable.conditions c
      (List.mem_append_right _ (List.mem_flatMap.mpr ⟨group, found, leaf⟩))
  obtain ⟨exprs, shapes, length, back⟩ := parts_come_back (List.rel_append conditions groups)
  have kept : FoldKept criteria.combinator exprs.length := by
    rw [length]
    simpa using restorable.fold
  have result : ∀ found : List Group,
      found.map Group.withoutIds = criteria.collapse.groups.map Group.withoutIds →
        (Criteria.mk [] found criteria.combinator).withoutIds = criteria.collapse.withoutIds := by
    intro found same
    simp [Criteria.withoutIds, same, Criteria.collapse]
  simp only [Criteria.expr, foldExprs, shapes]
  by_cases none_ : exprs = []
  · -- The statement has the condition that holds of every row, which is left out.
    subst none_
    have conjunction : criteria.combinator = .and := fold_kept_none kept
    have empty : criteria.collapse.groups = [] := List.length_eq_zero_iff.mp length.symm
    refine match_all_dropped.bind ?_
    rintro found rfl
    rw [← conjunction]
    exact gives_pure (result [] (by rw [empty]))
  · have fragments := split_fold none_ kept
    simp only [List.isEmpty_iff, none_, ↓reduceIte, Option.getD_some, recoverCriteria, fragments]
    exact back.bind fun found same => gives_pure (result found same)

end Parts

end Cohort
