import Cohort.Proofs.Session.Steps

/-!
Removing a node. Where no two nodes share an id, what is left is the tree with every node of the id
pruned from the list that it stands in. Nothing is left out of the search: a node that has the id is
removed wherever it stands.
-/

namespace Cohort

variable {α : Type} {id : Nat}

def pruneAll (own : α → Nat) (prune : α → α) (id : Nat) (items : List α) : List α :=
  (items.filter fun item => own item != id).map prune

def Related.pruned (id : Nat) (related : Related) : Related :=
  { related with filters := pruneAll Filter.id (fun filter => filter) id related.filters }

def Event.pruned (id : Nat) (event : Event) : Event :=
  { event with
    filters := pruneAll Condition.id (fun condition => condition) id event.filters
    related := pruneAll Related.id (Related.pruned id) id event.related }

def Condition.pruned (id : Nat) : Condition → Condition
  | .filter f => .filter f
  | .event e => .event (e.pruned id)

mutual

def Member.pruned (id : Nat) : Member → Member
  | .condition c => .condition (c.pruned id)
  | .group g => .group (g.pruned id)

def Group.pruned (id : Nat) : Group → Group
  | ⟨own, combinator, members⟩ => ⟨own, combinator, Member.prunedAll id members⟩

def Member.prunedAll (id : Nat) : List Member → List Member
  | [] => []
  | member :: rest =>
      if member.id = id then Member.prunedAll id rest
      else member.pruned id :: Member.prunedAll id rest

end

def Criteria.pruned (id : Nat) (criteria : Criteria) : Criteria :=
  { criteria with
    conditions := pruneAll Condition.id (Condition.pruned id) id criteria.conditions
    groups := pruneAll Group.id (Group.pruned id) id criteria.groups }

theorem members_pruned (members : List Member) :
    Member.prunedAll id members = pruneAll Member.id (Member.pruned id) id members := by
  induction members with
  | nil => rfl
  | cons member rest ih =>
      rw [Member.prunedAll, ih]
      by_cases own : member.id = id <;> simp [pruneAll, own]

section Lists

variable {own : α → Nat} {prune : α → α} {ids : α → List Nat} {front back : List α} {item : α}

theorem prune_all_append (first second : List α) :
    pruneAll own prune id (first ++ second) =
      pruneAll own prune id first ++ pruneAll own prune id second := by
  simp [pruneAll]

theorem prune_all_absent {items : List α} (head : ∀ item, own item ∈ ids item)
    (same : ∀ item ∈ items, id ∉ ids item → prune item = item)
    (absent : id ∉ items.flatMap ids) : pruneAll own prune id items = items := by
  have apart : ∀ item ∈ items, id ∉ ids item := fun item place found =>
    absent (List.mem_flatMap.mpr ⟨item, place, found⟩)
  have stays : ∀ item ∈ items, (own item != id) = true := fun item place =>
    bne_iff_ne.mpr fun alike => apart item place (alike ▸ head item)
  rw [pruneAll, List.filter_eq_self.mpr stays]
  exact (List.map_congr_left fun item place => same item place (apart item place)).trans
    (List.map_id _)

/-- Ids that stand in one item of a list are not found around it. -/
theorem absent_around (distinct : ((front ++ item :: back).flatMap ids).Nodup)
    (inside : id ∈ ids item) : id ∉ front.flatMap ids ∧ id ∉ back.flatMap ids := by
  rw [List.flatMap_append, List.flatMap_cons] at distinct
  have parts := List.nodup_append.mp distinct
  have behind := List.nodup_append.mp parts.2.1
  constructor
  · intro found
    exact parts.2.2 id found id (List.mem_append_left _ inside) rfl
  · intro found
    exact behind.2.2 id inside id found rfl

theorem prune_all_around (head : ∀ item, own item ∈ ids item)
    (same : ∀ item, id ∉ ids item → prune item = item)
    (distinct : ((front ++ item :: back).flatMap ids).Nodup) (inside : id ∈ ids item) :
    pruneAll own prune id (front ++ item :: back) =
      front ++ pruneAll own prune id [item] ++ back := by
  obtain ⟨before, behind⟩ := absent_around distinct inside
  rw [List.append_cons, prune_all_append, prune_all_append,
    prune_all_absent head (fun item _ => same item) before,
    prune_all_absent head (fun item _ => same item) behind]

theorem prune_all_gone (head : ∀ item, own item ∈ ids item)
    (same : ∀ item, id ∉ ids item → prune item = item)
    (distinct : ((front ++ item :: back).flatMap ids).Nodup) (found : own item = id) :
    pruneAll own prune id (front ++ item :: back) = front ++ back := by
  rw [prune_all_around head same distinct (found ▸ head item)]
  simp [pruneAll, found]

theorem prune_all_changed (head : ∀ item, own item ∈ ids item)
    (same : ∀ item, id ∉ ids item → prune item = item)
    (distinct : ((front ++ item :: back).flatMap ids).Nodup) (inside : id ∈ ids item)
    (other : own item ≠ id) :
    pruneAll own prune id (front ++ item :: back) = front ++ prune item :: back := by
  rw [prune_all_around head same distinct inside]
  simp [pruneAll, other]

end Lists

theorem filter_own_mem (filter : Filter) : filter.id ∈ [filter.id] :=
  List.mem_singleton_self filter.id

theorem related_own_mem (related : Related) : related.id ∈ related.ids :=
  List.mem_cons_self

theorem condition_own_mem (condition : Condition) : condition.id ∈ condition.ids :=
  List.mem_cons_self

theorem member_own_mem (member : Member) : member.id ∈ member.ids :=
  member_ids member ▸ List.mem_cons_self

theorem group_ids (group : Group) : group.ids = group.id :: Member.idsOf group.members := by
  obtain ⟨⟩ := group
  rfl

theorem group_own_mem (group : Group) : group.id ∈ group.ids :=
  group_ids group ▸ List.mem_cons_self

theorem filters_pruned_absent {filters : List Filter} (absent : id ∉ filters.map Filter.id) :
    pruneAll Filter.id (fun filter => filter) id filters = filters := by
  refine prune_all_absent filter_own_mem (fun _ _ _ => rfl) ?_
  rwa [← List.map_eq_flatMap]

theorem related_pruned_absent (related : Related) (absent : id ∉ related.ids) :
    related.pruned id = related := by
  rw [Related.pruned, filters_pruned_absent fun found => absent (List.mem_cons_of_mem _ found)]

theorem conditions_kept {conditions : List Condition}
    (absent : id ∉ conditions.flatMap Condition.ids) :
    pruneAll Condition.id (fun condition => condition) id conditions = conditions :=
  prune_all_absent condition_own_mem (fun _ _ _ => rfl) absent

theorem condition_pruned_absent (condition : Condition) (absent : id ∉ condition.idsWithin) :
    condition.pruned id = condition := by
  cases condition with
  | filter f => rfl
  | event e =>
      rw [Condition.idsWithin, event_ids_within, List.mem_append, not_or] at absent
      have related := prune_all_absent related_own_mem
        (fun related _ => related_pruned_absent related) absent.2
      rw [Condition.pruned, Event.pruned, conditions_kept absent.1, related]
      obtain ⟨⟩ := e
      rfl

theorem member_pruned_absent (member : Member) (absent : id ∉ member.ids) :
    member.pruned id = member := by
  induction member using Member.induction with
  | condition c =>
      rw [Member.pruned, condition_pruned_absent c fun within =>
        absent (List.mem_cons_of_mem _ within)]
  | group own combinator members ih =>
      have within : id ∉ members.flatMap Member.ids := fun found =>
        absent (List.mem_cons_of_mem _ (member_ids_of members ▸ found))
      rw [Member.pruned, Group.pruned, members_pruned, prune_all_absent member_own_mem ih within]

theorem group_pruned_absent (group : Group) (absent : id ∉ group.ids) : group.pruned id = group :=
  Member.group.inj (member_pruned_absent (.group group) absent)

/-! ### What is left is the pruned tree -/

/-- An id in one of two lists of ids that share none is not in the other. -/
theorem apart_of_nodup {first second : List Nat} (distinct : (first ++ second).Nodup) :
    (id ∈ first → id ∉ second) ∧ (id ∈ second → id ∉ first) := by
  have parts := List.nodup_append.mp distinct
  exact ⟨fun here there => parts.2.2 id here id there rfl,
    fun there here => parts.2.2 id here id there rfl⟩

theorem event_pruned {event : Event} (distinct : event.idsWithin.Nodup) {after : Member}
    (loses : Member.Loses id (.condition (.event event)) after) :
    after = .condition (.event (event.pruned id)) := by
  rw [event_ids_within] at distinct
  have parts := List.nodup_append.mp distinct
  have apart := @apart_of_nodup id _ _ distinct
  cases loses with
  | @filter _ gone front back place found =>
      have inside : id ∈ event.filters.flatMap Condition.ids := by
        simp [place, Condition.ids, found]
      have filters : pruneAll Condition.id (fun condition => condition) id (front ++ gone :: back) =
          front ++ back :=
        prune_all_gone condition_own_mem (fun _ _ => rfl) (place ▸ parts.1) found
      have related := prune_all_absent related_own_mem
        (fun related _ => related_pruned_absent related) (apart.1 inside)
      rw [Event.pruned, place, filters, related]
  | @related _ gone front back place found =>
      have inside : id ∈ event.related.flatMap Related.ids := by
        simp [place, Related.ids, found]
      have related := prune_all_gone related_own_mem related_pruned_absent
        (place ▸ parts.2.1) found
      rw [Event.pruned, place, conditions_kept (apart.2 inside), related]
  | @relatedFilter _ joined gone front back before behind place inner found =>
      have within : id ∈ joined.ids := by simp [Related.ids, inner, found]
      have inside : id ∈ event.related.flatMap Related.ids := by
        simp [place, within]
      have own : joined.ids.Nodup :=
        (List.nodup_flatMap.mp parts.2.1).1 joined (by simp [place])
      have other : joined.id ≠ id := by
        intro alike
        refine (List.nodup_cons.mp own).1 ?_
        simp [inner, found, alike]
      have related := prune_all_changed related_own_mem related_pruned_absent
        (place ▸ parts.2.1) within other
      have inFilters : (joined.filters.flatMap fun filter => [filter.id]).Nodup := by
        rw [← List.map_eq_flatMap]
        exact (List.nodup_cons.mp own).2
      have filters : pruneAll Filter.id (fun filter => filter) id (before ++ gone :: behind) =
          before ++ behind :=
        prune_all_gone filter_own_mem (fun _ _ => rfl) (inner ▸ inFilters) found
      rw [Event.pruned, place, conditions_kept (apart.2 inside), related, Related.pruned, inner,
        filters]

/-- What loses a node is pruned of it. -/
theorem loses_pruned {before after : Member} (loses : Member.Loses id before after)
    (distinct : before.ids.Nodup) : after = before.pruned id := by
  match before, loses with
  | .condition (.event event), loses =>
      exact event_pruned (List.nodup_cons.mp distinct).2 loses
  | .group _, .member own combinator front back found =>
      rw [member_ids, Member.idsWithin, member_ids_of] at distinct
      have members := prune_all_gone member_own_mem member_pruned_absent
        (List.nodup_cons.mp distinct).2 found
      rw [Member.pruned, Group.pruned, members_pruned, members]

/-- The node that is lost is none of those that the change is looked for in. -/
theorem lost_within {before after : Member} (changed : before.Changed (Member.Loses id) after) :
    id ∈ before.idsWithin := by
  cases changed with
  | here loses => exact Member.Loses.id_mem before after loses
  | @within old new own combinator front back changed =>
      refine mem_ids_of_mem (List.mem_append_right front List.mem_cons_self) ?_
      refine changed.id_mem fun old new loses => ?_
      rw [member_ids]
      exact List.mem_cons_of_mem _ (Member.Loses.id_mem old new loses)

/-- A node of the id stands in the member, so it is not the member itself that has the id. -/
theorem other_id {member : Member} (distinct : member.ids.Nodup) (within : id ∈ member.idsWithin) :
    member.id ≠ id := by
  rw [member_ids] at distinct
  exact fun alike => (List.nodup_cons.mp distinct).1 (alike ▸ within)

theorem changed_pruned {before after : Member} (changed : before.Changed (Member.Loses id) after)
    (distinct : before.ids.Nodup) : after = before.pruned id := by
  induction changed with
  | here loses => exact loses_pruned loses distinct
  | @within old new own combinator front back changed ih =>
      rw [member_ids, Member.idsWithin, member_ids_of] at distinct
      have members := (List.nodup_cons.mp distinct).2
      have place : old.ids.Nodup := (List.nodup_flatMap.mp members).1 old (by simp)
      have inside := lost_within changed
      have all := prune_all_changed member_own_mem member_pruned_absent members
        (member_ids old ▸ List.mem_cons_of_mem _ inside) (other_id place inside)
      rw [Member.pruned, Group.pruned, members_pruned, all, ih place]

theorem removed_pruned {before after : Criteria} (removed : before.Removed id after)
    (distinct : before.ids.Nodup) : after = before.pruned id := by
  rw [Criteria.ids, condition_ids_of] at distinct
  have parts := List.nodup_append.mp distinct
  have apart := @apart_of_nodup id _ _ distinct
  have conditionAbsent : ∀ condition : Condition, id ∉ condition.ids →
      condition.pruned id = condition := fun condition absent =>
    condition_pruned_absent condition fun within => absent (List.mem_cons_of_mem _ within)
  cases removed with
  | @condition gone front back groups combinator found =>
      have inside : id ∈ (front ++ gone :: back).flatMap Condition.ids := by
        simp [Condition.ids, found]
      have conditions := prune_all_gone condition_own_mem conditionAbsent parts.1 found
      have groups := prune_all_absent group_own_mem (fun group _ => group_pruned_absent group)
        (apart.1 inside)
      rw [Criteria.pruned, conditions, groups]
  | @group gone conditions front back combinator found =>
      have inside : id ∈ (front ++ gone :: back).flatMap Group.ids := by
        simp [found ▸ group_own_mem gone]
      have conditions := prune_all_absent condition_own_mem (fun c _ => conditionAbsent c)
        (apart.2 inside)
      have groups := prune_all_gone group_own_mem group_pruned_absent parts.2.1 found
      rw [Criteria.pruned, conditions, groups]
  | within changed =>
      cases changed with
      | @condition old new front back groups combinator loses =>
          have place : old.ids.Nodup := (List.nodup_flatMap.mp parts.1).1 old (by simp)
          have within := Member.Loses.id_mem _ _ loses
          have inside : id ∈ old.ids := List.mem_cons_of_mem _ within
          have whole : id ∈ (front ++ old :: back).flatMap Condition.ids := by simp [inside]
          have conditions := prune_all_changed condition_own_mem conditionAbsent parts.1 inside
            (@other_id id (.condition old) place within)
          have groups := prune_all_absent group_own_mem (fun group _ => group_pruned_absent group)
            (apart.1 whole)
          have same := Member.condition.inj (loses_pruned loses place)
          rw [Criteria.pruned, conditions, groups, same]
      | @group old new conditions front back combinator changed =>
          have place : old.ids.Nodup := (List.nodup_flatMap.mp parts.2.1).1 old (by simp)
          have within := lost_within changed
          have inside : id ∈ (Member.group old).ids :=
            member_ids (.group old) ▸ List.mem_cons_of_mem _ within
          change id ∈ old.ids at inside
          have whole : id ∈ (front ++ old :: back).flatMap Group.ids := by simp [inside]
          have conditions := prune_all_absent condition_own_mem (fun c _ => conditionAbsent c)
            (apart.2 whole)
          have groups := prune_all_changed group_own_mem group_pruned_absent parts.2.1 inside
            (@other_id id (.group old) place within)
          have same := Member.group.inj (changed_pruned changed place)
          rw [Criteria.pruned, conditions, groups, same]

def Condition.IsFlat : Condition → Prop
  | .filter _ => True
  | .event e => ∀ condition ∈ e.filters, ∃ filter, condition = .filter filter

def Criteria.IsFlat (criteria : Criteria) : Prop :=
  ∀ condition ∈ criteria.leaves, condition.IsFlat

theorem related_remove_is_some (related : Related) :
    (related.remove? id).isSome ↔ id ∈ related.filters.map Filter.id := by
  simp [Related.remove?, remove_first_is_some]

/-- The id is that of one of the items, or it stands in one of them. -/
theorem mem_ids_split {own : α → Nat} {ids within : α → List Nat}
    (split : ∀ item, ids item = own item :: within item) (items : List α) :
    id ∈ items.flatMap ids ↔
      (∃ item ∈ items, own item = id) ∨ ∃ item ∈ items, id ∈ within item := by
  rw [List.mem_flatMap, ← exists_or]
  refine exists_congr fun item => ?_
  rw [← and_or_left, split, List.mem_cons, eq_comm]

theorem condition_ids (condition : Condition) :
    condition.ids = condition.id :: condition.idsWithin := rfl

theorem related_ids (related : Related) :
    related.ids = related.id :: related.filters.map Filter.id := rfl

theorem condition_remove_is_some {condition : Condition} (flat : condition.IsFlat) :
    (condition.remove? id).isSome ↔ id ∈ condition.idsWithin := by
  cases condition with
  | filter f => simp [Condition.remove?, Condition.idsWithin]
  | event e =>
      -- One of the three searches has to succeed, and each looks through one kind of node.
      have searches : (e.remove? id).isSome ↔
          (removeFirst? (fun condition => condition.id == id) e.filters).isSome ∨
            (removeFirst? (fun related => related.id == id) e.related).isSome ∨
              (changeFirst? (Related.remove? id) e.related).isSome := by
        rw [Event.remove?]
        cases removeFirst? (fun condition => condition.id == id) e.filters <;>
          cases removeFirst? (fun related => related.id == id) e.related <;> simp
      have filters : (∃ condition ∈ e.filters, condition.id = id) ↔
          id ∈ e.filters.flatMap Condition.ids := by
        rw [List.mem_flatMap]
        refine exists_congr fun condition => and_congr_right fun place => ?_
        obtain ⟨filter, rfl⟩ := flat condition place
        simp [Condition.ids, Condition.idsWithin, eq_comm]
      rw [Condition.remove?, Option.isSome_map, searches, remove_first_is_some,
        remove_first_is_some, change_first_is_some]
      simp only [related_remove_is_some, beq_iff_eq]
      rw [filters, Condition.idsWithin, event_ids_within, List.mem_append,
        mem_ids_split related_ids]

theorem member_without_is_some (member : Member) (flat : ∀ c ∈ member.leaves, c.IsFlat) :
    (member.without? id).isSome ↔ id ∈ member.idsWithin := by
  induction member using Member.induction with
  | condition c =>
      have inner := @condition_remove_is_some id c (flat c (List.mem_singleton_self c))
      simpa [Member.without?, Member.idsWithin] using inner
  | group own combinator members ih =>
      have searches : ((Group.mk own combinator members).remove? id).isSome ↔
          (removeFirst? (fun member => member.id == id) members).isSome ∨
            (changeFirst? (Member.without? id) members).isSome := by
        rw [Group.remove?, member_remove_first]
        cases removeFirst? (fun member => member.id == id) members <;> simp
      rw [Member.without?, Option.isSome_map, searches, remove_first_is_some, change_first_is_some,
        Member.idsWithin, member_ids_of, mem_ids_split member_ids]
      simp only [beq_iff_eq]
      refine or_congr_right (exists_congr fun member => and_congr_right fun place => ?_)
      exact ih member place fun c leaf => flat c (Member.mem_leaves_of.mpr ⟨member, place, leaf⟩)

/-- A node is removed exactly where the tree has one of the id. -/
theorem criteria_remove_is_some {criteria : Criteria} (flat : criteria.IsFlat) :
    (criteria.remove? id).isSome ↔ id ∈ criteria.ids := by
  -- The four searches follow each other, and one of them succeeds exactly if the whole does.
  have searches : (criteria.remove? id).isSome ↔
      (removeFirst? (fun condition => condition.id == id) criteria.conditions).isSome ∨
        (removeFirst? (fun group => group.id == id) criteria.groups).isSome ∨
          (changeFirst? (Condition.remove? id) criteria.conditions).isSome ∨
            (changeFirst? (Group.remove? id) criteria.groups).isSome := by
    rw [Criteria.remove?]
    cases removeFirst? (fun condition => condition.id == id) criteria.conditions <;>
      cases removeFirst? (fun group => group.id == id) criteria.groups <;>
        cases changeFirst? (Condition.remove? id) criteria.conditions <;> simp
  have conditions : (∃ c ∈ criteria.conditions, (c.remove? id).isSome) ↔
      ∃ c ∈ criteria.conditions, id ∈ c.idsWithin :=
    exists_congr fun c => and_congr_right fun place =>
      condition_remove_is_some (flat c (List.mem_append_left _ place))
  have groups : (∃ group ∈ criteria.groups, (group.remove? id).isSome) ↔
      ∃ group ∈ criteria.groups, id ∈ Member.idsOf group.members := by
    refine exists_congr fun group => and_congr_right fun place => ?_
    have inner := @member_without_is_some id (.group group) fun c leaf =>
      flat c (List.mem_append_right _ (List.mem_flatMap.mpr ⟨group, place, leaf⟩))
    simpa [Member.without?, Member.idsWithin] using inner
  rw [searches, remove_first_is_some, remove_first_is_some, change_first_is_some,
    change_first_is_some, conditions, groups, Criteria.ids, condition_ids_of, List.mem_append,
    mem_ids_split condition_ids, mem_ids_split group_ids]
  simp only [beq_iff_eq]
  rw [← or_assoc, or_or_or_comm]

namespace Session

/-- Where no two nodes share an id and no event stands among the filters of an event, a node is
removed exactly if it is in the tree. What is left is the tree with this node, and all that is in
it, taken out of the list that it stands in; if there is no such node, nothing changes. -/
theorem remove_takes_node_out {session : Session} (distinct : session.criteria.ids.Nodup)
    (flat : session.criteria.IsFlat) (id : Nat) :
    (id ∈ session.criteria.ids →
      session.remove id = .ok { session with criteria := session.criteria.pruned id } ∧
        session.criteria.Removed id (session.criteria.pruned id)) ∧
      (id ∉ session.criteria.ids →
        session.remove id = .error (.notFound id) ∧
          session.perform (.remove id) = (.error (.notFound id), session)) := by
  have reached := @criteria_remove_is_some id _ flat
  constructor
  · intro found
    obtain ⟨tree, removed⟩ := Option.isSome_iff_exists.mp (reached.mpr found)
    have place := criteria_removed removed
    have same := removed_pruned place distinct
    rw [remove, removed]
    exact ⟨same ▸ rfl, same ▸ place⟩
  · intro absent
    have missing : session.criteria.remove? id = none := by
      rw [← Option.not_isSome_iff_eq_none, reached]
      exact absent
    refine ⟨by rw [remove, missing], ?_⟩
    rw [perform, Edit.steps, Steps.on_bind, Steps.on_put, missing]

/-- The filter of a joined table in a group in a group goes, and an id that nothing has is no id of
a node to remove. -/
theorem joined_filter_taken_out :
    let filter (id : Nat) : Filter := ⟨id, "city", .equals, .string "Bern", none⟩
    let event (related : List Related) : Condition := .event ⟨4, "customer_id", "customer_id",
      .performed, none, 0, none, none, .and, [.filter (filter 5)], .and, related⟩
    let tree (filters : List Filter) : Criteria := ⟨[.filter (filter 1)],
      [⟨2, .and, [.group ⟨3, .or, [.condition (event [⟨6, "products", "product_id", [], .and,
        filters⟩])]⟩]⟩], .and⟩
    let session (filters : List Filter) : Session := ⟨"customers", tree filters, ⟨9⟩, {}, []⟩
    (tree [filter 7, filter 8]).ids.Nodup ∧ (tree [filter 7, filter 8]).IsFlat ∧
      (session [filter 7, filter 8]).remove 7 = .ok (session [filter 8]) ∧
        (session [filter 7, filter 8]).remove 9 = .error (.notFound 9) := by
  intro filter event tree session
  have distinct : (session [filter 7, filter 8]).criteria.ids.Nodup := by decide
  have flat : (session [filter 7, filter 8]).criteria.IsFlat := by
    intro condition leaf
    simp [session, tree, event, Criteria.leaves, Group.leaves, Member.leavesOf, Member.leaves]
      at leaf
    rcases leaf with rfl | rfl
    · trivial
    · simp [Condition.IsFlat]
  have removed := remove_takes_node_out distinct flat
  exact ⟨distinct, flat, ((removed 7).1 (by decide)).1, ((removed 9).2 (by decide)).1⟩

end Session

end Cohort
