import Cohort.Proofs.Session.History
import Cohort.Proofs.Session.Steps

/-!
What an edit finds by an id. Groups are found at every depth, and conditions where they stand on
their own or in a group; the filters of an event are not among them. An edit is refused for want of
a place only if there is none of the kind that it asks for, and a condition that was added can be
replaced as long as it is in the tree.
-/

namespace Cohort

mutual

def Member.groups : Member → List Group
  | .condition _ => []
  | .group g => g.groups

def Group.groups : Group → List Group
  | ⟨id, combinator, members⟩ => ⟨id, combinator, members⟩ :: Member.groupsOf members

def Member.groupsOf : List Member → List Group
  | [] => []
  | member :: rest => member.groups ++ Member.groupsOf rest

end

def Criteria.allGroups (criteria : Criteria) : List Group :=
  criteria.groups.flatMap Group.groups

theorem member_groups_of (members : List Member) :
    Member.groupsOf members = members.flatMap Member.groups := by
  induction members with
  | nil => rfl
  | cons member rest ih => rw [Member.groupsOf, ih, List.flatMap_cons]

theorem member_change_found (id : Nat) (change : Group → Group) (member : Member) :
    (member.change? id change).isSome ↔ ∃ group ∈ member.groups, group.id = id := by
  induction member using Member.induction with
  | condition c => simp [Member.change?, Member.groups]
  | group own combinator members ih =>
      simp only [Member.change?, Option.isSome_map, Group.change?, Member.groups, Group.groups,
        List.exists_mem_cons_iff, member_groups_of]
      split_ifs with here
      · simp [here]
      · simp only [Option.isSome_map, change_group_first, change_first_is_some, here, false_or,
          List.mem_flatMap]
        constructor
        · rintro ⟨member, place, found⟩
          obtain ⟨group, inside, same⟩ := (ih member place).mp found
          exact ⟨group, ⟨member, place, inside⟩, same⟩
        · rintro ⟨group, ⟨member, place, inside⟩, same⟩
          exact ⟨member, place, (ih member place).mpr ⟨group, inside, same⟩⟩

/-- A group is found wherever it stands. -/
theorem change_group_found (id : Nat) (change : Group → Group) (criteria : Criteria) :
    (criteria.changeGroup? id change).isSome ↔ ∃ group ∈ criteria.allGroups, group.id = id := by
  have each (group : Group) : (group.change? id change).isSome ↔
      ∃ inner ∈ group.groups, inner.id = id := by
    simpa [Member.change?, Member.groups] using member_change_found id change (.group group)
  rw [Criteria.changeGroup?, Option.isSome_map, change_first_is_some, Criteria.allGroups]
  simp only [each, List.mem_flatMap]
  constructor
  · rintro ⟨group, place, inner, inside, same⟩
    exact ⟨inner, ⟨group, place, inside⟩, same⟩
  · rintro ⟨inner, ⟨group, place, inside⟩, same⟩
    exact ⟨group, place, inner, inside, same⟩

theorem change_group_absent (id : Nat) (change : Group → Group) (criteria : Criteria) :
    criteria.changeGroup? id change = none ↔ ∀ group ∈ criteria.allGroups, group.id ≠ id := by
  rw [← Option.not_isSome_iff_eq_none, change_group_found]
  simp

theorem member_find_leaf (id : Nat) (member : Member) :
    member.find? id = member.leaves.find? fun condition => condition.id == id := by
  induction member using Member.induction with
  | condition c => by_cases own : c.id = id <;> simp [Member.find?, Member.leaves, own]
  | group own combinator members ih =>
      rw [Member.find?, Group.condition?, member_condition_first, Member.leaves, Group.leaves,
        member_leaves_of, List.find?_flatMap, ← List.head?_filterMap, ← List.head?_filterMap,
        List.filterMap_congr ih]

/-- The condition that is found is the first of all conditions that has the id. -/
theorem condition_find_leaf (id : Nat) (criteria : Criteria) :
    criteria.condition? id = criteria.leaves.find? fun condition => condition.id == id := by
  have each (group : Group) : group.condition? id =
      group.leaves.find? fun condition => condition.id == id := by
    simpa [Member.find?, Member.leaves] using member_find_leaf id (.group group)
  rw [Criteria.condition?, Criteria.leaves, List.find?_append, List.find?_flatMap]
  congr 2
  exact funext each

theorem found_leaf {id : Nat} {criteria : Criteria} {condition : Condition}
    (found : criteria.condition? id = some condition) :
    condition ∈ criteria.leaves ∧ condition.id = id := by
  rw [condition_find_leaf] at found
  exact ⟨List.mem_of_find?_eq_some found, by simpa using List.find?_some found⟩

theorem condition_absent (id : Nat) (criteria : Criteria) :
    criteria.condition? id = none ↔ ∀ leaf ∈ criteria.leaves, leaf.id ≠ id := by
  simp [condition_find_leaf]

mutual

/-- The ids of the nodes that are no conditions of a member: of groups, and of what stands in
conditions. -/
def Member.innerIds : Member → List Nat
  | .condition c => c.idsWithin
  | .group g => g.innerIds

def Group.innerIds : Group → List Nat
  | ⟨id, _, members⟩ => id :: Member.innerIdsOf members

def Member.innerIdsOf : List Member → List Nat
  | [] => []
  | member :: rest => member.innerIds ++ Member.innerIdsOf rest

end

def Criteria.innerIds (criteria : Criteria) : List Nat :=
  criteria.conditions.flatMap Condition.idsWithin ++ criteria.groups.flatMap Group.innerIds

theorem member_inner_ids_of (members : List Member) :
    Member.innerIdsOf members = members.flatMap Member.innerIds := by
  induction members with
  | nil => rfl
  | cons member rest ih => rw [Member.innerIdsOf, ih, List.flatMap_cons]

/-- The parts of a list's items make up the items' lists. -/
theorem flat_map_parts {α β : Type} {whole first second : α → List β} {items : List α}
    (each : ∀ item ∈ items, (whole item).Perm (first item ++ second item)) :
    (items.flatMap whole).Perm (items.flatMap first ++ items.flatMap second) :=
  (List.Perm.flatMap_left items each).trans (List.flatMap_append_perm items first second).symm

theorem member_ids_parts (member : Member) :
    member.ids.Perm (member.leaves.map Condition.id ++ member.innerIds) := by
  induction member using Member.induction with
  | condition c => exact .refl _
  | group own combinator members ih =>
      have parts := flat_map_parts ih
      rw [← List.map_flatMap, ← member_leaves_of, ← member_ids_of, ← member_inner_ids_of] at parts
      exact (parts.cons own).trans List.perm_middle.symm

/-- Every id of a tree is that of a condition or that of another node. -/
theorem criteria_ids_parts (criteria : Criteria) :
    criteria.ids.Perm (criteria.leaves.map Condition.id ++ criteria.innerIds) := by
  have conditions := flat_map_parts fun c (_ : c ∈ criteria.conditions) =>
    List.Perm.refl ([c.id] ++ c.idsWithin)
  have groups := flat_map_parts fun group (_ : group ∈ criteria.groups) =>
    member_ids_parts (.group group)
  rw [← List.map_eq_flatMap] at conditions
  rw [← List.map_flatMap] at groups
  have parts := conditions.append groups
  simp only [List.append_assoc] at parts
  rw [Criteria.ids, condition_ids_of, Criteria.leaves, List.map_append, Criteria.innerIds,
    List.append_assoc]
  -- The ids inside of the conditions on their own change places with the conditions in groups.
  exact parts.trans ((List.perm_append_comm_assoc _ _ _).append_left _)

/-- Where no two nodes share an id, every condition on its own or in a group is found. -/
theorem leaf_found {criteria : Criteria} (distinct : criteria.ids.Nodup) {leaf : Condition}
    (among : leaf ∈ criteria.leaves) : criteria.condition? leaf.id = some leaf := by
  have apart : (criteria.leaves.map Condition.id).Nodup :=
    (List.nodup_append.mp ((criteria_ids_parts criteria).nodup_iff.mp distinct)).1
  cases found : criteria.condition? leaf.id with
  | none => exact absurd rfl ((condition_absent _ _).mp found leaf among)
  | some other =>
      obtain ⟨place, same⟩ := found_leaf found
      rw [List.inj_on_of_nodup_map apart place among same]

/-! ### Inner ids at a place -/

section Inner

variable {α : Type} {id : Nat} {parts : α → List Nat} {front back : List α}
  {change : Member → Member → Prop} {new : Prop}

/-- One item is exchanged: a number in the items was in them before, or `new` says where it comes
from. -/
theorem mem_exchanged {old later : α} (step : id ∈ parts later → id ∈ parts old ∨ new)
    (found : id ∈ (front ++ later :: back).flatMap parts) :
    id ∈ (front ++ old :: back).flatMap parts ∨ new := by
  simp only [List.flatMap_append, List.flatMap_cons, List.mem_append] at found ⊢
  tauto

/-- One item is taken out: a number in the items was in them before. -/
theorem mem_taken_out (gone : α) (found : id ∈ (front ++ back).flatMap parts) :
    id ∈ (front ++ gone :: back).flatMap parts := by
  simp only [List.flatMap_append, List.flatMap_cons, List.mem_append] at found ⊢
  tauto

theorem group_inner_ids (own : Nat) (combinator : Combinator) (members : List Member) :
    (Member.group ⟨own, combinator, members⟩).innerIds =
      own :: members.flatMap Member.innerIds := by
  rw [Member.innerIds, Group.innerIds, member_inner_ids_of]

theorem event_inner_ids (event : Event) : (Member.condition (.event event)).innerIds =
    event.filters.flatMap Condition.ids ++ event.related.flatMap Related.ids := by
  rw [Member.innerIds, Condition.idsWithin, event_ids_within]

theorem Member.Changed.inner_mem {before after : Member}
    (step : ∀ old later, change old later → id ∈ later.innerIds → id ∈ old.innerIds ∨ new)
    (changed : before.Changed change after) (found : id ∈ after.innerIds) :
    id ∈ before.innerIds ∨ new := by
  induction changed with
  | here changed => exact step _ _ changed found
  | within own combinator front back _ ih =>
      rw [group_inner_ids, List.mem_cons] at found ⊢
      rcases found with same | inside
      · exact .inl (.inl same)
      · exact (mem_exchanged ih inside).imp_left .inr

theorem Criteria.Changed.inner_mem {before after : Criteria}
    (step : ∀ old later, change old later → id ∈ later.innerIds → id ∈ old.innerIds ∨ new)
    (changed : before.Changed change after) (found : id ∈ after.innerIds) :
    id ∈ before.innerIds ∨ new := by
  rw [Criteria.innerIds, List.mem_append] at found ⊢
  cases changed with
  | @condition old later front back groups combinator changed =>
      have here : id ∈ later.idsWithin → id ∈ old.idsWithin ∨ new := step _ _ changed
      rcases found with alone | grouped
      · exact (mem_exchanged here alone).imp_left .inl
      · exact .inl (.inr grouped)
  | @group old later conditions front back combinator changed =>
      have here : id ∈ later.innerIds → id ∈ old.innerIds ∨ new := changed.inner_mem step
      rcases found with alone | grouped
      · exact .inl (.inl alone)
      · exact (mem_exchanged here grouped).imp_left .inr

theorem Member.Loses.inner_mem {gone : Nat} {old later : Member}
    (loses : Member.Loses gone old later) (found : id ∈ later.innerIds) : id ∈ old.innerIds := by
  cases loses with
  | member own combinator front back same =>
      rw [group_inner_ids, List.mem_cons] at found ⊢
      exact found.imp_right (mem_taken_out _)
  | filter front back place same =>
      rw [event_inner_ids, List.mem_append] at found ⊢
      rw [place]
      exact found.imp_left (mem_taken_out _)
  | related front back place same =>
      rw [event_inner_ids, List.mem_append] at found ⊢
      rw [place]
      exact found.imp_right (mem_taken_out _)
  | @relatedFilter event joined lost front back before behind place inner same =>
      rw [event_inner_ids, List.mem_append] at found ⊢
      rw [place]
      have fewer (inside : id ∈ Related.ids { joined with filters := before ++ behind }) :
          id ∈ joined.ids ∨ False := by
        simp only [Related.ids, inner, List.map_append, List.map_cons, List.mem_cons,
          List.mem_append] at inside ⊢
        tauto
      exact found.imp_right fun among => (mem_exchanged fewer among).resolve_right not_false

theorem Criteria.Removed.inner_mem {gone : Nat} {before after : Criteria}
    (removed : before.Removed gone after) (found : id ∈ after.innerIds) :
    id ∈ before.innerIds := by
  cases removed with
  | condition front back groups combinator same =>
      rw [Criteria.innerIds, List.mem_append] at found ⊢
      exact found.imp_left (mem_taken_out _)
  | group conditions front back combinator same =>
      rw [Criteria.innerIds, List.mem_append] at found ⊢
      exact found.imp_right (mem_taken_out _)
  | within changed =>
      have kept : id ∈ before.innerIds ∨ False :=
        changed.inner_mem (fun _ _ loses found => .inl (Member.Loses.inner_mem loses found)) found
      exact kept.resolve_right not_false

end Inner

def Edit.AddsCondition : Edit → Prop
  | addCondition _ => True
  | addMember _ (.condition _) => True
  | _ => False

/-- A condition that is added is a condition, so its id is no inner one. -/
theorem added_not_inner {group : Nat} {member new : Member}
    (adds : (Edit.addMember group member).AddsCondition)
    (alike : new.withoutIds = member.withoutIds) (distinct : new.ids.Nodup) :
    new.id ∉ new.innerIds := by
  cases member with
  | group g => cases adds
  | condition c =>
      cases new with
      | group g => cases alike
      | condition c => exact (List.nodup_cons.mp distinct).1

theorem inner_mem_ids {member : Member} {id : Nat} (found : id ∈ member.innerIds) :
    id ∈ member.ids :=
  (member_ids_parts member).mem_iff.mpr (List.mem_append_right _ found)

namespace Session

variable {session : Session}

/-- An edit makes no id that was in use an inner one, nor the id of a condition that it adds. -/
theorem Effect.inner_mem {later : Session} {edit : Edit} {answer : Option Nat} {id : Nat}
    (effect : session.Effect later answer edit) (found : id ∈ later.criteria.innerIds) :
    id ∈ session.criteria.innerIds ∨
      session.ids.next ≤ id ∧ (edit.AddsCondition → answer ≠ some id) := by
  have fresh {ids : List Nat} {after : Nat} (numbered : Numbered session.ids.next ids after)
      (place : id ∈ ids) : session.ids.next ≤ id := ((numbered.mem_iff id).mp place).1
  -- The inner ids around the place of the edit stay; those of what comes in are fresh.
  cases edit with
  | addCondition condition =>
      obtain ⟨new, rfl, _, numbered, same⟩ := effect
      simp only [same, Criteria.innerIds, List.flatMap_append, List.flatMap_singleton,
        List.mem_append] at found ⊢
      rcases found with (old | inside) | grouped
      · exact .inl (.inl old)
      · refine .inr ⟨fresh numbered (List.mem_cons_of_mem _ inside), fun _ alike => ?_⟩
        cases alike
        exact (List.nodup_cons.mp numbered.nodup).1 inside
      · exact .inl (.inr grouped)
  | addGroup combinator =>
      obtain ⟨new, rfl, numbered, same⟩ := effect
      simp only [same, Criteria.innerIds, List.flatMap_append, List.flatMap_singleton,
        Group.innerIds, Member.innerIdsOf, List.mem_append] at found ⊢
      rcases found with alone | grouped | inside
      · exact .inl (.inl alone)
      · exact .inl (.inr grouped)
      · exact .inr ⟨fresh numbered inside, False.elim⟩
  | addMember group member =>
      obtain ⟨⟨own, combinator, members⟩, new, rfl, alike, numbered, changed⟩ := effect
      refine changed.inner_mem ?_ found
      rintro _ _ ⟨_⟩ found
      simp only [group_inner_ids, List.flatMap_append, List.flatMap_singleton, List.mem_cons,
        List.mem_append] at found ⊢
      rcases found with same | others | inside
      · exact .inl (.inl same)
      · exact .inl (.inr others)
      · refine .inr ⟨fresh numbered (inner_mem_ids inside), fun adds same => ?_⟩
        cases same
        exact added_not_inner adds alike numbered.nodup inside
  | addFilter event filter =>
      obtain ⟨old, new, rfl, _, numbered, changed⟩ := effect
      refine changed.inner_mem ?_ found
      rintro _ _ ⟨_⟩ found
      simp only [event_inner_ids, List.flatMap_append, List.flatMap_singleton,
        List.mem_append] at found ⊢
      rcases found with (old | inside) | joined
      · exact .inl (.inl old)
      · exact .inr ⟨fresh numbered inside, False.elim⟩
      · exact .inl (.inr joined)
  | addRelated event related =>
      obtain ⟨old, new, rfl, _, numbered, changed⟩ := effect
      refine changed.inner_mem ?_ found
      rintro _ _ ⟨_⟩ found
      simp only [event_inner_ids, List.flatMap_append, List.flatMap_singleton,
        List.mem_append] at found ⊢
      rcases found with filters | joined | inside
      · exact .inl (.inl filters)
      · exact .inl (.inr joined)
      · exact .inr ⟨fresh numbered inside, False.elim⟩
  | update own condition =>
      obtain ⟨old, new, rfl, _, _, numbered, changed⟩ := effect
      refine changed.inner_mem ?_ found
      rintro _ _ ⟨_⟩ inside
      exact .inr ⟨fresh numbered inside, False.elim⟩
  | remove gone => exact .inl (effect.2.2.inner_mem found)
  | setCombinator combinator =>
      obtain ⟨_, _, same⟩ := effect
      rw [same] at found
      exact .inl found
  | setGroupCombinator group combinator =>
      obtain ⟨⟨own, old, members⟩, rfl, _, changed⟩ := effect
      refine changed.inner_mem ?_ found
      rintro _ _ ⟨_⟩ inside
      exact .inl inside
  | apply typed => cases effect

theorem Unique.inner_lt (unique : session.Unique) {id : Nat}
    (inner : id ∈ session.criteria.innerIds) : id < session.ids.next :=
  unique.behind id ((criteria_ids_parts _).mem_iff.mpr (List.mem_append_right _ inner))

theorem after_outer {edit : Edit} (onTree : edit.OnTree) {id : Nat} (old : id < session.ids.next)
    (outer : id ∉ session.criteria.innerIds) : id ∉ (session.after edit).criteria.innerIds := by
  cases done : session.respond edit with
  | error error =>
      rw [after, edit_respond, done]
      exact outer
  | ok outcome =>
      obtain ⟨answer, later⟩ := outcome
      rw [respond_after done]
      intro inner
      rcases (respond_effect onTree done).2.inner_mem inner with before | ⟨new, _⟩
      · exact outer before
      · omega

theorem run_outer {edits : List Edit} (onTree : ∀ edit ∈ edits, edit.OnTree) {id : Nat}
    (old : id < session.ids.next) (outer : id ∉ session.criteria.innerIds) :
    id ∉ (session.run edits).criteria.innerIds := by
  induction edits generalizing session with
  | nil => exact outer
  | cons edit rest ih =>
      have here := onTree edit List.mem_cons_self
      exact ih (fun other place => onTree other (List.mem_cons_of_mem _ place))
        (old.trans_le (after_renews here).next_le) (after_outer here old outer)

/-- A condition that was added can be found as long as it is in the tree. -/
theorem added_condition_found (unique : session.Unique) {edit : Edit} (adds : edit.AddsCondition)
    {id : Nat} {later : Session} (added : session.respond edit = .ok (some id, later))
    {more : List Edit} (onTree : ∀ edit ∈ more, edit.OnTree)
    (kept : id ∈ (later.run more).criteria.ids) :
    ∃ condition, (later.run more).criteria.condition? id = some condition := by
  have here : edit.OnTree := by
    cases edit with
    | apply typed => cases adds
    | _ => trivial
  have effect := (respond_effect here added).2
  have outer : id ∉ later.criteria.innerIds := by
    intro inner
    rcases effect.inner_mem inner with before | ⟨_, other⟩
    · have := unique.inner_lt before
      have := effect.between.1
      omega
    · exact other adds rfl
  have outer := run_outer onTree effect.between.2 outer
  have leaf := ((criteria_ids_parts _).mem_iff.mp kept)
  rw [← Option.isSome_iff_exists, ← Option.ne_none_iff_isSome, ne_eq, condition_absent]
  simpa [outer] using leaf

theorem fresh_cases {α : Type} (session : Session) (number : Nat → α × Nat) :
    (∃ value ids, session.fresh number = .ok (value, ids)) ∨
      session.fresh number = .error .idsExhausted := by
  rw [fresh]
  cases session.ids.assign? number with
  | none => exact .inr rfl
  | some made => exact .inl ⟨made.1, made.2, rfl⟩

/-- A condition that is found is replaced, if there are ids for the nodes in the new one. -/
theorem update_found {id : Nat} {old : Condition}
    (found : session.criteria.condition? id = some old) (condition : Condition) :
    (∃ later, session.update id condition = .ok later) ∨
      session.update id condition = .error .idsExhausted := by
  simp only [update, found]
  rcases session.fresh_cases condition.numberWithin with ⟨new, ids, made⟩ | made
  · obtain ⟨criteria, replaced⟩ := replace_is_some found (new.withId id)
    refine .inl ⟨{ session with criteria, ids }, ?_⟩
    simp [made, bind, Except.bind, replaced]
  · rw [made]
    exact .inr rfl

theorem update_refused (id : Nat) (condition : Condition) :
    session.update id condition = .error (.notFound id) ↔
      ∀ leaf ∈ session.criteria.leaves, leaf.id ≠ id := by
  rw [← condition_absent]
  constructor
  · intro refused
    cases found : session.criteria.condition? id with
    | none => rfl
    | some old =>
        rcases update_found found condition with ⟨later, updated⟩ | exhausted
        · rw [updated] at refused
          cases refused
        · rw [exhausted] at refused
          cases refused
  · intro absent
    rw [update, absent]

theorem set_group_combinator_refused (id : Nat) (combinator : Combinator) :
    session.setGroupCombinator id combinator = .error (.groupNotFound id) ↔
      ∀ group ∈ session.criteria.allGroups, group.id ≠ id := by
  rw [setGroupCombinator, ← change_group_absent id fun group => { group with combinator }]
  cases session.criteria.changeGroup? id fun group => { group with combinator } <;> simp

theorem add_member_refused (id : Nat) (member : Member) :
    session.addMember id member = .error (.groupNotFound id) ↔
      ∀ group ∈ session.criteria.allGroups, group.id ≠ id := by
  rw [addMember, ← change_group_absent id fun group => group]
  cases found : session.criteria.changeGroup? id fun group => group with
  | none => simp
  | some same =>
      rcases session.fresh_cases member.number with ⟨new, ids, made⟩ | made
      · have place := (change_group_is_some id (fun group => group)
          (fun group => { group with members := group.members ++ [new] }) session.criteria).mp
            (by simp [found])
        obtain ⟨criteria, changed⟩ := Option.isSome_iff_exists.mp place
        simp [made, bind, Except.bind, changed]
      · simp [made, bind, Except.bind]

/-- An event that is found gets something more, if there are ids for it. -/
theorem event_change_accepted {α : Type} {id : Nat} {event : Event} {error : EditError}
    (found : session.event? id = some event) (number : Nat → α × Nat) (more : α → Event)
    (own : α → Nat) :
    (do
      let (new, ids) ← session.fresh number
      let later ← session.putEvent id (more new) ids
      .ok (own new, later)) = (.error error : Except EditError (Nat × Session)) →
    error = .idsExhausted := by
  rcases session.fresh_cases number with ⟨new, ids, made⟩ | made
  · obtain ⟨criteria, replaced⟩ := replace_is_some (event_condition found) (.event (more new))
    simp [made, bind, Except.bind, putEvent, replaced]
  · simpa [made, bind, Except.bind] using Eq.symm

theorem event_absent (unique : session.Unique) (id : Nat) :
    session.event? id = none ↔
      ∀ event, .event event ∈ session.criteria.leaves → event.id ≠ id := by
  constructor
  · rintro absent event leaf rfl
    have found : session.criteria.condition? event.id = some (.event event) :=
      leaf_found unique.distinct leaf
    rw [event?, found] at absent
    cases absent
  · intro absent
    cases found : session.event? id with
    | none => rfl
    | some event =>
        obtain ⟨leaf, same⟩ := found_leaf (event_condition found)
        exact absurd same (absent event leaf)

theorem add_filter_refused (unique : session.Unique) (id : Nat) (filter : Filter) :
    session.addFilter id filter = .error (.eventNotFound id) ↔
      ∀ event, .event event ∈ session.criteria.leaves → event.id ≠ id := by
  rw [← event_absent unique, addFilter]
  cases found : session.event? id with
  | none => simp
  | some event =>
      refine iff_of_false (fun refused => ?_) (by simp)
      cases event_change_accepted found (Condition.filter filter).number
        (fun new => { event with filters := event.filters ++ [new] }) Condition.id refused

theorem add_related_refused (unique : session.Unique) (id : Nat) (related : Related) :
    session.addRelated id related = .error (.eventNotFound id) ↔
      ∀ event, .event event ∈ session.criteria.leaves → event.id ≠ id := by
  rw [← event_absent unique, addRelated]
  cases found : session.event? id with
  | none => simp
  | some event =>
      refine iff_of_false (fun refused => ?_) (by simp)
      cases event_change_accepted found related.number
        (fun new => { event with related := event.related ++ [new] }) Related.id refused

/-- In a session that began with an empty tree, an edit is refused for want of a place exactly if
the tree has none of the kind that it asks for: no condition on its own or in a group, no group at any
depth, no event on its own or in a group. So a condition that was added on its own or in a group can
be replaced as long as it is in the tree. -/
theorem refused_iff_absent {dataset : String} {source : EventSource} {session : Session}
    (opened : open? dataset .empty source = some session) (edits : List Edit) :
    (∀ id,
      (∀ condition, (session.run edits).update id condition = .error (.notFound id) ↔
        ∀ leaf ∈ (session.run edits).criteria.leaves, leaf.id ≠ id) ∧
      (∀ combinator,
        (session.run edits).setGroupCombinator id combinator = .error (.groupNotFound id) ↔
          ∀ group ∈ (session.run edits).criteria.allGroups, group.id ≠ id) ∧
      (∀ member, (session.run edits).addMember id member = .error (.groupNotFound id) ↔
        ∀ group ∈ (session.run edits).criteria.allGroups, group.id ≠ id) ∧
      (∀ filter, (session.run edits).addFilter id filter = .error (.eventNotFound id) ↔
        ∀ event, .event event ∈ (session.run edits).criteria.leaves → event.id ≠ id) ∧
      (∀ related, (session.run edits).addRelated id related = .error (.eventNotFound id) ↔
        ∀ event, .event event ∈ (session.run edits).criteria.leaves → event.id ≠ id)) ∧
    ∀ (edit : Edit) (id : Nat) (later : Session), edit.AddsCondition →
      (session.run edits).respond edit = .ok (some id, later) →
      ∀ more : List Edit, (∀ edit ∈ more, edit.OnTree) → id ∈ (later.run more).criteria.ids →
        ∀ condition, (∃ updated, (later.run more).update id condition = .ok updated) ∨
          (later.run more).update id condition = .error .idsExhausted := by
  obtain ⟨ids, behind, rfl⟩ := Option.map_eq_some_iff.mp opened
  have start : Unique ⟨dataset, .empty, ids, source, []⟩ := ⟨List.nodup_nil, ids_lt_behind behind⟩
  have unique := run_unique start edits
  refine ⟨fun id => ⟨update_refused id, set_group_combinator_refused id, add_member_refused id,
    add_filter_refused unique id, add_related_refused unique id⟩, ?_⟩
  intro edit id later adds added more onTree kept condition
  obtain ⟨old, found⟩ := added_condition_found unique adds added onTree kept
  exact update_found found condition

/-- A condition is no group to put anything into, and an event in a group can be replaced when it
has got a filter. -/
theorem visit_in_group_addressed :
    let city : Filter := ⟨0, "city", .equals, .string "Bern", none⟩
    let visit : Condition := .event ⟨0, "customer_id", "customer_id", .performed, none, 0, none,
      none, .and, [], .and, []⟩
    let edits : List Edit := [.addGroup .and, .addCondition (.filter city)]
    let addition : Edit := .addMember 1 (.condition visit)
    let more : List Edit := [.addFilter 3 city, .remove 2]
    addition.AddsCondition ∧ (∀ edit ∈ more, edit.OnTree) ∧
      ∃ session later, open? "customers" .empty {} = some session ∧
        (session.run edits).respond addition = .ok (some 3, later) ∧
        3 ∈ (later.run more).criteria.ids ∧
        (session.run edits).addMember 2 (.condition visit) = .error (.groupNotFound 2) ∧
        ((∃ updated, (later.run more).update 3 (.filter city) = .ok updated) ∨
          (later.run more).update 3 (.filter city) = .error .idsExhausted) := by
  intro city visit edits addition more
  have adds : addition.AddsCondition := trivial
  have onTree : ∀ edit ∈ more, edit.OnTree := by simp [more, Edit.OnTree]
  have opened : open? "customers" .empty {} = some ⟨"customers", .empty, ⟨1⟩, {}, []⟩ := rfl
  have addressed := refused_iff_absent opened edits
  refine ⟨adds, onTree, _, _, opened, rfl, by decide, ?_, ?_⟩
  · exact ((addressed.1 2).2.2.1 _).mpr (by decide)
  · exact addressed.2 addition 3 _ adds rfl more onTree (by decide) _

/-- The filters of an event are conditions of the tree with ids that were handed out, but they are
not found to be replaced. -/
theorem filter_of_event_not_found :
    let city : Filter := ⟨0, "city", .equals, .string "Bern", none⟩
    let visit (id : Nat) (filters : List Condition) : Condition := .event ⟨id, "customer_id",
      "customer_id", .performed, none, 0, none, none, .and, filters, .and, []⟩
    ∃ session later, open? "customers" .empty {} = some session ∧
      (session.run [.addCondition (visit 0 [])]).addFilter 1 city = .ok (2, later) ∧
      later.criteria.conditions = [visit 1 [.filter { city with id := 2 }]] ∧
      later.update 2 (.filter city) = .error (.notFound 2) :=
  ⟨_, _, rfl, rfl, rfl, rfl⟩

end Session

end Cohort
