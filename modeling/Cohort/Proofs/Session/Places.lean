import Cohort.Proofs.Session.Ids

/-!
Places in a tree. An edit changes one node in its place or takes one out, and leaves what is around
it. The relations say so with the surroundings written out; what the searches of a session find is
shown to be such a place.
-/

namespace Cohort

variable {α : Type}

inductive Member.Changed (change : Member → Member → Prop) : Member → Member → Prop where
  | here {old new : Member} (changed : change old new) : Changed change old new
  | within {old new : Member} (id : Nat) (combinator : Combinator) (front back : List Member)
      (changed : Changed change old new) :
      Changed change (.group ⟨id, combinator, front ++ old :: back⟩)
        (.group ⟨id, combinator, front ++ new :: back⟩)

inductive Criteria.Changed (change : Member → Member → Prop) : Criteria → Criteria → Prop where
  | condition {old new : Condition} (front back : List Condition) (groups : List Group)
      (combinator : Combinator) (changed : change (.condition old) (.condition new)) :
      Changed change ⟨front ++ old :: back, groups, combinator⟩
        ⟨front ++ new :: back, groups, combinator⟩
  | group {old new : Group} (conditions : List Condition) (front back : List Group)
      (combinator : Combinator) (changed : Member.Changed change (.group old) (.group new)) :
      Changed change ⟨conditions, front ++ old :: back, combinator⟩
        ⟨conditions, front ++ new :: back, combinator⟩

inductive Group.Becomes (id : Nat) (old new : Group) : Member → Member → Prop where
  | intro (own : old.id = id) : Becomes id old new (.group old) (.group new)

inductive Condition.Becomes (id : Nat) (old new : Condition) : Member → Member → Prop where
  | intro (own : old.id = id) : Becomes id old new (.condition old) (.condition new)

/-- A node of the given id is taken out of one of the lists that a member has right in it: the
members of a group, the filters or the related conditions of an event, or the filters of one of
these. -/
inductive Member.Loses (id : Nat) : Member → Member → Prop where
  | member {gone : Member} (own : Nat) (combinator : Combinator) (front back : List Member)
      (found : gone.id = id) :
      Loses id (.group ⟨own, combinator, front ++ gone :: back⟩)
        (.group ⟨own, combinator, front ++ back⟩)
  | filter {event : Event} {gone : Condition} (front back : List Condition)
      (place : event.filters = front ++ gone :: back) (found : gone.id = id) :
      Loses id (.condition (.event event))
        (.condition (.event { event with filters := front ++ back }))
  | related {event : Event} {gone : Related} (front back : List Related)
      (place : event.related = front ++ gone :: back) (found : gone.id = id) :
      Loses id (.condition (.event event))
        (.condition (.event { event with related := front ++ back }))
  | relatedFilter {event : Event} {joined : Related} {gone : Filter} (front back : List Related)
      (before behind : List Filter) (place : event.related = front ++ joined :: back)
      (inner : joined.filters = before ++ gone :: behind) (found : gone.id = id) :
      Loses id (.condition (.event event))
        (.condition (.event { event with
          related := front ++ { joined with filters := before ++ behind } :: back }))

inductive Criteria.Removed (id : Nat) : Criteria → Criteria → Prop where
  | condition {gone : Condition} (front back : List Condition) (groups : List Group)
      (combinator : Combinator) (found : gone.id = id) :
      Removed id ⟨front ++ gone :: back, groups, combinator⟩ ⟨front ++ back, groups, combinator⟩
  | group {gone : Group} (conditions : List Condition) (front back : List Group)
      (combinator : Combinator) (found : gone.id = id) :
      Removed id ⟨conditions, front ++ gone :: back, combinator⟩
        ⟨conditions, front ++ back, combinator⟩
  | within {before after : Criteria} (changed : before.Changed (Member.Loses id) after) :
      Removed id before after

def Member.idsWithin : Member → List Nat
  | .condition c => c.idsWithin
  | .group g => Member.idsOf g.members

theorem member_ids (member : Member) : member.ids = member.id :: member.idsWithin := by
  cases member with
  | condition c => rfl
  | group g =>
      obtain ⟨⟩ := g
      rfl

theorem mem_ids_of_mem {id : Nat} {member : Member} {members : List Member}
    (place : member ∈ members) (found : id ∈ member.ids) : id ∈ Member.idsOf members := by
  rw [member_ids_of]
  exact List.mem_flatMap.mpr ⟨member, place, found⟩

/-- What is true of the ids of a changed node is true of those of the member around it. -/
theorem Member.Changed.id_mem {id : Nat} {change : Member → Member → Prop} {before after : Member}
    (step : ∀ old new, change old new → id ∈ old.ids)
    (changed : before.Changed change after) : id ∈ before.ids := by
  induction changed with
  | here changed => exact step _ _ changed
  | within own combinator front back _ ih =>
      rw [member_ids]
      exact List.mem_cons_of_mem _
        (mem_ids_of_mem (List.mem_append_right front List.mem_cons_self) ih)

theorem Criteria.Changed.id_mem {id : Nat} {change : Member → Member → Prop}
    {before after : Criteria} (step : ∀ old new, change old new → id ∈ old.ids)
    (changed : before.Changed change after) : id ∈ before.ids := by
  rw [Criteria.ids]
  cases changed with
  | @condition old new front back groups combinator changed =>
      have found : id ∈ old.ids := step _ _ changed
      rw [condition_ids_of, List.mem_append]
      exact .inl (List.mem_flatMap.mpr ⟨old, by simp, found⟩)
  | @group old new conditions front back combinator changed =>
      have found : id ∈ old.ids := changed.id_mem step
      rw [List.mem_append]
      exact .inr (List.mem_flatMap.mpr ⟨old, by simp, found⟩)

theorem Group.Becomes.id_mem {id : Nat} {old new : Group} (before after : Member)
    (becomes : Group.Becomes id old new before after) : id ∈ before.ids := by
  obtain ⟨own⟩ := becomes
  rw [member_ids]
  exact own ▸ List.mem_cons_self

theorem Condition.Becomes.id_mem {id : Nat} {old new : Condition} (before after : Member)
    (becomes : Condition.Becomes id old new before after) : id ∈ before.ids := by
  obtain ⟨own⟩ := becomes
  rw [member_ids]
  exact own ▸ List.mem_cons_self

theorem Member.Loses.id_mem {id : Nat} (old new : Member) (loses : Member.Loses id old new) :
    id ∈ old.idsWithin := by
  cases loses with
  | @member gone own combinator front back found =>
      refine mem_ids_of_mem (List.mem_append_right front List.mem_cons_self) ?_
      rw [member_ids]
      exact found ▸ List.mem_cons_self
  | @filter event gone front back place found =>
      simp [Member.idsWithin, Condition.idsWithin, event_ids_within, place, Condition.ids, found]
  | @related event gone front back place found =>
      simp [Member.idsWithin, Condition.idsWithin, event_ids_within, place, Related.ids, found]
  | @relatedFilter event joined gone front back before behind place inner found =>
      simp [Member.idsWithin, Condition.idsWithin, event_ids_within, place, Related.ids, inner,
        found]

theorem Criteria.Removed.id_mem {id : Nat} {before after : Criteria}
    (removed : before.Removed id after) : id ∈ before.ids := by
  cases removed with
  | condition front back groups combinator found =>
      simp [Criteria.ids, condition_ids_of, Condition.ids, found]
  | @group gone conditions front back combinator found =>
      have own : id ∈ gone.ids := by
        obtain ⟨⟩ := gone
        exact found ▸ List.mem_cons_self
      simp [Criteria.ids, own]
  | within changed =>
      refine changed.id_mem fun old new loses => ?_
      rw [member_ids]
      exact List.mem_cons_of_mem _ (Member.Loses.id_mem old new loses)

theorem change_first_is_some (change : α → Option α) (items : List α) :
    (changeFirst? change items).isSome ↔ ∃ item ∈ items, (change item).isSome := by
  induction items with
  | nil => simp [changeFirst?]
  | cons item rest ih =>
      rw [changeFirst?, List.exists_mem_cons_iff, ← ih]
      cases change item <;> simp

theorem remove_first_is_some (wanted : α → Bool) (items : List α) :
    (removeFirst? wanted items).isSome ↔ ∃ item ∈ items, wanted item = true := by
  induction items with
  | nil => simp [removeFirst?]
  | cons item rest ih =>
      rw [removeFirst?, List.exists_mem_cons_iff, ← ih]
      cases wanted item <;> simp

theorem remove_first_some {wanted : α → Bool} {items remaining : List α}
    (found : removeFirst? wanted items = some remaining) :
    ∃ front item back, items = front ++ item :: back ∧ wanted item = true ∧
      remaining = front ++ back := by
  induction items generalizing remaining with
  | nil => cases found
  | cons item rest ih =>
      rw [removeFirst?] at found
      split_ifs at found with here
      · cases found
        exact ⟨[], item, rest, rfl, here, rfl⟩
      · obtain ⟨others, behind, rfl⟩ := Option.map_eq_some_iff.mp found
        obtain ⟨front, gone, back, rfl, same, rfl⟩ := ih behind
        exact ⟨item :: front, gone, back, rfl, same, rfl⟩

theorem member_change_changed {id : Nat} {change : Group → Group} (member : Member) :
    ∀ later, member.change? id change = some later →
      ∃ group, member.Changed (Group.Becomes id group (change group)) later := by
  induction member using Member.induction with
  | condition c => intro later found; cases found
  | group own combinator members ih =>
      intro later found
      obtain ⟨changed, inner, rfl⟩ := Option.map_eq_some_iff.mp found
      simp only [Group.change?] at inner
      split_ifs at inner with here
      · cases inner
        exact ⟨_, .here (.intro here)⟩
      · obtain ⟨others, behind, rfl⟩ := Option.map_eq_some_iff.mp inner
        rw [change_group_first] at behind
        obtain ⟨front, old, new, back, rfl, same, rfl⟩ := change_first_some behind
        obtain ⟨group, changed⟩ := ih old (by simp) new same
        exact ⟨group, .within own combinator front back changed⟩

theorem change_group_changed {id : Nat} {change : Group → Group} {before after : Criteria}
    (found : before.changeGroup? id change = some after) :
    ∃ group, before.Changed (Group.Becomes id group (change group)) after := by
  obtain ⟨conditions, groups, combinator⟩ := before
  rw [Criteria.changeGroup?] at found
  obtain ⟨others, inner, rfl⟩ := Option.map_eq_some_iff.mp found
  obtain ⟨front, old, new, back, rfl, same, rfl⟩ := change_first_some inner
  have moved : (Member.group old).change? id change = some (.group new) := by
    simp [Member.change?, same]
  obtain ⟨group, changed⟩ := member_change_changed (.group old) (.group new) moved
  exact ⟨group, .group conditions front back combinator changed⟩

/-- Whether a group is found does not depend on what is to become of it. -/
theorem member_change_is_some (id : Nat) (change change' : Group → Group) (member : Member) :
    (member.change? id change).isSome ↔ (member.change? id change').isSome := by
  induction member using Member.induction with
  | condition c => rfl
  | group own combinator members ih =>
      simp only [Member.change?, Option.isSome_map, Group.change?]
      split_ifs
      · simp
      · simp only [Option.isSome_map, change_group_first, change_first_is_some]
        exact exists_congr fun member => and_congr_right fun place => ih member place

theorem change_group_is_some (id : Nat) (change change' : Group → Group) (criteria : Criteria) :
    (criteria.changeGroup? id change).isSome ↔ (criteria.changeGroup? id change').isSome := by
  simp only [Criteria.changeGroup?, Option.isSome_map, change_first_is_some]
  refine exists_congr fun group => and_congr_right fun _ => ?_
  simpa [Member.change?] using member_change_is_some id change change' (.group group)

/-- What a search finds and what is exchanged there: nothing in both cases, or `related` says how
what was found, the item before and the item after belong together. -/
inductive Exchanged (related : Condition → α → α → Prop) (item : α) :
    Option Condition → Option α → Prop where
  | absent : Exchanged related item none none
  | found {old : Condition} {later : α} (changed : related old item later) :
      Exchanged related item (some old) (some later)

def ListExchanged (related : Condition → α → α → Prop) (old : Condition) (before after : List α) :
    Prop :=
  ∃ front item later back, before = front ++ item :: back ∧ related old item later ∧
    after = front ++ later :: back

theorem first_exchanged {find : α → Option Condition} {change : α → Option α}
    {related : Condition → α → α → Prop} {items : List α}
    (each : ∀ item ∈ items, Exchanged related item (find item) (change item)) :
    Exchanged (ListExchanged related) items (items.findSome? find) (changeFirst? change items) := by
  induction items with
  | nil => exact .absent
  | cons item rest ih =>
      have here := each item List.mem_cons_self
      have behind := ih fun other found => each other (List.mem_cons_of_mem item found)
      rw [changeFirst?, List.findSome?_cons]
      generalize find item = old, change item = new at here
      cases here with
      | @found old later changed => exact .found ⟨[], item, later, rest, rfl, changed, rfl⟩
      | absent =>
          simp only
          generalize rest.findSome? find = old, changeFirst? change rest = new at behind
          cases behind with
          | absent => exact .absent
          | found changed =>
              obtain ⟨front, other, later, back, rfl, changed, rfl⟩ := changed
              exact .found ⟨item :: front, other, later, back, rfl, changed, rfl⟩

/-- The same items are found and exchanged in what they are put into. -/
theorem Exchanged.into {β : Type} {related : Condition → α → α → Prop}
    {related' : Condition → β → β → Prop} {item : α} {whole : β} {old : Option Condition}
    {new : Option α} (exchanged : Exchanged related item old new) (put : α → β)
    (step : ∀ condition later, related condition item later →
      related' condition whole (put later)) :
    Exchanged related' whole old (new.map put) := by
  cases exchanged with
  | absent => exact .absent
  | found changed => exact .found (step _ _ changed)

theorem condition_exchanged (id : Nat) (new condition : Condition) :
    Exchanged (fun old before after =>
        Condition.Becomes id old new (.condition before) (.condition after)) condition
      (if condition.id = id then some condition else none)
      (if condition.id = id then some new else none) := by
  split_ifs with own
  · exact .found (.intro own)
  · exact .absent

theorem member_exchanged (id : Nat) (new : Condition) (member : Member) :
    Exchanged (fun old => Member.Changed (Condition.Becomes id old new)) member
      (member.find? id) (member.exchange? id new) := by
  induction member using Member.induction with
  | condition c =>
      have here := (condition_exchanged id new c).into Member.condition
        fun old later place => Member.Changed.here place
      simp only [Member.find?, Member.exchange?]
      by_cases own : c.id = id
      · simpa [own] using here
      · simpa [own] using here
  | group own combinator members ih =>
      have within := first_exchanged ih
      rw [← member_condition_first, ← member_replace_first] at within
      simp only [Member.find?, Member.exchange?, Group.condition?, Group.replace?, Option.map_map]
      refine within.into _ fun old later place => ?_
      obtain ⟨front, item, changed, back, rfl, inner, rfl⟩ := place
      exact .within own combinator front back inner

/-- The condition that is found under an id is the one that is exchanged, and it has this id. -/
theorem criteria_exchanged (id : Nat) (new : Condition) (criteria : Criteria) :
    Exchanged (fun old => Criteria.Changed (Condition.Becomes id old new)) criteria
      (criteria.condition? id) (criteria.replace? id new) := by
  obtain ⟨conditions, groups, combinator⟩ := criteria
  have alone := first_exchanged fun condition (_ : condition ∈ conditions) =>
    condition_exchanged id new condition
  have each : ∀ group ∈ groups, Exchanged (fun old before after =>
      Member.Changed (Condition.Becomes id old new) (.group before) (.group after)) group
      (group.condition? id) (group.replace? id new) := by
    intro group _
    have inner := member_exchanged id new (.group group)
    simp only [Member.find?, Member.exchange?] at inner
    generalize group.condition? id = old, group.replace? id new = later at inner
    cases later with
    | none => cases inner; exact .absent
    | some later => cases inner with | found changed => exact .found changed
  have inGroups := first_exchanged each
  rw [Criteria.condition?, Criteria.replace?, find_first]
  -- The conditions come first; the groups only count where no condition of the id is found.
  generalize conditions.findSome? _ = old, changeFirst? _ conditions = later at alone
  cases alone with
  | found place =>
      obtain ⟨front, item, changed, back, rfl, changed', rfl⟩ := place
      exact .found (.condition front back groups combinator changed')
  | absent =>
      refine inGroups.into _ fun old later place => ?_
      obtain ⟨front, item, changed, back, rfl, inner, rfl⟩ := place
      exact .group conditions front back combinator inner

theorem event_removed {id : Nat} {event remaining : Event}
    (found : event.remove? id = some remaining) :
    Member.Loses id (.condition (.event event)) (.condition (.event remaining)) := by
  simp only [Event.remove?] at found
  split at found
  · next filters removed =>
      cases found
      obtain ⟨front, gone, back, place, same, rfl⟩ := remove_first_some removed
      exact .filter front back place (beq_iff_eq.mp same)
  · split at found
    · next related removed =>
        cases found
        obtain ⟨front, gone, back, place, same, rfl⟩ := remove_first_some removed
        exact .related front back place (beq_iff_eq.mp same)
    · obtain ⟨related, changed, rfl⟩ := Option.map_eq_some_iff.mp found
      obtain ⟨front, joined, new, back, place, inner, rfl⟩ := change_first_some changed
      obtain ⟨filters, removed, rfl⟩ := Option.map_eq_some_iff.mp inner
      obtain ⟨before, gone, behind, inside, same, rfl⟩ := remove_first_some removed
      exact .relatedFilter front back before behind place inside (beq_iff_eq.mp same)

theorem condition_removed {id : Nat} {condition remaining : Condition}
    (found : condition.remove? id = some remaining) :
    Member.Loses id (.condition condition) (.condition remaining) := by
  cases condition with
  | filter f => cases found
  | event e =>
      obtain ⟨event, removed, rfl⟩ := Option.map_eq_some_iff.mp found
      exact event_removed removed

theorem member_removed {id : Nat} (member : Member) :
    ∀ remaining, member.without? id = some remaining →
      member.Changed (Member.Loses id) remaining := by
  induction member using Member.induction with
  | condition c =>
      intro remaining found
      obtain ⟨condition, removed, rfl⟩ := Option.map_eq_some_iff.mp found
      exact .here (condition_removed removed)
  | group own combinator members ih =>
      intro remaining found
      obtain ⟨group, removed, rfl⟩ := Option.map_eq_some_iff.mp found
      simp only [Group.remove?] at removed
      obtain ⟨others, remains, rfl⟩ := Option.map_eq_some_iff.mp removed
      split at remains
      · next direct =>
          cases remains
          obtain ⟨front, gone, back, rfl, same, rfl⟩ := remove_first_some direct
          exact .here (.member own combinator front back (beq_iff_eq.mp same))
      · rw [member_remove_first] at remains
        obtain ⟨front, old, new, back, rfl, same, rfl⟩ := change_first_some remains
        exact .within own combinator front back (ih old (by simp) new same)

theorem criteria_removed {id : Nat} {before after : Criteria}
    (found : before.remove? id = some after) : before.Removed id after := by
  obtain ⟨conditions, groups, combinator⟩ := before
  simp only [Criteria.remove?] at found
  -- A condition of the tree, a group of the tree, a node in a condition, a node in a group.
  split at found
  · next removed =>
      cases found
      obtain ⟨front, gone, back, rfl, same, rfl⟩ := remove_first_some removed
      exact .condition front back groups combinator (beq_iff_eq.mp same)
  · split at found
    · next removed =>
        cases found
        obtain ⟨front, gone, back, rfl, same, rfl⟩ := remove_first_some removed
        exact .group conditions front back combinator (beq_iff_eq.mp same)
    · split at found
      · next changed =>
          cases found
          obtain ⟨front, old, new, back, rfl, same, rfl⟩ := change_first_some changed
          exact .within (.condition front back groups combinator (condition_removed same))
      · obtain ⟨others, changed, rfl⟩ := Option.map_eq_some_iff.mp found
        obtain ⟨front, old, new, back, rfl, same, rfl⟩ := change_first_some changed
        refine .within (.group conditions front back combinator
          (member_removed (.group old) _ ?_))
        simp [Member.without?, same]

end Cohort
