import Cohort.Session
import Cohort.Proofs.Except
import Cohort.Proofs.Recovery.Ids

/-!
Ids in an editing session. Whatever is added, replaced, removed or typed in, no two nodes of the
tree share an id, and the ids that are handed out next are behind all of them.
-/

namespace Cohort

variable {α β : Type}

theorem change_first_some {change : α → Option α} {items changed : List α}
    (found : changeFirst? change items = some changed) :
    ∃ front item new back, items = front ++ item :: back ∧ change item = some new ∧
      changed = front ++ new :: back := by
  induction items generalizing changed with
  | nil => cases found
  | cons item rest ih =>
      rw [changeFirst?] at found
      cases here : change item with
      | some new =>
          rw [here] at found
          cases found
          exact ⟨[], item, new, rest, rfl, here, rfl⟩
      | none =>
          rw [here] at found
          obtain ⟨others, behind, rfl⟩ := Option.map_eq_some_iff.mp found
          obtain ⟨front, old, new, back, rfl, same, rfl⟩ := ih behind
          exact ⟨item :: front, old, new, back, rfl, same, rfl⟩

theorem remove_first_sublist {wanted : α → Bool} {items remaining : List α}
    (found : removeFirst? wanted items = some remaining) : remaining.Sublist items := by
  induction items generalizing remaining with
  | nil => cases found
  | cons item rest ih =>
      rw [removeFirst?] at found
      split_ifs at found
      · cases found
        exact List.sublist_cons_self item rest
      · obtain ⟨others, behind, rfl⟩ := Option.map_eq_some_iff.mp found
        exact (ih behind).cons_cons item

theorem changed_sublist {change : α → Option α} {ids : α → List β} {items changed : List α}
    (each : ∀ item ∈ items, ∀ new, change item = some new → (ids new).Sublist (ids item))
    (found : changeFirst? change items = some changed) :
    (changed.flatMap ids).Sublist (items.flatMap ids) := by
  obtain ⟨front, item, new, back, rfl, same, rfl⟩ := change_first_some found
  have smaller := each item (List.mem_append_right _ List.mem_cons_self) new same
  simp only [List.flatMap_append, List.flatMap_cons]
  exact (smaller.append_right _).append_left _

theorem changed_perm {change : α → Option α} {ids : α → List β} {more : List β}
    {items changed : List α}
    (each : ∀ item ∈ items, ∀ new, change item = some new → (ids new).Perm (ids item ++ more))
    (found : changeFirst? change items = some changed) :
    (changed.flatMap ids).Perm (items.flatMap ids ++ more) := by
  obtain ⟨front, item, new, back, rfl, same, rfl⟩ := change_first_some found
  have larger := each item (List.mem_append_right _ List.mem_cons_self) new same
  simp only [List.flatMap_append, List.flatMap_cons, List.append_assoc]
  refine List.Perm.append_left _ ((larger.append_right _).trans ?_)
  rw [List.append_assoc]
  exact List.perm_append_comm.append_left _

def Member.change? (id : Nat) (change : Group → Group) : Member → Option Member
  | .condition _ => none
  | .group g => (g.change? id change).map .group

theorem change_group_first (id : Nat) (change : Group → Group) (members : List Member) :
    Member.changeGroup? id change members = changeFirst? (Member.change? id change) members := by
  induction members with
  | nil => rfl
  | cons member rest ih =>
      cases member with
      | condition c => rw [Member.changeGroup?, ih]; rfl
      | group g =>
          simp only [Member.changeGroup?, changeFirst?, Member.change?, ih]
          cases g.change? id change <;> rfl

/-- A change that brings ids into the group it is made to brings them into every group that this
group is in. -/
theorem member_change_ids {id : Nat} {change : Group → Group} {more : List Nat}
    (step : ∀ group, (change group).ids.Perm (group.ids ++ more)) (member : Member) :
    ∀ new, member.change? id change = some new → new.ids.Perm (member.ids ++ more) := by
  induction member using Member.induction with
  | condition c => intro new found; cases found
  | group own combinator members ih =>
      intro new found
      obtain ⟨group, inner, rfl⟩ := Option.map_eq_some_iff.mp found
      simp only [Group.change?] at inner
      -- Either this group is the one that is changed, or one of its members holds it.
      split_ifs at inner
      · cases inner
        exact step _
      · obtain ⟨changed, behind, rfl⟩ := Option.map_eq_some_iff.mp inner
        rw [change_group_first] at behind
        have within := changed_perm ih behind
        rw [← member_ids_of, ← member_ids_of] at within
        exact within.cons own

theorem criteria_change_ids {id : Nat} {change : Group → Group} {more : List Nat}
    {criteria changed : Criteria} (step : ∀ group, (change group).ids.Perm (group.ids ++ more))
    (found : criteria.changeGroup? id change = some changed) :
    changed.ids.Perm (criteria.ids ++ more) := by
  rw [Criteria.changeGroup?] at found
  obtain ⟨groups, inner, rfl⟩ := Option.map_eq_some_iff.mp found
  have each : ∀ group ∈ criteria.groups, ∀ new, group.change? id change = some new →
      new.ids.Perm (group.ids ++ more) := by
    intro group _ new same
    have moved : (Member.group group).change? id change = some (.group new) := by
      simp [Member.change?, same]
    exact member_change_ids step (.group group) (.group new) moved
  simp only [Criteria.ids, List.append_assoc]
  exact (changed_perm each inner).append_left _

/-! ### A condition replaced -/

inductive Replaced (id : Nat) (new : Condition) (ids : List Nat) :
    Option Condition → Option (List Nat) → Prop where
  | absent : Replaced id new ids none none
  | found {old : Condition} {others after : List Nat} (own : old.id = id)
      (before : ids.Perm (old.ids ++ others)) (behind : after.Perm (new.ids ++ others)) :
      Replaced id new ids (some old) (some after)

theorem Replaced.or {id : Nat} {new : Condition} {ids ids' : List Nat}
    {old old' : Option Condition} {after after' : Option (List Nat)}
    (first : Replaced id new ids old after) (second : Replaced id new ids' old' after') :
    Replaced id new (ids ++ ids') (old.or old')
      ((after.map (· ++ ids')).or (after'.map (ids ++ ·))) := by
  cases first with
  | @found _ others _ own before behind =>
      have joined (place : List Nat) : place ++ others ++ ids' = place ++ (others ++ ids') :=
        List.append_assoc _ _ _
      exact .found own (joined _ ▸ before.append_right ids') (joined _ ▸ behind.append_right ids')
  | absent =>
      cases second with
      | absent => exact .absent
      | @found _ others _ own before behind =>
          have swap (place : List Nat) :
              (ids ++ (place ++ others)).Perm (place ++ (ids ++ others)) := by
            rw [← List.append_assoc, ← List.append_assoc]
            exact List.perm_append_comm.append_right others
          exact .found own ((before.append_left ids).trans (swap _))
            ((behind.append_left ids).trans (swap _))

theorem condition_replaced (id : Nat) (new condition : Condition) :
    Replaced id new condition.ids (if condition.id = id then some condition else none)
      ((if condition.id = id then some new else none).map Condition.ids) := by
  split_ifs with own
  · exact .found own (.of_eq (List.append_nil _).symm) (.of_eq (List.append_nil _).symm)
  · exact .absent

def Member.find? (id : Nat) : Member → Option Condition
  | .condition c => if c.id = id then some c else none
  | .group g => g.condition? id

def Member.exchange? (id : Nat) (new : Condition) : Member → Option Member
  | .condition c => if c.id = id then some (.condition new) else none
  | .group g => (g.replace? id new).map .group

theorem member_condition_first (id : Nat) (members : List Member) :
    Member.condition? id members = members.findSome? (Member.find? id) := by
  induction members with
  | nil => rfl
  | cons member rest ih =>
      cases member with
      | condition c =>
          simp only [Member.condition?, List.findSome?_cons, Member.find?, ih]
          split_ifs <;> rfl
      | group g =>
          simp only [Member.condition?, List.findSome?_cons, Member.find?, ih]
          cases g.condition? id <;> rfl

theorem member_replace_first (id : Nat) (new : Condition) (members : List Member) :
    Member.replace? id new members = changeFirst? (Member.exchange? id new) members := by
  induction members with
  | nil => rfl
  | cons member rest ih =>
      cases member with
      | condition c =>
          simp only [Member.replace?, changeFirst?, Member.exchange?, ih]
          split_ifs <;> rfl
      | group g =>
          simp only [Member.replace?, changeFirst?, Member.exchange?, ih]
          cases g.replace? id new <;> rfl

theorem first_replaced {id : Nat} {new : Condition} {find : α → Option Condition}
    {change : α → Option α} {ids : α → List Nat} {items : List α}
    (each : ∀ item ∈ items,
      Replaced id new (ids item) (find item) ((change item).map ids)) :
    Replaced id new (items.flatMap ids) (items.findSome? find)
      ((changeFirst? change items).map fun items => items.flatMap ids) := by
  induction items with
  | nil => exact .absent
  | cons item rest ih =>
      have here := each item List.mem_cons_self
      have behind := ih fun other found => each other (List.mem_cons_of_mem item found)
      have both := here.or behind
      rw [changeFirst?, List.findSome?_cons, List.flatMap_cons]
      -- `Replaced` ties what is found to what is changed, so one of them decides for both.
      generalize find item = old at here both ⊢
      cases changed : change item with
      | some new =>
          rw [changed] at here both
          cases here
          exact both
      | none =>
          rw [changed] at here both
          cases here
          simpa [Function.comp_def] using both

theorem member_replaced (id : Nat) (new : Condition) (member : Member) :
    Replaced id new member.ids (member.find? id) ((member.exchange? id new).map Member.ids) := by
  induction member using Member.induction with
  | condition c =>
      have here := condition_replaced id new c
      by_cases own : c.id = id
      · simpa [Member.find?, Member.exchange?, Member.ids, own] using here
      · simpa [Member.find?, Member.exchange?, Member.ids, own] using here
  | group own combinator members ih =>
      have within := first_replaced ih
      rw [← member_condition_first, ← member_replace_first] at within
      -- Groups are not looked for, so the id of the group itself is no place.
      have whole := (@Replaced.absent id new [own]).or within
      simp only [← member_ids_of] at whole
      simpa [Member.find?, Member.exchange?, Group.condition?, Group.replace?, Member.ids,
        Group.ids, Function.comp_def] using whole

theorem find_first (id : Nat) (conditions : List Condition) :
    (conditions.find? fun condition => condition.id == id) =
      conditions.findSome? fun condition => if condition.id = id then some condition else none := by
  induction conditions with
  | nil => rfl
  | cons condition rest ih =>
      by_cases own : condition.id = id <;> simp [own, ih]

/-- The condition that is found under an id is the one that is replaced. -/
theorem criteria_replaced (id : Nat) (new : Condition) (criteria : Criteria) :
    Replaced id new criteria.ids (criteria.condition? id)
      ((criteria.replace? id new).map Criteria.ids) := by
  have alone := first_replaced fun condition (_ : condition ∈ criteria.conditions) =>
    condition_replaced id new condition
  have each : ∀ group ∈ criteria.groups,
      Replaced id new group.ids (group.condition? id) ((group.replace? id new).map Group.ids) := by
    intro group _
    have inner := member_replaced id new (.group group)
    simpa [Member.find?, Member.exchange?, Member.ids, Function.comp_def] using inner
  have both := alone.or (first_replaced each)
  rw [Criteria.ids, Criteria.condition?, Criteria.replace?, find_first, condition_ids_of]
  cases changed : changeFirst? (fun condition => if condition.id = id then some new else none)
      criteria.conditions with
  | some conditions =>
      rw [changed] at both
      simpa [Criteria.ids, condition_ids_of] using both
  | none =>
      rw [changed] at both
      simpa [Criteria.ids, condition_ids_of, Function.comp_def] using both

theorem event_remove_sublist {id : Nat} {event remaining : Event}
    (found : event.remove? id = some remaining) :
    remaining.id = event.id ∧ remaining.idsWithin.Sublist event.idsWithin := by
  rw [event_ids_within, event_ids_within]
  simp only [Event.remove?] at found
  split at found
  · next filters removed =>
      cases found
      exact ⟨rfl, ((remove_first_sublist removed).flatMap _).append_right _⟩
  · split at found
    · next related removed =>
        cases found
        exact ⟨rfl, ((remove_first_sublist removed).flatMap _).append_left _⟩
    · obtain ⟨related, changed, rfl⟩ := Option.map_eq_some_iff.mp found
      refine ⟨rfl, List.Sublist.append_left (changed_sublist ?_ changed) _⟩
      intro joined _ new removed
      obtain ⟨filters, inner, rfl⟩ := Option.map_eq_some_iff.mp removed
      exact ((remove_first_sublist inner).map Filter.id).cons_cons _

theorem condition_remove_sublist {id : Nat} {condition remaining : Condition}
    (found : condition.remove? id = some remaining) : remaining.ids.Sublist condition.ids := by
  cases condition with
  | filter f => cases found
  | event e =>
      obtain ⟨event, removed, rfl⟩ := Option.map_eq_some_iff.mp found
      obtain ⟨own, within⟩ := event_remove_sublist removed
      simp only [Condition.ids, Condition.id, Condition.idsWithin, own]
      exact within.cons_cons _

def Member.without? (id : Nat) : Member → Option Member
  | .condition c => (c.remove? id).map .condition
  | .group g => (g.remove? id).map .group

theorem member_remove_first (id : Nat) (members : List Member) :
    Member.remove? id members = changeFirst? (Member.without? id) members := by
  induction members with
  | nil => rfl
  | cons member rest ih =>
      cases member with
      | condition c =>
          simp only [Member.remove?, changeFirst?, Member.without?, ih]
          cases c.remove? id <;> rfl
      | group g =>
          simp only [Member.remove?, changeFirst?, Member.without?, ih]
          cases g.remove? id <;> rfl

theorem member_remove_sublist {id : Nat} (member : Member) :
    ∀ remaining, member.without? id = some remaining → remaining.ids.Sublist member.ids := by
  induction member using Member.induction with
  | condition c =>
      intro remaining found
      obtain ⟨condition, removed, rfl⟩ := Option.map_eq_some_iff.mp found
      exact condition_remove_sublist removed
  | group own combinator members ih =>
      intro remaining found
      obtain ⟨group, removed, rfl⟩ := Option.map_eq_some_iff.mp found
      simp only [Group.remove?] at removed
      obtain ⟨others, left_, rfl⟩ := Option.map_eq_some_iff.mp removed
      simp only [Member.ids, Group.ids, member_ids_of]
      refine List.Sublist.cons_cons own ?_
      split at left_
      · next direct =>
          cases left_
          exact (remove_first_sublist direct).flatMap _
      · rw [member_remove_first] at left_
        exact changed_sublist ih left_

/-- Nothing is renumbered when a node is removed. -/
theorem criteria_remove_sublist {id : Nat} {criteria remaining : Criteria}
    (found : criteria.remove? id = some remaining) : remaining.ids.Sublist criteria.ids := by
  simp only [Criteria.remove?] at found
  simp only [Criteria.ids, condition_ids_of]
  -- A condition of the tree, a group of the tree, a node in a condition, a node in a group.
  split at found
  · next removed =>
      cases found
      exact ((remove_first_sublist removed).flatMap _).append_right _
  · split at found
    · next removed =>
        cases found
        exact ((remove_first_sublist removed).flatMap _).append_left _
    · split at found
      · next changed =>
          cases found
          have each : ∀ condition ∈ criteria.conditions, ∀ new, condition.remove? id = some new →
              new.ids.Sublist condition.ids := fun _ _ _ removed => condition_remove_sublist removed
          exact (changed_sublist each changed).append_right _
      · obtain ⟨groups, changed, rfl⟩ := Option.map_eq_some_iff.mp found
        refine List.Sublist.append_left (changed_sublist ?_ changed) _
        intro group _ new removed
        have moved : (Member.group group).without? id = some (.group new) := by
          simp [Member.without?, removed]
        exact member_remove_sublist (.group group) (.group new) moved

/-! ### Edits -/

inductive Edit where
  | addCondition (condition : Condition)
  | addGroup (combinator : Combinator)
  | addMember (group : Nat) (member : Member)
  | addFilter (event : Nat) (filter : Filter)
  | addRelated (event : Nat) (related : Related)
  | update (id : Nat) (condition : Condition)
  | remove (id : Nat)
  | setCombinator (combinator : Combinator)
  | setGroupCombinator (group : Nat) (combinator : Combinator)
  | apply (typed : String)

/-- Whether an edit is one of the tree; a statement that is typed in brings another tree. -/
def Edit.OnTree : Edit → Prop
  | apply _ => False
  | _ => True

namespace Session

def edit (session : Session) : Edit → Except EditError Session
  | .addCondition condition => (session.addCondition condition).map (·.2)
  | .addGroup combinator => (session.addGroup combinator).map (·.2)
  | .addMember group member => (session.addMember group member).map (·.2)
  | .addFilter event filter => (session.addFilter event filter).map (·.2)
  | .addRelated event related => (session.addRelated event related).map (·.2)
  | .update id condition => session.update id condition
  | .remove id => session.remove id
  | .setCombinator combinator => .ok (session.setCombinator combinator)
  | .setGroupCombinator group combinator => session.setGroupCombinator group combinator
  | .apply typed => session.apply typed

def after (session : Session) (edit : Edit) : Session :=
  match session.edit edit with
  | .ok session => session
  | .error _ => session

def run (session : Session) (edits : List Edit) : Session :=
  edits.foldl after session

/-- No two nodes of the tree share an id, and fresh ids are behind all of them. -/
structure Unique (session : Session) : Prop where
  distinct : session.criteria.ids.Nodup
  behind : ∀ id ∈ session.criteria.ids, id < session.ids.next

/-- The nodes of the later tree are some of the earlier one's and some that were numbered with the
ids between the two sessions. -/
def Renews (session later : Session) : Prop :=
  ∃ kept fresh, kept.Subperm session.criteria.ids ∧
    Numbered session.ids.next fresh later.ids.next ∧ later.criteria.ids.Perm (kept ++ fresh)

theorem Unique.renew {session later : Session} (unique : session.Unique)
    (renews : session.Renews later) : later.Unique := by
  obtain ⟨kept, fresh, part, numbered, same⟩ := renews
  have old : ∀ id ∈ kept, id < session.ids.next := fun id found =>
    unique.behind id (part.subset found)
  constructor
  · -- What was kept is in front of the first fresh id, so no fresh one is among it.
    rw [same.nodup_iff, List.nodup_append]
    refine ⟨?_, numbered.nodup, ?_⟩
    · obtain ⟨front, perm, sublist⟩ := part
      exact perm.nodup_iff.mp (sublist.nodup unique.distinct)
    · intro id keeps other new alike
      have := old id keeps
      have := ((numbered.mem_iff other).mp new).1
      omega
  · intro id found
    rcases List.mem_append.mp (same.mem_iff.mp found) with keeps | new
    · exact (old id keeps).trans_le numbered.1
    · exact ((numbered.mem_iff id).mp new).2

theorem fresh_ok {session : Session} {number : Nat → α × Nat} {value : α} {ids : IdSource}
    (made : session.fresh number = .ok (value, ids)) :
    value = (number session.ids.next).1 ∧ ids.next = (number session.ids.next).2 := by
  rw [fresh, IdSource.assign?] at made
  simp only [IdSource.startingAt?] at made
  split_ifs at made
  · cases made
    exact ⟨rfl, rfl⟩
  · cases made

theorem fresh_bind {session : Session} {number : Nat → α × Nat}
    {finish : α × IdSource → Except EditError β} {result : β}
    (made : (session.fresh number >>= finish) = .ok result) :
    ∃ ids : IdSource, ids.next = (number session.ids.next).2 ∧
      finish ((number session.ids.next).1, ids) = .ok result := by
  obtain ⟨pair, taken, finished⟩ := bind_ok made
  obtain ⟨value, next⟩ := fresh_ok taken
  refine ⟨pair.2, next, ?_⟩
  rw [← value]
  exact finished

theorem add_condition_renews {session later : Session} {condition : Condition} {id : Nat}
    (added : session.addCondition condition = .ok (id, later)) : session.Renews later := by
  obtain ⟨ids, next, added⟩ := fresh_bind added
  cases added
  refine ⟨session.criteria.ids, _, List.Subperm.refl _, next ▸ numbered_condition condition _, ?_⟩
  simp only [Criteria.ids, condition_ids_of, List.flatMap_append, List.flatMap_singleton,
    List.append_assoc]
  exact List.perm_append_comm.append_left _

theorem add_group_renews {session later : Session} {combinator : Combinator} {id : Nat}
    (added : session.addGroup combinator = .ok (id, later)) : session.Renews later := by
  obtain ⟨ids, next, added⟩ := fresh_bind added
  cases added
  refine ⟨session.criteria.ids, [session.ids.next], List.Subperm.refl _, ?_, ?_⟩
  · rw [next]
    exact numbered_single _
  · simp [Criteria.ids, Group.ids, Member.idsOf]

theorem add_member_renews {session later : Session} {group id : Nat} {member : Member}
    (added : session.addMember group member = .ok (id, later)) : session.Renews later := by
  rw [addMember] at added
  split at added
  · cases added
  · obtain ⟨ids, next, added⟩ := fresh_bind added
    simp only at added
    split at added
    · next criteria changed =>
        cases added
        refine ⟨session.criteria.ids, _, List.Subperm.refl _, next ▸ numbered_member member _, ?_⟩
        refine criteria_change_ids (fun place => .of_eq ?_) changed
        obtain ⟨own, combinator, members⟩ := place
        simp [Group.ids, member_ids_of]
    · cases added

/-- The event that is found under an id is the one that an event is put in place of. -/
theorem put_event_renews {session later : Session} {id : Nat} {event changed : Event}
    {ids : IdSource} {fresh : List Nat} (found : session.event? id = some event)
    (numbered : Numbered session.ids.next fresh ids.next)
    (more : (Condition.event changed).ids.Perm ((Condition.event event).ids ++ fresh))
    (put : session.putEvent id changed ids = .ok later) : session.Renews later := by
  have place := criteria_replaced id (.event changed) session.criteria
  rw [putEvent] at put
  split at put
  · next criteria replaced =>
      cases put
      rw [replaced] at place
      rw [event?] at found
      split at found
      · next same =>
          cases found
          rw [same] at place
          cases place with
          | @found _ others _ own before behind =>
              refine ⟨session.criteria.ids, fresh, List.Subperm.refl _, numbered, ?_⟩
              refine behind.trans ((more.append_right others).trans ?_)
              -- The fresh ids stand in the middle of the list, in the event.
              have moved := (@List.perm_append_comm _ fresh others).append_left
                (Condition.event event).ids
              rw [List.append_assoc]
              refine moved.trans ?_
              rw [← List.append_assoc]
              exact (before.symm.append_right fresh)
      · cases found
  · cases put

theorem event_ids (event : Event) : (Condition.event event).ids =
    event.id :: (event.filters.flatMap Condition.ids ++ event.related.flatMap Related.ids) := by
  rw [Condition.ids, Condition.idsWithin, event_ids_within]
  rfl

theorem add_filter_renews {session later : Session} {event id : Nat} {filter : Filter}
    (added : session.addFilter event filter = .ok (id, later)) : session.Renews later := by
  rw [addFilter] at added
  split at added
  · cases added
  · next old found =>
      obtain ⟨ids, next, added⟩ := fresh_bind added
      obtain ⟨changed, put, added⟩ := bind_ok added
      cases added
      refine put_event_renews found (next ▸ numbered_condition (.filter filter) _) ?_ put
      simp only [event_ids, List.flatMap_append, List.flatMap_singleton, List.append_assoc,
        List.cons_append]
      exact (List.perm_append_comm.append_left _).cons _

theorem add_related_renews {session later : Session} {event id : Nat} {related : Related}
    (added : session.addRelated event related = .ok (id, later)) : session.Renews later := by
  rw [addRelated] at added
  split at added
  · cases added
  · next old found =>
      obtain ⟨ids, next, added⟩ := fresh_bind added
      obtain ⟨changed, put, added⟩ := bind_ok added
      cases added
      refine put_event_renews found (next ▸ numbered_joined related _) ?_ put
      simp only [event_ids, List.flatMap_append, List.flatMap_singleton, List.append_assoc,
        List.cons_append]
      exact .rfl

theorem update_renews {session later : Session} {id : Nat} {condition : Condition}
    (updated : session.update id condition = .ok later) : session.Renews later := by
  rw [update] at updated
  split at updated
  · cases updated
  · next old found =>
      obtain ⟨ids, next, updated⟩ := fresh_bind updated
      simp only at updated
      split at updated
      · next criteria replaced =>
          cases updated
          have place := criteria_replaced id ((condition.numberWithin session.ids.next).1.withId id)
            session.criteria
          rw [replaced, found] at place
          cases place with
          | @found _ others _ own before behind =>
              -- the id stays, and only the nodes in the condition are new
              refine ⟨id :: others, _, ?_, next ▸ numbered_within condition _, ?_⟩
              · refine (List.Sublist.subperm ?_).trans before.symm.subperm
                rw [← own]
                exact (List.sublist_append_right _ _).cons_cons _
              · refine behind.trans ?_
                simp only [Condition.ids, id_with_id, ids_within_with_id, List.cons_append]
                exact List.perm_append_comm.cons _
      · cases updated

theorem remove_renews {session later : Session} {id : Nat}
    (removed : session.remove id = .ok later) : session.Renews later := by
  rw [remove] at removed
  split at removed
  · next criteria found =>
      cases removed
      refine ⟨criteria.ids, [], (criteria_remove_sublist found).subperm, numbered_none _, ?_⟩
      rw [List.append_nil]
  · cases removed

theorem set_group_combinator_renews {session later : Session} {group : Nat}
    {combinator : Combinator} (changed : session.setGroupCombinator group combinator = .ok later) :
    session.Renews later := by
  rw [setGroupCombinator] at changed
  split at changed
  · next criteria found =>
      cases changed
      refine ⟨session.criteria.ids, [], List.Subperm.refl _, numbered_none _, ?_⟩
      refine criteria_change_ids (fun place => ?_) found
      rw [List.append_nil]
      obtain ⟨own, old, members⟩ := place
      exact .refl _
  · cases changed

/-- The ids of a tree are in front of the first fresh id behind the tree. -/
theorem ids_lt_behind {criteria : Criteria} {ids : IdSource}
    (behind : IdSource.behind? criteria = some ids) : ∀ id ∈ criteria.ids, id < ids.next := by
  intro id found
  rw [IdSource.behind?, IdSource.startingAt?] at behind
  split_ifs at behind
  have next : criteria.maxId + 1 = ids.next := congrArg IdSource.next (Option.some.inj behind)
  have := criteria_ids_le criteria id found
  omega

theorem apply_unique {session later : Session} {typed : String}
    (applied : session.apply typed = .ok later) : later.Unique := by
  -- The tree is a new one, so nothing has to be known of the session before.
  obtain ⟨after, numbered⟩ := recovered_numbered typed
  unfold apply at applied
  generalize Recovered.ofStatement typed = recovered at applied numbered
  cases behind : IdSource.behind? recovered.criteria with
  | none => simp only [behind, reduceCtorEq] at applied
  | some ids =>
      simp only [behind, Except.ok.injEq] at applied
      subst applied
      exact ⟨numbered.nodup, ids_lt_behind behind⟩

theorem edit_renews {session later : Session} {edit : Edit} (onTree : edit.OnTree)
    (done : session.edit edit = .ok later) : session.Renews later := by
  have second {action : Except EditError (Nat × Session)}
      (done : action.map (·.2) = .ok later) : ∃ id, action = .ok (id, later) := by
    cases action with
    | error error => cases done
    | ok pair => cases done; exact ⟨pair.1, rfl⟩
  cases edit with
  | addCondition condition =>
      obtain ⟨id, added⟩ := second done
      exact add_condition_renews added
  | addGroup combinator =>
      obtain ⟨id, added⟩ := second done
      exact add_group_renews added
  | addMember group member =>
      obtain ⟨id, added⟩ := second done
      exact add_member_renews added
  | addFilter event filter =>
      obtain ⟨id, added⟩ := second done
      exact add_filter_renews added
  | addRelated event related =>
      obtain ⟨id, added⟩ := second done
      exact add_related_renews added
  | update id condition => exact update_renews done
  | remove id => exact remove_renews done
  | setCombinator combinator =>
      cases done
      refine ⟨session.criteria.ids, [], List.Subperm.refl _, numbered_none _, ?_⟩
      rw [List.append_nil]
      exact .refl _
  | setGroupCombinator group combinator => exact set_group_combinator_renews done
  | apply typed => cases onTree

theorem edit_unique {session later : Session} (unique : session.Unique) (edit : Edit)
    (done : session.edit edit = .ok later) : later.Unique := by
  cases edit with
  | apply typed =>
      change session.apply typed = .ok later at done
      exact apply_unique done
  | _ =>
      refine unique.renew (edit_renews ?_ done)
      exact trivial

theorem after_unique {session : Session} (unique : session.Unique) (edit : Edit) :
    (session.after edit).Unique := by
  unfold after
  cases done : session.edit edit with
  | ok later => exact edit_unique unique edit done
  | error error => exact unique

theorem run_unique {session : Session} (unique : session.Unique) (edits : List Edit) :
    (session.run edits).Unique := by
  induction edits generalizing session with
  | nil => exact unique
  | cons edit rest ih => exact ih (after_unique unique edit)

/-- In a session on a tree without an id twice, no run of edits makes an id occur twice, and the
next fresh id is larger than all ids in use. -/
theorem ids_stay_unique {dataset : String} {criteria : Criteria} {source : EventSource}
    {session : Session} (distinct : criteria.ids.Nodup)
    (opened : open? dataset criteria source = some session) (edits : List Edit) :
    (session.run edits).criteria.ids.Nodup ∧
      ∀ id ∈ (session.run edits).criteria.ids, id < (session.run edits).ids.next := by
  obtain ⟨ids, behind, rfl⟩ := Option.map_eq_some_iff.mp opened
  have start : Unique ⟨dataset, criteria, ids, source, []⟩ := ⟨distinct, ids_lt_behind behind⟩
  have unique := run_unique start edits
  exact ⟨unique.distinct, unique.behind⟩

/-- Nodes that come with ids in use, an id that nothing has and a statement typed in. -/
theorem stale_ids_stay_unique :
    let city : Filter := ⟨7, "city", .equals, .string "Bern", none⟩
    let criteria : Criteria := { groups := [⟨3, .and, [.condition (.filter city)]⟩] }
    let edits : List Edit := [.addCondition (.filter city), .addMember 3 (.group ⟨3, .or, []⟩),
      .update 7 (.filter city), .remove 99, .apply "SELECT * FROM t WHERE t.a = 'x'",
      .addFilter 2 city, .setGroupCombinator 2 .or]
    criteria.ids.Nodup ∧ ∃ session, open? "customers" criteria {} = some session ∧
      (session.run edits).criteria.ids.Nodup ∧
        ∀ id ∈ (session.run edits).criteria.ids, id < (session.run edits).ids.next := by
  intro city criteria edits
  have distinct : criteria.ids.Nodup := by decide
  have opened : open? "customers" criteria {} = some ⟨"customers", criteria, ⟨8⟩, {}, []⟩ := rfl
  exact ⟨distinct, _, opened, ids_stay_unique distinct opened edits⟩

end Session

end Cohort
