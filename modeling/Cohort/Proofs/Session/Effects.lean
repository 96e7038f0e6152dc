import Cohort.Proofs.Session.Places

/-!
What an edit does. Whatever is added or put in place of something is the argument with fresh ids,
and it is put at the place that the edit names; around that place nothing changes.
-/

namespace Cohort

theorem filters_numbered_alike (filters : List Filter) (next : Nat) :
    (numberFilters filters next).1.map Filter.withoutId = filters.map Filter.withoutId := by
  induction filters generalizing next with
  | nil => rfl
  | cons filter rest ih => exact congrArg (filter.withoutId :: ·) (ih (next + 1))

theorem related_numbered_alike (related : Related) (next : Nat) :
    (related.number next).1.withoutIds = related.withoutIds := by
  simp only [Related.number, Related.withoutIds, filters_numbered_alike]

theorem joins_numbered_alike (related : List Related) (next : Nat) :
    (Related.numberAll related next).1.map Related.withoutIds =
      related.map Related.withoutIds := by
  induction related generalizing next with
  | nil => rfl
  | cons first rest ih =>
      simp only [Related.numberAll, List.map_cons, related_numbered_alike, ih]

@[simp] theorem with_id_without_ids (condition : Condition) (id : Nat) :
    (condition.withId id).withoutIds = condition.withoutIds := by
  cases condition with
  | filter f => rfl
  | event e =>
      obtain ⟨⟩ := e
      rfl

theorem conditions_numbered_alike {conditions : List Condition}
    (each : ∀ c ∈ conditions, ∀ next, (c.numberWithin next).1.withoutIds = c.withoutIds)
    (next : Nat) :
    Condition.withoutIdsOf (Condition.numberAll conditions next).1 =
      Condition.withoutIdsOf conditions := by
  induction conditions generalizing next with
  | nil => rfl
  | cons condition rest ih =>
      have first := each condition List.mem_cons_self next
      have behind := ih fun c found => each c (List.mem_cons_of_mem _ found)
      simp only [Condition.numberAll, Condition.withoutIdsOf, with_id_without_ids, first, behind]

theorem within_numbered_alike (condition : Condition) (next : Nat) :
    (condition.numberWithin next).1.withoutIds = condition.withoutIds := by
  induction condition using Condition.induction generalizing next with
  | filter f => rfl
  | event e ih =>
      have filters := conditions_numbered_alike ih next
      obtain ⟨⟩ := e
      simp only [Condition.numberWithin, Event.numberWithin, Condition.withoutIds, Event.withoutIds,
        filters, joins_numbered_alike]

theorem condition_numbered_alike (condition : Condition) (next : Nat) :
    (condition.number next).1.withoutIds = condition.withoutIds := by
  simp only [Condition.number, with_id_without_ids, within_numbered_alike]

theorem member_numbered_alike (member : Member) (next : Nat) :
    (member.number next).1.withoutIds = member.withoutIds := by
  induction member using Member.induction generalizing next with
  | condition c => exact congrArg Member.condition (condition_numbered_alike c next)
  | group id combinator members ih =>
      have all : ∀ next, Member.withoutIdsOf (Member.numberAll members next).1 =
          Member.withoutIdsOf members := by
        induction members with
        | nil => exact fun _ => rfl
        | cons first rest others =>
            intro next
            have behind := others fun m found => ih m (List.mem_cons_of_mem _ found)
            simp only [Member.numberAll, Member.withoutIdsOf, ih first List.mem_cons_self, behind]
      simp only [Member.number, Group.number, Member.withoutIds, Group.withoutIds, all]

namespace Session

def respond (session : Session) : Edit → Except EditError (Option Nat × Session)
  | .addCondition condition => (session.addCondition condition).map fun (id, later) => (id, later)
  | .addGroup combinator => (session.addGroup combinator).map fun (id, later) => (id, later)
  | .addMember group member => (session.addMember group member).map fun (id, later) => (id, later)
  | .addFilter event filter => (session.addFilter event filter).map fun (id, later) => (id, later)
  | .addRelated event related =>
      (session.addRelated event related).map fun (id, later) => (id, later)
  | .update id condition => (session.update id condition).map fun later => (none, later)
  | .remove id => (session.remove id).map fun later => (none, later)
  | .setCombinator combinator => .ok (none, session.setCombinator combinator)
  | .setGroupCombinator group combinator =>
      (session.setGroupCombinator group combinator).map fun later => (none, later)
  | .apply typed => (session.apply typed).map fun later => (none, later)

structure Keeps (session later : Session) : Prop where
  dataset : later.dataset = session.dataset
  source : later.source = session.source
  dropped : later.dropped = session.dropped

/-- What an edit of the tree with the given answer does to the tree and to the ids that are left.
Everything new is like the argument up to ids, and these are the ids that are handed out, each of
them once. -/
def Effect (session later : Session) (answer : Option Nat) : Edit → Prop
  | .addCondition condition => ∃ new : Condition, answer = new.id ∧
      new.withoutIds = condition.withoutIds ∧
      Numbered session.ids.next new.ids later.ids.next ∧
      later.criteria =
        { session.criteria with conditions := session.criteria.conditions ++ [new] }
  | .addGroup combinator => ∃ id, answer = some id ∧
      Numbered session.ids.next [id] later.ids.next ∧
      later.criteria =
        { session.criteria with groups := session.criteria.groups ++ [⟨id, combinator, []⟩] }
  | .addMember id member => ∃ (group : Group) (new : Member), answer = new.id ∧
      new.withoutIds = member.withoutIds ∧
      Numbered session.ids.next new.ids later.ids.next ∧
      session.criteria.Changed
        (Group.Becomes id group { group with members := group.members ++ [new] }) later.criteria
  | .addFilter id filter => ∃ (event : Event) (new : Filter), answer = new.id ∧
      new.withoutId = filter.withoutId ∧
      Numbered session.ids.next [new.id] later.ids.next ∧
      session.criteria.Changed (Condition.Becomes id (.event event)
        (.event { event with filters := event.filters ++ [.filter new] })) later.criteria
  | .addRelated id related => ∃ (event : Event) (new : Related), answer = new.id ∧
      new.withoutIds = related.withoutIds ∧
      Numbered session.ids.next new.ids later.ids.next ∧
      session.criteria.Changed (Condition.Becomes id (.event event)
        (.event { event with related := event.related ++ [new] })) later.criteria
  | .update id condition => ∃ old new : Condition, answer = none ∧ new.id = id ∧
      new.withoutIds = condition.withoutIds ∧
      Numbered session.ids.next new.idsWithin later.ids.next ∧
      session.criteria.Changed (Condition.Becomes id old new) later.criteria
  | .remove id => answer = none ∧ later.ids = session.ids ∧
      session.criteria.Removed id later.criteria
  | .setCombinator combinator => answer = none ∧ later.ids = session.ids ∧
      later.criteria = { session.criteria with combinator }
  | .setGroupCombinator id combinator => ∃ group : Group, answer = none ∧
      later.ids = session.ids ∧
      session.criteria.Changed (Group.Becomes id group { group with combinator }) later.criteria
  | .apply _ => False

theorem add_condition_effect {session later : Session} {condition : Condition} {id : Nat}
    (added : session.addCondition condition = .ok (id, later)) :
    session.Keeps later ∧ session.Effect later id (.addCondition condition) := by
  obtain ⟨ids, next, added⟩ := fresh_bind added
  cases added
  exact ⟨⟨rfl, rfl, rfl⟩, _, rfl, condition_numbered_alike condition _,
    next ▸ numbered_condition condition _, rfl⟩

theorem add_group_effect {session later : Session} {combinator : Combinator} {id : Nat}
    (added : session.addGroup combinator = .ok (id, later)) :
    session.Keeps later ∧ session.Effect later id (.addGroup combinator) := by
  obtain ⟨ids, next, added⟩ := fresh_bind added
  cases added
  exact ⟨⟨rfl, rfl, rfl⟩, _, rfl, next ▸ numbered_single _, rfl⟩

theorem add_member_effect {session later : Session} {group id : Nat} {member : Member}
    (added : session.addMember group member = .ok (id, later)) :
    session.Keeps later ∧ session.Effect later id (.addMember group member) := by
  rw [addMember] at added
  split at added
  · cases added
  · obtain ⟨ids, next, added⟩ := fresh_bind added
    simp only at added
    split at added
    · next criteria found =>
        cases added
        obtain ⟨place, changed⟩ := change_group_changed found
        exact ⟨⟨rfl, rfl, rfl⟩, place, _, rfl, member_numbered_alike member _,
          next ▸ numbered_member member _, changed⟩
    · cases added

/-- What is put is put in the place of the event that was found. -/
theorem put_event_changed {session later : Session} {id : Nat} {event changed : Event}
    {ids : IdSource} (found : session.event? id = some event)
    (put : session.putEvent id changed ids = .ok later) :
    session.Keeps later ∧ later.ids = ids ∧
      session.criteria.Changed (Condition.Becomes id (.event event) (.event changed))
        later.criteria := by
  have place := criteria_exchanged id (.event changed) session.criteria
  rw [putEvent] at put
  rw [event?] at found
  split at put
  · next criteria replaced =>
      cases put
      split at found
      · next same =>
          cases found
          rw [same, replaced] at place
          cases place with
          | found changed => exact ⟨⟨rfl, rfl, rfl⟩, rfl, changed⟩
      · cases found
  · cases put

theorem add_filter_effect {session later : Session} {event id : Nat} {filter : Filter}
    (added : session.addFilter event filter = .ok (id, later)) :
    session.Keeps later ∧ session.Effect later id (.addFilter event filter) := by
  rw [addFilter] at added
  split at added
  · cases added
  · next old found =>
      obtain ⟨ids, next, added⟩ := fresh_bind added
      obtain ⟨changed, put, added⟩ := bind_ok added
      cases added
      obtain ⟨keeps, rfl, changed⟩ := put_event_changed found put
      exact ⟨keeps, old, _, rfl, rfl, next ▸ numbered_condition (.filter filter) _, changed⟩

theorem add_related_effect {session later : Session} {event id : Nat} {related : Related}
    (added : session.addRelated event related = .ok (id, later)) :
    session.Keeps later ∧ session.Effect later id (.addRelated event related) := by
  rw [addRelated] at added
  split at added
  · cases added
  · next old found =>
      obtain ⟨ids, next, added⟩ := fresh_bind added
      obtain ⟨changed, put, added⟩ := bind_ok added
      cases added
      obtain ⟨keeps, rfl, changed⟩ := put_event_changed found put
      exact ⟨keeps, old, _, rfl, related_numbered_alike related _,
        next ▸ numbered_joined related _, changed⟩

theorem update_effect {session later : Session} {id : Nat} {condition : Condition}
    (updated : session.update id condition = .ok later) :
    session.Keeps later ∧ session.Effect later none (.update id condition) := by
  rw [update] at updated
  split at updated
  · cases updated
  · next old found =>
      obtain ⟨ids, next, updated⟩ := fresh_bind updated
      simp only at updated
      split at updated
      · next criteria replaced =>
          cases updated
          have place := criteria_exchanged id
            ((condition.numberWithin session.ids.next).1.withId id) session.criteria
          rw [found, replaced] at place
          cases place with
          | found changed =>
              refine ⟨⟨rfl, rfl, rfl⟩, old, _, rfl, id_with_id _ id, ?_, ?_, changed⟩
              · rw [with_id_without_ids, within_numbered_alike]
              · rw [ids_within_with_id, next]
                exact numbered_within condition _
      · cases updated

theorem remove_effect {session later : Session} {id : Nat}
    (removed : session.remove id = .ok later) :
    session.Keeps later ∧ session.Effect later none (.remove id) := by
  rw [remove] at removed
  split at removed
  · next criteria found =>
      cases removed
      exact ⟨⟨rfl, rfl, rfl⟩, rfl, rfl, criteria_removed found⟩
  · cases removed

theorem set_group_combinator_effect {session later : Session} {id : Nat} {combinator : Combinator}
    (changed : session.setGroupCombinator id combinator = .ok later) :
    session.Keeps later ∧ session.Effect later none (.setGroupCombinator id combinator) := by
  rw [setGroupCombinator] at changed
  split at changed
  · next criteria found =>
      cases changed
      obtain ⟨group, changed⟩ := change_group_changed found
      exact ⟨⟨rfl, rfl, rfl⟩, group, rfl, rfl, changed⟩
  · cases changed

/-- An edit of the tree does what its effect says, and touches nothing else of the session. -/
theorem respond_effect {session later : Session} {edit : Edit} {answer : Option Nat}
    (onTree : edit.OnTree) (done : session.respond edit = .ok (answer, later)) :
    session.Keeps later ∧ session.Effect later answer edit := by
  cases edit with
  | addCondition condition =>
      obtain ⟨⟨id, after⟩, made, same⟩ := map_ok done
      cases same
      exact add_condition_effect made
  | addGroup combinator =>
      obtain ⟨⟨id, after⟩, made, same⟩ := map_ok done
      cases same
      exact add_group_effect made
  | addMember group member =>
      obtain ⟨⟨id, after⟩, made, same⟩ := map_ok done
      cases same
      exact add_member_effect made
  | addFilter event filter =>
      obtain ⟨⟨id, after⟩, made, same⟩ := map_ok done
      cases same
      exact add_filter_effect made
  | addRelated event related =>
      obtain ⟨⟨id, after⟩, made, same⟩ := map_ok done
      cases same
      exact add_related_effect made
  | update id condition =>
      obtain ⟨after, made, same⟩ := map_ok done
      cases same
      exact update_effect made
  | remove id =>
      obtain ⟨after, made, same⟩ := map_ok done
      cases same
      exact remove_effect made
  | setCombinator combinator =>
      cases done
      exact ⟨⟨rfl, rfl, rfl⟩, rfl, rfl, rfl⟩
  | setGroupCombinator id combinator =>
      obtain ⟨after, made, same⟩ := map_ok done
      cases same
      exact set_group_combinator_effect made
  | apply typed => cases onTree

end Session

end Cohort
