import Cohort.Proofs.Session.Effects

/-!
Edits step by step. A session is changed in place: a place is looked up, ids are drawn for what is
new, and the tree is changed there. A step that fails takes nothing back that the steps before it
did. Carried out in this order, an edit that fails has still left everything as it was, and one that
does not comes to the same as the edit done at once.
-/

namespace Cohort

variable {α β : Type}

/-- Steps on a session, with an answer or an error, and a session behind them in both cases. -/
abbrev Steps (α : Type) := ExceptT EditError (StateM Session) α

namespace Steps

def on (steps : Steps α) (session : Session) : Except EditError α × Session :=
  (steps.run.run session).run

def look (find : Session → Option α) (error : EditError) : Steps α := do
  match find (← get) with
  | some found => return found
  | none => throw error

/-- What `number` makes with ids of the session. They are gone from then on, and if they do not
suffice, all of them. -/
def draw (number : Nat → α × Nat) : Steps α := do
  let session ← get
  match session.ids.assign? number with
  | some (value, ids) =>
      set { session with ids }
      return value
  | none =>
      set { session with ids := ⟨Decimal.maxU64⟩ }
      throw .idsExhausted

def put (change : Criteria → Option Criteria) (error : EditError) : Steps Unit := do
  let criteria ← look (fun session => change session.criteria) error
  modify fun session => { session with criteria }

theorem on_bind (first : Steps α) (next : α → Steps β) (session : Session) :
    (first >>= next).on session = match first.on session with
      | (.ok value, later) => (next value).on later
      | (.error error, later) => (.error error, later) := by
  simp only [on, ExceptT.run_bind, StateT.run_bind, Id.run_bind]
  generalize (StateT.run (ExceptT.run first) session).run = outcome
  obtain ⟨error | value, later⟩ := outcome <;> rfl

theorem on_look (find : Session → Option α) (error : EditError) (session : Session) :
    (look find error).on session = match find session with
      | some found => (.ok found, session)
      | none => (.error error, session) := by
  rw [look, on_bind]
  change on (match find session with | some found => pure found | none => throw error) session = _
  cases find session <;> rfl

theorem on_draw (number : Nat → α × Nat) (session : Session) :
    (draw number).on session = match session.ids.assign? number with
      | some (value, ids) => (.ok value, { session with ids })
      | none => (.error .idsExhausted, { session with ids := ⟨Decimal.maxU64⟩ }) := by
  rw [draw, on_bind]
  change on (match session.ids.assign? number with
    | some (value, ids) => (do set { session with ids }; return value)
    | none => (do
        set { session with ids := (⟨Decimal.maxU64⟩ : IdSource) }
        throw EditError.idsExhausted)) session = _
  cases session.ids.assign? number <;> rfl

theorem on_put (change : Criteria → Option Criteria) (error : EditError) (session : Session) :
    (put change error).on session = match change session.criteria with
      | some criteria => (.ok (), { session with criteria })
      | none => (.error error, session) := by
  rw [put, on_bind, on_look]
  cases change session.criteria <;> rfl

theorem on_modify (change : Session → Session) (session : Session) :
    (modify change : Steps Unit).on session = (.ok (), change session) := rfl

end Steps

open Steps in
def Edit.steps : Edit → Steps (Option Nat)
  | .addCondition condition => do
      let condition ← draw condition.number
      modify fun session =>
        let criteria := session.criteria
        { session with
          criteria := { criteria with conditions := criteria.conditions ++ [condition] } }
      return condition.id
  | .addGroup combinator => do
      let id ← draw fun next => (next, next + 1)
      modify fun session =>
        let criteria := session.criteria
        { session with
          criteria := { criteria with groups := criteria.groups ++ [⟨id, combinator, []⟩] } }
      return id
  | .addMember id member => do
      let _ ← look (fun session => session.criteria.changeGroup? id fun group => group)
        (.groupNotFound id)
      let member ← draw member.number
      let add (group : Group) := { group with members := group.members ++ [member] }
      put (Criteria.changeGroup? id add) (.groupNotFound id)
      return member.id
  | .addFilter id filter => do
      let event ← look (fun session => session.event? id) (.eventNotFound id)
      let condition ← draw (Condition.filter filter).number
      put (Criteria.replace? id (.event { event with filters := event.filters ++ [condition] }))
        (.eventNotFound id)
      return condition.id
  | .addRelated id related => do
      let event ← look (fun session => session.event? id) (.eventNotFound id)
      let related ← draw related.number
      put (Criteria.replace? id (.event { event with related := event.related ++ [related] }))
        (.eventNotFound id)
      return related.id
  | .update id condition => do
      let _ ← look (fun session => session.criteria.condition? id) (.notFound id)
      let condition ← draw condition.numberWithin
      put (Criteria.replace? id (condition.withId id)) (.notFound id)
      return none
  | .remove id => do
      put (Criteria.remove? id) (.notFound id)
      return none
  | .setCombinator combinator => do
      modify fun session => session.setCombinator combinator
      return none
  | .setGroupCombinator id combinator => do
      put (Criteria.changeGroup? id fun group => { group with combinator }) (.groupNotFound id)
      return none
  | .apply typed => do
      let recovered := Recovered.ofStatement typed
      modify fun session =>
        { session with
          dataset := recovered.dataset.getD session.dataset
          criteria := recovered.criteria
          dropped := recovered.dropped }
      let ids ← look (fun session => IdSource.behind? session.criteria) .idsExhausted
      modify fun session => { session with ids }
      return none

namespace Session

def perform (session : Session) (edit : Edit) : Except EditError (Option Nat) × Session :=
  edit.steps.on session

/-- Steps come to the same as what is done at once: they end with the same answer in the same
session, or with the same error in the session as it was. Only where the ids run out the session
behind the steps may be another. -/
inductive Agrees (session : Session) :
    Except EditError (α × Session) → Except EditError α × Session → Prop where
  | done (answer : α) (later : Session) : Agrees session (.ok (answer, later)) (.ok answer, later)
  | failed (error : EditError) (later : Session) (kept : error ≠ .idsExhausted → later = session) :
      Agrees session (.error error) (.error error, later)

/-- Ids are drawn last of all that can fail: what comes behind them succeeds. -/
theorem draw_agrees {γ : Type} {session : Session} {number : Nat → α × Nat}
    {finish : α × IdSource → Except EditError γ} {wrap : γ → β × Session} {next : α → Steps β}
    (behind : ∀ value ids, ∃ result, finish (value, ids) = .ok result ∧
      (next value).on { session with ids } = (.ok (wrap result).1, (wrap result).2)) :
    session.Agrees ((session.fresh number >>= finish).map wrap)
      ((Steps.draw number >>= next).on session) := by
  rw [Steps.on_bind, Steps.on_draw, fresh]
  cases drawn : session.ids.assign? number with
  | none => exact .failed _ _ fun other => absurd rfl other
  | some pair =>
      obtain ⟨value, ids⟩ := pair
      obtain ⟨result, finished, same⟩ := behind value ids
      change session.Agrees ((finish (value, ids)).map wrap) ((next value).on { session with ids })
      rw [finished, same]
      exact .done _ _

/-- A tree that can be changed can be changed also when ids were drawn. -/
theorem on_put_return {session : Session} {change : Criteria → Option Criteria} {error : EditError}
    {criteria : Criteria} (found : change session.criteria = some criteria) (ids : IdSource)
    (answer : α) :
    (do Steps.put change error; return answer : Steps α).on { session with ids } =
      (.ok answer, { session with criteria, ids }) := by
  rw [Steps.on_bind, Steps.on_put, found]
  rfl

theorem add_member_agrees (session : Session) (id : Nat) (member : Member) :
    session.Agrees (session.respond (.addMember id member))
      (session.perform (.addMember id member)) := by
  simp only [respond, addMember, perform, Edit.steps]
  rw [Steps.on_bind, Steps.on_look]
  cases found : session.criteria.changeGroup? id fun group => group with
  | none => exact .failed _ _ fun _ => rfl
  | some same =>
      refine draw_agrees fun member ids => ?_
      have place := (change_group_is_some id (fun group => group)
        (fun group => { group with members := group.members ++ [member] }) session.criteria).mp
          (by simp [found])
      obtain ⟨criteria, changed⟩ := Option.isSome_iff_exists.mp place
      refine ⟨(member.id, { session with criteria, ids }), by simp [changed], ?_⟩
      exact on_put_return changed ids _

theorem replace_is_some {id : Nat} {criteria : Criteria} {old : Condition}
    (found : criteria.condition? id = some old) (new : Condition) :
    ∃ later, criteria.replace? id new = some later := by
  have place := criteria_exchanged id new criteria
  rw [found] at place
  generalize criteria.replace? id new = later at place
  cases place with
  | found changed => exact ⟨_, rfl⟩

theorem event_condition {session : Session} {id : Nat} {event : Event}
    (found : session.event? id = some event) :
    session.criteria.condition? id = some (.event event) := by
  rw [event?] at found
  split at found
  · next same =>
      cases found
      exact same
  · cases found

/-- An event that was found is exchanged for one that has something more. -/
theorem event_agrees {session : Session} {id : Nat} {event : Event}
    (found : session.event? id = some event) (number : Nat → α × Nat) (more : α → Event)
    (own : α → Nat) :
    session.Agrees
      ((session.fresh number >>= fun (value, ids) =>
        (session.putEvent id (more value) ids).map fun later => (own value, later)).map
          fun (id, later) => ((some id : Option Nat), later))
      ((Steps.draw number >>= fun value => do
        Steps.put (Criteria.replace? id (.event (more value))) (.eventNotFound id)
        return some (own value)).on session) := by
  refine draw_agrees fun value ids => ?_
  obtain ⟨criteria, replaced⟩ := replace_is_some (event_condition found) (.event (more value))
  refine ⟨(own value, { session with criteria, ids }), ?_, on_put_return replaced ids _⟩
  simp only [putEvent, replaced]
  rfl

theorem add_filter_agrees (session : Session) (id : Nat) (filter : Filter) :
    session.Agrees (session.respond (.addFilter id filter))
      (session.perform (.addFilter id filter)) := by
  simp only [respond, addFilter, perform, Edit.steps]
  rw [Steps.on_bind, Steps.on_look]
  cases found : session.event? id with
  | none => exact .failed _ _ fun _ => rfl
  | some event =>
      exact event_agrees found (Condition.filter filter).number
        (fun condition => { event with filters := event.filters ++ [condition] }) Condition.id

theorem add_related_agrees (session : Session) (id : Nat) (related : Related) :
    session.Agrees (session.respond (.addRelated id related))
      (session.perform (.addRelated id related)) := by
  simp only [respond, addRelated, perform, Edit.steps]
  rw [Steps.on_bind, Steps.on_look]
  cases found : session.event? id with
  | none => exact .failed _ _ fun _ => rfl
  | some event =>
      exact event_agrees found related.number
        (fun related => { event with related := event.related ++ [related] }) Related.id

theorem update_agrees (session : Session) (id : Nat) (condition : Condition) :
    session.Agrees (session.respond (.update id condition))
      (session.perform (.update id condition)) := by
  simp only [respond, update, perform, Edit.steps]
  rw [Steps.on_bind, Steps.on_look]
  cases found : session.criteria.condition? id with
  | none => exact .failed _ _ fun _ => rfl
  | some old =>
      refine draw_agrees fun condition ids => ?_
      obtain ⟨criteria, replaced⟩ := replace_is_some found (condition.withId id)
      refine ⟨{ session with criteria, ids }, by simp [replaced], on_put_return replaced ids _⟩

theorem apply_agrees (session : Session) (typed : String) :
    session.Agrees (session.respond (.apply typed)) (session.perform (.apply typed)) := by
  rw [perform, Edit.steps, respond]
  unfold apply
  generalize Recovered.ofStatement typed = recovered
  rw [Steps.on_bind, Steps.on_modify]
  dsimp only
  rw [Steps.on_bind, Steps.on_look]
  cases IdSource.behind? recovered.criteria with
  | none => exact .failed _ _ fun other => absurd rfl other
  | some ids => exact .done _ _

/-- Edits step by step and at once come to the same. -/
theorem perform_agrees (session : Session) (edit : Edit) :
    session.Agrees (session.respond edit) (session.perform edit) := by
  cases edit with
  | addCondition condition => exact draw_agrees fun condition ids => ⟨_, rfl, rfl⟩
  | addGroup combinator => exact draw_agrees fun id ids => ⟨_, rfl, rfl⟩
  | addMember id member => exact add_member_agrees session id member
  | addFilter id filter => exact add_filter_agrees session id filter
  | addRelated id related => exact add_related_agrees session id related
  | update id condition => exact update_agrees session id condition
  | remove id =>
      simp only [respond, remove, perform, Edit.steps]
      rw [Steps.on_bind, Steps.on_put]
      cases session.criteria.remove? id with
      | none => exact .failed _ _ fun _ => rfl
      | some criteria => exact .done _ _
  | setCombinator combinator => exact .done _ _
  | setGroupCombinator id combinator =>
      simp only [respond, setGroupCombinator, perform, Edit.steps]
      rw [Steps.on_bind, Steps.on_put]
      cases session.criteria.changeGroup? id fun group => { group with combinator } with
      | none => exact .failed _ _ fun _ => rfl
      | some criteria => exact .done _ _
  | apply typed => exact apply_agrees session typed

/-- An edit of the tree, step by step or at once, that fails leaves the session as it was, ids
included. One that does not fail changes the tree at the place that it names and nowhere else, and of
the rest of the session only the ids that are left. -/
theorem edits_atomic_and_local {session later : Session} {edit : Edit}
    {result : Except EditError (Option Nat)} (onTree : edit.OnTree)
    (done : session.perform edit = (result, later)) :
    session.respond edit = result.map (fun answer => (answer, later)) ∧
      (∀ error, result = .error error → error ≠ .idsExhausted → later = session) ∧
      ∀ answer, result = .ok answer → session.Keeps later ∧ session.Effect later answer edit := by
  have agrees := perform_agrees session edit
  rw [done] at agrees
  generalize atOnce : session.respond edit = response at agrees
  cases agrees with
  | done answer later =>
      refine ⟨rfl, ?_, ?_⟩
      · intro error failed
        cases failed
      · intro answer same
        cases same
        exact respond_effect onTree atOnce
  | failed error later kept =>
      refine ⟨rfl, ?_, ?_⟩
      · intro error failed
        cases failed
        exact kept
      · intro answer same
        cases same

/-- A group is put into a group in a group, and a condition is no group to put anything into. -/
theorem nested_addition_local :
    let city : Filter := ⟨0, "city", .equals, .string "Bern", none⟩
    let inner : Group := ⟨3, .or, [.condition (.filter { city with id := 4 })]⟩
    let session : Session := ⟨"customers",
      ⟨[.filter { city with id := 1 }], [⟨2, .and, [.group inner]⟩], .and⟩, ⟨5⟩, {}, []⟩
    let member : Member := .group ⟨0, .and, [.condition (.filter city)]⟩
    (Edit.addMember 3 member).OnTree ∧
      (∃ later, session.perform (.addMember 3 member) = (.ok (some 6), later) ∧
        session.respond (.addMember 3 member) = .ok (some 6, later) ∧
        session.Keeps later ∧ session.Effect later (some 6) (.addMember 3 member)) ∧
      ∃ later, session.perform (.addMember 4 member) = (.error (.groupNotFound 4), later) ∧
        later = session := by
  intro city inner session member
  have onTree (group : Nat) : (Edit.addMember group member).OnTree := trivial
  have added : session.perform (.addMember 3 member) = (.ok (some 6), _) := rfl
  have refused : session.perform (.addMember 4 member) = (.error (.groupNotFound 4), session) := rfl
  have kept := edits_atomic_and_local (onTree 3) added
  have left := edits_atomic_and_local (onTree 4) refused
  exact ⟨onTree 3, ⟨_, added, kept.1, kept.2.2 (some 6) rfl⟩, _, refused,
    left.2.1 (.groupNotFound 4) rfl (by decide)⟩

end Session

end Cohort
