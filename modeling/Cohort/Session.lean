import Cohort.Numbering
import Cohort.Recovery
import Cohort.Statement

/-!
Editing sessions. A session holds the tree of a segment. Nodes are added with fresh ids and are
found again by their ids; a statement that is typed in replaces the tree by what comes back of it.
An operation that fails leaves the session as it was.
-/

namespace Cohort

inductive EditError where
  | notFound (id : Nat)
  | groupNotFound (id : Nat)
  | eventNotFound (id : Nat)
  | idsExhausted
  deriving DecidableEq, Repr

def EditError.message : EditError → String
  | notFound id => "no condition or group with id " ++ Decimal.numberText id
  | groupNotFound id => "no group with id " ++ Decimal.numberText id
  | eventNotFound id => "no event condition with id " ++ Decimal.numberText id
  | idsExhausted => IdSource.exhaustedMessage

def changeFirst? {α : Type} (change : α → Option α) : List α → Option (List α)
  | [] => none
  | item :: rest =>
      match change item with
      | some changed => some (changed :: rest)
      | none => (changeFirst? change rest).map (item :: ·)

def removeFirst? {α : Type} (wanted : α → Bool) : List α → Option (List α)
  | [] => none
  | item :: rest =>
      if wanted item then some rest else (removeFirst? wanted rest).map (item :: ·)

mutual

def Group.change? (id : Nat) (change : Group → Group) : Group → Option Group
  | ⟨own, combinator, members⟩ =>
      if own = id then some (change ⟨own, combinator, members⟩)
      else (Member.changeGroup? id change members).map fun members => ⟨own, combinator, members⟩

def Member.changeGroup? (id : Nat) (change : Group → Group) : List Member → Option (List Member)
  | [] => none
  | .condition c :: rest => (Member.changeGroup? id change rest).map (.condition c :: ·)
  | .group g :: rest =>
      match g.change? id change with
      | some g => some (.group g :: rest)
      | none => (Member.changeGroup? id change rest).map (.group g :: ·)

end

mutual

def Group.condition? (id : Nat) : Group → Option Condition
  | ⟨_, _, members⟩ => Member.condition? id members

def Member.condition? (id : Nat) : List Member → Option Condition
  | [] => none
  | .condition c :: rest => if c.id = id then some c else Member.condition? id rest
  | .group g :: rest => (g.condition? id).or (Member.condition? id rest)

end

mutual

def Group.replace? (id : Nat) (new : Condition) : Group → Option Group
  | ⟨own, combinator, members⟩ =>
      (Member.replace? id new members).map fun members => ⟨own, combinator, members⟩

def Member.replace? (id : Nat) (new : Condition) : List Member → Option (List Member)
  | [] => none
  | .condition c :: rest =>
      if c.id = id then some (.condition new :: rest)
      else (Member.replace? id new rest).map (.condition c :: ·)
  | .group g :: rest =>
      match g.replace? id new with
      | some g => some (.group g :: rest)
      | none => (Member.replace? id new rest).map (.group g :: ·)

end

def Related.remove? (id : Nat) (related : Related) : Option Related :=
  (removeFirst? (fun filter => filter.id == id) related.filters).map fun filters =>
    { related with filters }

def Event.remove? (id : Nat) (event : Event) : Option Event :=
  match removeFirst? (fun condition => condition.id == id) event.filters with
  | some filters => some { event with filters }
  | none =>
      match removeFirst? (fun related => related.id == id) event.related with
      | some related => some { event with related }
      | none => (changeFirst? (Related.remove? id) event.related).map fun related =>
          { event with related }

def Condition.remove? (id : Nat) : Condition → Option Condition
  | .filter _ => none
  | .event e => (e.remove? id).map .event

mutual

def Group.remove? (id : Nat) : Group → Option Group
  | ⟨own, combinator, members⟩ =>
      let remaining := match removeFirst? (fun member => member.id == id) members with
        | some members => some members
        | none => Member.remove? id members
      remaining.map fun members => ⟨own, combinator, members⟩

def Member.remove? (id : Nat) : List Member → Option (List Member)
  | [] => none
  | .condition c :: rest =>
      match c.remove? id with
      | some c => some (.condition c :: rest)
      | none => (Member.remove? id rest).map (.condition c :: ·)
  | .group g :: rest =>
      match g.remove? id with
      | some g => some (.group g :: rest)
      | none => (Member.remove? id rest).map (.group g :: ·)

end

namespace Criteria

def changeGroup? (id : Nat) (change : Group → Group) (criteria : Criteria) : Option Criteria :=
  (changeFirst? (Group.change? id change) criteria.groups).map fun groups =>
    { criteria with groups }

/-- The first condition with the given id, on its own or in a group. Filters of events are not
among the conditions. -/
def condition? (id : Nat) (criteria : Criteria) : Option Condition :=
  (criteria.conditions.find? fun condition => condition.id == id).or
    (criteria.groups.findSome? (Group.condition? id))

def replace? (id : Nat) (new : Condition) (criteria : Criteria) : Option Criteria :=
  match changeFirst? (fun condition => if condition.id = id then some new else none)
      criteria.conditions with
  | some conditions => some { criteria with conditions }
  | none => (changeFirst? (Group.replace? id new) criteria.groups).map fun groups =>
      { criteria with groups }

/-- The tree without its first node of the given id: conditions and groups on their own come before
the nodes in conditions, and those before the nodes in groups. -/
def remove? (id : Nat) (criteria : Criteria) : Option Criteria :=
  match removeFirst? (fun condition => condition.id == id) criteria.conditions with
  | some conditions => some { criteria with conditions }
  | none =>
      match removeFirst? (fun group => group.id == id) criteria.groups with
      | some groups => some { criteria with groups }
      | none =>
          match changeFirst? (Condition.remove? id) criteria.conditions with
          | some conditions => some { criteria with conditions }
          | none => (changeFirst? (Group.remove? id) criteria.groups).map fun groups =>
              { criteria with groups }

end Criteria

/-! ### Sessions -/

structure Session where
  dataset : String
  criteria : Criteria
  ids : IdSource
  source : EventSource
  /-- What the last statement that was typed in lost. -/
  dropped : List Dropped

namespace Session

def open? (dataset : String) (criteria : Criteria) (source : EventSource) : Option Session :=
  (IdSource.behind? criteria).map fun ids => ⟨dataset, criteria, ids, source, []⟩

def statement (session : Session) : String :=
  session.criteria.statement session.source session.dataset

def hasChanges (session : Session) (typed : String) : Bool :=
  !sameStatement typed session.statement

def apply (session : Session) (typed : String) : Except EditError Session :=
  let recovered := Recovered.ofStatement typed
  match IdSource.behind? recovered.criteria with
  | none => .error .idsExhausted
  | some ids => .ok { session with
      dataset := recovered.dataset.getD session.dataset
      criteria := recovered.criteria
      ids
      dropped := recovered.dropped }

def setCombinator (session : Session) (combinator : Combinator) : Session :=
  { session with criteria := { session.criteria with combinator } }

def setGroupCombinator (session : Session) (id : Nat) (combinator : Combinator) :
    Except EditError Session :=
  match session.criteria.changeGroup? id fun group => { group with combinator } with
  | some criteria => .ok { session with criteria }
  | none => .error (.groupNotFound id)

def fresh {α : Type} (session : Session) (number : Nat → α × Nat) :
    Except EditError (α × IdSource) :=
  match session.ids.assign? number with
  | some result => .ok result
  | none => .error .idsExhausted

def addCondition (session : Session) (condition : Condition) : Except EditError (Nat × Session) := do
  let (condition, ids) ← session.fresh condition.number
  let criteria := session.criteria
  .ok (condition.id,
    { session with
      ids, criteria := { criteria with conditions := criteria.conditions ++ [condition] } })

def addGroup (session : Session) (combinator : Combinator) : Except EditError (Nat × Session) := do
  let (id, ids) ← session.fresh fun next => (next, next + 1)
  let criteria := session.criteria
  .ok (id,
    { session with
      ids, criteria := { criteria with groups := criteria.groups ++ [⟨id, combinator, []⟩] } })

def addMember (session : Session) (id : Nat) (member : Member) :
    Except EditError (Nat × Session) :=
  match session.criteria.changeGroup? id (fun group => group) with
  | none => .error (.groupNotFound id)
  | some _ => do
      let (member, ids) ← session.fresh member.number
      let add (group : Group) := { group with members := group.members ++ [member] }
      match session.criteria.changeGroup? id add with
      | some criteria => .ok (member.id, { session with criteria, ids })
      | none => .error (.groupNotFound id)

def event? (session : Session) (id : Nat) : Option Event :=
  match session.criteria.condition? id with
  | some (.event event) => some event
  | _ => none

def putEvent (session : Session) (id : Nat) (event : Event) (ids : IdSource) :
    Except EditError Session :=
  match session.criteria.replace? id (.event event) with
  | some criteria => .ok { session with criteria, ids }
  | none => .error (.eventNotFound id)

def addFilter (session : Session) (id : Nat) (filter : Filter) :
    Except EditError (Nat × Session) :=
  match session.event? id with
  | none => .error (.eventNotFound id)
  | some event => do
      let (condition, ids) ← session.fresh (Condition.filter filter).number
      let session ← session.putEvent id { event with filters := event.filters ++ [condition] } ids
      .ok (condition.id, session)

def addRelated (session : Session) (id : Nat) (related : Related) :
    Except EditError (Nat × Session) :=
  match session.event? id with
  | none => .error (.eventNotFound id)
  | some event => do
      let (related, ids) ← session.fresh related.number
      let session ← session.putEvent id { event with related := event.related ++ [related] } ids
      .ok (related.id, session)

/-- The condition replaced; the new one takes over the id, and nodes in it get fresh ids. -/
def update (session : Session) (id : Nat) (condition : Condition) : Except EditError Session :=
  match session.criteria.condition? id with
  | none => .error (.notFound id)
  | some _ => do
      let (condition, ids) ← session.fresh condition.numberWithin
      match session.criteria.replace? id (condition.withId id) with
      | some criteria => .ok { session with criteria, ids }
      | none => .error (.notFound id)

def remove (session : Session) (id : Nat) : Except EditError Session :=
  match session.criteria.remove? id with
  | some criteria => .ok { session with criteria }
  | none => .error (.notFound id)

end Session

end Cohort
