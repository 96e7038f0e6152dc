import Cohort.Payload.Decode
import Cohort.Proofs.Json.Found

/-!
What becomes of the conditions of a payload. An object in a group that names the kind of a condition
is read as a condition of that kind, or the payload is refused, unless the object passes for a group:
groups do not name a kind, and whatever is no condition is tried as a group.
-/

namespace Cohort

open Json

namespace Json.Document

def groups (payload : Document) : List Document :=
  match payload.slot? 1 "conditionGroups" with
  | some list => list.items
  | none => []

def members (group : Document) : List Document :=
  match group.slot? 2 "conditions" with
  | some list => list.items
  | none => []

def ReadsAsCondition (member : Document) : Prop :=
  ∃ condition, Condition.decode (.buffered true) member = .ok condition

/-- The object stands at the path in a member of a group. What reads as a condition is no group, and
nothing stands in it. -/
inductive StandsWithin (object : Document) : Document → List Nat → Prop
  | here : StandsWithin object object []
  | inside {document member : Document} {index : Nat} {path : List Nat}
      (group : ¬document.ReadsAsCondition) (found : document.members[index]? = some member)
      (inner : StandsWithin object member path) : StandsWithin object document (index :: path)

inductive StandsIn (object payload : Document) : Nat → List Nat → Prop
  | group {index : Nat} (found : payload.groups[index]? = some object) :
      StandsIn object payload index []
  | member {index place : Nat} {path : List Nat} {group member : Document}
      (found : payload.groups[index]? = some group) (inside : group.members[place]? = some member)
      (stands : StandsWithin object member path) : StandsIn object payload index (place :: path)

def IsTagged (kind : Kind) (object : Document) : Prop :=
  object.member? "type" = some (.string kind.name)

structure HasGroupShape (object : Document) : Prop where
  id : ∃ document id, object.slot? 0 "id" = some document ∧ decodeU64 .value document = .ok id
  operator : ∀ document, object.slot? 1 "operator" = some document →
    ∃ origin combinator, Combinator.decode origin document = .ok combinator
  conditions : ∀ document, object.slot? 2 "conditions" = some document →
    ∃ items ending, document = .array items ending

end Json.Document

def Member.at? : List Nat → Member → Option Member
  | [], member => some member
  | _ :: _, .condition _ => none
  | index :: path, .group g => g.members[index]?.bind (Member.at? path)

def Criteria.at? (index : Nat) (path : List Nat) (criteria : Criteria) : Option Member :=
  criteria.groups[index]?.bind fun group => Member.at? path (.group group)

def Condition.kind : Condition → Kind
  | .filter _ => .filter
  | .event _ => .event

theorem items_of_list {decode : Decoder α} {origin : Origin} {document : Document} {values : List α}
    (done : decodeList decode origin document = .ok values) :
    (∃ items ending, document = .array items ending) ∧
      List.Forall₂ (fun item value => ∃ origin, decode origin item = .ok value) document.items
        values := by
  obtain ⟨inner, items, ending, -, rfl, each⟩ := list_found done
  exact ⟨⟨items, ending, rfl⟩, each.imp fun _ _ read => ⟨inner, read⟩⟩

/-- A document that is read as a group has the shape of one, and its members are read one by one. -/
theorem group_found {member : Decoder Member} {origin : Origin} {document : Document} {group : Group}
    (done : Group.decodeWith member origin document = .ok group) :
    document.HasGroupShape ∧
      List.Forall₂ (fun inside read => ∃ origin, member origin inside = .ok read) document.members
        group.members := by
  obtain ⟨inner, row, -, found, rfl⟩ := record_found (by simp [Fields.names]) done
  obtain ⟨id, row, rfl, idRead, found⟩ := found.head
  obtain ⟨combinator, row, rfl, combinatorRead, found⟩ := found.head
  obtain ⟨members, row, rfl, membersRead, -⟩ := found.head
  constructor
  · constructor
    · obtain ⟨document, there, read⟩ | ⟨-, none_⟩ := idRead
      · exact ⟨document, id, there, read⟩
      · cases none_
    · intro operator there
      obtain ⟨document', found, read⟩ | ⟨missing, -⟩ := combinatorRead
      · cases there.symm.trans found
        exact ⟨inner, combinator, read⟩
      · cases there.symm.trans missing
    · intro list there
      obtain ⟨document', found, read⟩ | ⟨missing, -⟩ := membersRead
      · cases there.symm.trans found
        exact (items_of_list read).1
      · cases there.symm.trans missing
  · obtain ⟨list, found, read⟩ | ⟨missing, default⟩ := membersRead
    · have there : document.slot? 2 "conditions" = some list := found
      rw [Document.members, there]
      exact (items_of_list read).2
    · have nowhere : document.slot? 2 "conditions" = none := missing
      cases default
      rw [Document.members, nowhere]
      exact .nil

theorem criteria_found {origin : Origin} {payload : Document} {criteria : Criteria}
    (done : Criteria.decode origin payload = .ok criteria) :
    List.Forall₂ (fun document group => ∃ origin, Group.decode origin document = .ok group)
      payload.groups criteria.groups := by
  obtain ⟨inner, row, -, found, rfl⟩ := record_found (by simp [Fields.names]) done
  obtain ⟨conditions, row, rfl, -, found⟩ := found.head
  obtain ⟨groups, row, rfl, groupsRead, -⟩ := found.head
  obtain ⟨list, found, read⟩ | ⟨missing, default⟩ := groupsRead
  · have there : payload.slot? 1 "conditionGroups" = some list := found
    rw [Document.groups, there]
    exact (items_of_list read).2
  · have nowhere : payload.slot? 1 "conditionGroups" = none := missing
    cases default
    rw [Document.groups, nowhere]
    exact .nil

/-- A member is read as a condition if it reads as one, and else as a group. -/
theorem member_found {levels : Nat} {origin : Origin} {document : Document} {member : Member}
    (done : Member.decodeWithin levels origin document = .ok member) :
    (∃ condition, Condition.decode (.buffered true) document = .ok condition ∧
        member = .condition condition) ∨
      (¬document.ReadsAsCondition ∧ ∃ levels group,
        Group.decodeWith (Member.decodeWithin levels) (.buffered true) document = .ok group ∧
          member = .group group) := by
  cases levels with
  | zero => cases done
  | succ levels =>
      rw [Member.decodeWithin] at done
      have read := no_fault done
      cases condition : Condition.decode (.buffered true) document with
      | ok found =>
          rw [condition] at read
          cases read
          exact .inl ⟨found, rfl, rfl⟩
      | error error =>
          refine .inr ⟨?_, levels, ?_⟩
          · rintro ⟨found, read'⟩
            cases condition.symm.trans read'
          · rw [condition] at read
            cases group : Group.decodeWith (Member.decodeWithin levels) (.buffered true) document with
            | ok found =>
                rw [group] at read
                cases read
                exact ⟨found, rfl, rfl⟩
            | error error =>
                rw [group] at read
                cases read

theorem forall₂_get {α β : Type} {known : α → β → Prop} {items : List α} {values : List β}
    (each : List.Forall₂ known items values) {index : Nat} {item : α}
    (found : items[index]? = some item) : ∃ value, values[index]? = some value ∧ known item value := by
  induction each generalizing index with
  | nil => cases found
  | cons first _ ih =>
      cases index with
      | zero =>
          cases found
          exact ⟨_, rfl, first⟩
      | succ index => exact ih found

/-- Whatever stands in a member is read as what stands at its path in the tree. -/
theorem stands_read {object document : Document} {path : List Nat}
    (stands : object.StandsWithin document path) {levels : Nat} {origin : Origin} {member : Member}
    (done : Member.decodeWithin levels origin document = .ok member) :
    ∃ found levels origin, member.at? path = some found ∧
      Member.decodeWithin levels origin object = .ok found := by
  induction stands generalizing levels origin member with
  | here => exact ⟨member, levels, origin, rfl, done⟩
  | inside group found inner ih =>
      obtain ⟨condition, read, -⟩ | ⟨-, lower, g, read, rfl⟩ := member_found done
      · exact absurd ⟨condition, read⟩ group
      · obtain ⟨next, place, origin, read⟩ := forall₂_get (group_found read).2 found
        obtain ⟨last, levels, origin, there, read⟩ := ih read
        refine ⟨last, levels, origin, ?_, read⟩
        simp [Member.at?, place, there]

theorem kind_named (origin : Origin) (kind : Kind) :
    Kind.decode origin (.string kind.name) = .ok kind := by
  cases origin <;> cases kind <;> rfl

/-- The kind is the one that the member of the name gives, and the other members are set aside. -/
theorem split_found {origin : Origin} {kind kind' : Option Kind}
    {members others : List (Except Fault String × Document)}
    (done : splitKind origin kind members = .ok (kind', others)) :
    (∀ document, memberOf "type" members = some document →
        kind = none ∧ ∃ found, Kind.decode origin document = .ok found ∧ kind' = some found) ∧
      (memberOf "type" members = none → kind' = kind) ∧
      ∀ name, name ≠ "type" → memberOf name others = memberOf name members := by
  induction members generalizing kind others with
  | nil =>
      cases done
      exact ⟨fun _ found => (nomatch found), fun _ => rfl, fun _ _ => rfl⟩
  | cons member rest ih =>
      obtain ⟨key, document⟩ := member
      cases key with
      | error fault => cases done
      | ok name =>
          rw [splitKind] at done
          by_cases tag : name = "type"
          · subst tag
            rw [if_pos rfl] at done
            cases kind with
            | some kind => cases done
            | none =>
                obtain ⟨found, read, done⟩ := bind_ok done
                obtain ⟨behind, alone, apart⟩ := ih done
                -- With a kind in hand, no other member of the name is accepted.
                have last : memberOf "type" rest = none := by
                  cases more : memberOf "type" rest with
                  | none => rfl
                  | some document => cases (behind document more).1
                refine ⟨fun document' first => ?_, fun missing => ?_, fun other different => ?_⟩
                · cases first
                  exact ⟨rfl, found, read, alone last⟩
                · cases missing
                · simp [apart other different, memberOf, different]
          · rw [if_neg tag] at done
            obtain ⟨⟨found, kept⟩, split, made⟩ := bind_ok (no_fault done)
            cases made
            obtain ⟨behind, alone, apart⟩ := ih split
            have skip : memberOf "type" ((.ok name, document) :: rest) = memberOf "type" rest := by
              simp [memberOf, Ne.symm tag]
            rw [skip]
            refine ⟨behind, alone, fun other different => ?_⟩
            simp only [memberOf]
            rw [apart other different]

/-- What a tagged object is split into: its kind, and what its members are but for the tag. -/
theorem tagged_found {origin : Origin} {object content : Document} {kind found : Kind}
    (tagged : object.IsTagged kind) (done : decodeKind origin object = .ok (found, content)) :
    found = kind ∧
      ∀ index name, name ≠ "type" → content.slot? index name = object.slot? index name := by
  cases object with
  | object members ending =>
      rw [decodeKind] at done
      obtain ⟨inner, -, done⟩ := bind_ok done
      obtain ⟨⟨kind', others⟩, split, done⟩ := bind_ok done
      obtain ⟨first, -, apart⟩ := split_found split
      obtain ⟨-, named, read, rfl⟩ := first _ tagged
      cases (kind_named inner kind).symm.trans read
      cases no_fault done
      exact ⟨rfl, fun _ name other => apart name other⟩
  | _ => cases tagged

/-! ### Malformed conditions -/

def Filter.fields : Fields [Nat, String, Operator, Value, Option Value] :=
  .cons (required "id" decodeU64)
  (.cons (required "field" decodeString)
  (.cons (required "operator" Operator.decode)
  (.cons (optional "value" decodeValue .null)
  (.cons (optional "value2" (decodeOption decodeValue) none)
  .nil))))

def Event.fields (condition : Decoder Condition) :
    Fields [Nat, String, String, EventType, Option Frequency, Nat, Option Int, Option String,
      Combinator, List Condition, Combinator, List Related] :=
  .cons (required "id" decodeU64)
  (.cons (required "columnKey" decodeString)
  (.cons (required "relatedColKey" decodeString)
  (.cons (required "eventType" EventType.decode)
  (.cons (optional "frequency" (decodeOption Frequency.decode) none)
  (.cons (optional "count" decodeU32 0)
  (.cons (optional "timeValue" (decodeOption decodeI64) none)
  (.cons (optional "timePeriod" (decodeOption decodeString) none)
  (.cons (optional "attributeOperator" Combinator.decode .and)
  (.cons (optional "attributeConditions" (decodeList condition) [])
  (.cons (optional "operator" Combinator.decode .and)
  (.cons (optional "relatedConditions" (decodeList Related.decode) [])
  .nil)))))))))))

/-- The object lacks a field that a condition of the kind has to have, or has one with a value of
the wrong type. -/
def Json.Document.IsMalformed (object : Document) : Kind → Prop
  | .filter => Filter.fields.Refuses (.buffered false) object.slot? 0
  | .event =>
      (Event.fields (Condition.decodeWithin object.height)).Refuses (.buffered false) object.slot? 0

theorem filter_not_malformed {content object : Document} {filter : Filter}
    (done : Filter.decode (.buffered false) content = .ok filter)
    (same : ∀ index name, name ≠ "type" → content.slot? index name = object.slot? index name) :
    ¬object.IsMalformed .filter := by
  obtain ⟨inner, row, entered, found, -⟩ :=
    @record_found _ _ _ _ Filter.fields (by decide) _ _ _ done
  cases entered
  refine found.not_refused fun index name among => (same index name ?_).symm
  rintro rfl
  exact absurd among (by decide)

theorem event_not_malformed {content object : Document} {event : Event}
    (done : Event.decodeWith (Condition.decodeWithin object.height) (.buffered false) content =
      .ok event)
    (same : ∀ index name, name ≠ "type" → content.slot? index name = object.slot? index name) :
    ¬object.IsMalformed .event := by
  have names : (Event.fields (Condition.decodeWithin object.height)).names =
    ["id", "columnKey", "relatedColKey", "eventType", "frequency", "count", "timeValue",
      "timePeriod", "attributeOperator", "attributeConditions", "operator", "relatedConditions"] :=
    rfl
  obtain ⟨inner, row, entered, found, -⟩ := @record_found _ _ _ _
    (Event.fields (Condition.decodeWithin object.height)) (by rw [names]; decide) _ _ _ done
  cases entered
  refine found.not_refused fun index name among => (same index name ?_).symm
  rintro rfl
  rw [names] at among
  exact absurd among (by decide)

/-- A tagged object that reads as a condition is one of its kind, and nothing is wrong with it. -/
theorem tagged_condition {origin : Origin} {object : Document} {kind : Kind} {condition : Condition}
    (tagged : object.IsTagged kind) (done : Condition.decode origin object = .ok condition) :
    condition.kind = kind ∧ ¬object.IsMalformed kind := by
  rw [Condition.decode, Condition.decodeWithin] at done
  obtain ⟨⟨found, content⟩, split, done⟩ := bind_ok done
  obtain ⟨rfl, same⟩ := tagged_found tagged split
  cases found with
  | filter =>
      obtain ⟨filter, read, rfl⟩ := map_ok done
      exact ⟨rfl, filter_not_malformed read same⟩
  | event =>
      obtain ⟨event, read, rfl⟩ := map_ok done
      exact ⟨rfl, event_not_malformed read same⟩

/-- What stands in a payload that was read is read as a condition, at its place, if it cannot be
taken for a group. -/
theorem standing_read {payload object : Document} {index : Nat} {path : List Nat}
    (stands : object.StandsIn payload index path)
    (apart : object.HasGroupShape → path ≠ [] ∧ object.ReadsAsCondition) {origin : Origin}
    {criteria : Criteria} (done : Criteria.decode origin payload = .ok criteria) :
    ∃ condition, criteria.at? index path = some (.condition condition) ∧
      Condition.decode (.buffered true) object = .ok condition := by
  cases stands with
  | group found =>
      obtain ⟨group, -, origin, read⟩ := forall₂_get (criteria_found done) found
      exact absurd rfl (apart (group_found read).1).1
  | @member place path group member found inside stands =>
      obtain ⟨group, first, origin, read⟩ := forall₂_get (criteria_found done) found
      obtain ⟨next, second, origin, read⟩ := forall₂_get (group_found read).2 inside
      obtain ⟨last, levels, origin, there, read⟩ := stands_read stands read
      have placed : criteria.at? index (place :: path) = some last := by
        simp [Criteria.at?, Member.at?, first, second, there]
      obtain ⟨condition, reads, rfl⟩ | ⟨none_, levels, group, reads, -⟩ := member_found read
      · exact ⟨condition, placed, reads⟩
      · exact absurd (apart (group_found reads).1).2 none_

/-- An object of a payload that names a kind of condition, and stands in a group or in place of one,
is a condition of that kind in the tree that the payload is read as; and if the object is malformed,
then the payload is refused. This takes that the object does not pass for a group, unless it stands
in a group and reads as a condition. -/
theorem tagged_stays_condition {payload object : Document} {index : Nat} {path : List Nat}
    (stands : object.StandsIn payload index path) {kind : Kind} (tagged : object.IsTagged kind)
    (apart : object.HasGroupShape → path ≠ [] ∧ object.ReadsAsCondition) (origin : Origin) :
    (∀ criteria, Criteria.decode origin payload = .ok criteria →
        ∃ condition, criteria.at? index path = some (.condition condition) ∧
          condition.kind = kind) ∧
      (object.IsMalformed kind → ∃ error, Criteria.decode origin payload = .error error) := by
  constructor
  · intro criteria done
    obtain ⟨condition, placed, reads⟩ := standing_read stands apart done
    exact ⟨condition, placed, (tagged_condition tagged reads).1⟩
  · intro malformed
    cases done : Criteria.decode origin payload with
    | error error => exact ⟨error, rfl⟩
    | ok criteria =>
        obtain ⟨condition, -, reads⟩ := standing_read stands apart done
        exact absurd malformed (tagged_condition tagged reads).2

def nestedPayload (member : Value) : Value :=
  .object [("conditionGroups", .array [.object [("conditions", .array [.object [
    ("conditions", .array [member]), ("id", .nat 2)]]), ("id", .nat 1)]])]

theorem nested_stands (member : Value) :
    member.toDocument.StandsIn (nestedPayload member).toDocument 0 [0, 0] := by
  refine .member rfl rfl (.inside ?_ rfl .here)
  rintro ⟨condition, read⟩
  cases read

def cityMember (id : Value) : Value :=
  .object [("field", .string "city"), ("id", id), ("operator", .string "equals"),
    ("type", .string "attribute"), ("value", .string "x")]

/-- A whole condition is found at its place, and one with a text as its id is refused. -/
theorem nested_city_stays :
    (∃ condition criteria,
        decodeFrom Criteria.decode (nestedPayload (cityMember (.nat 3))) = .ok criteria ∧
          criteria.at? 0 [0, 0] = some (.condition condition) ∧ condition.kind = .filter) ∧
      ∃ error, decodeFrom Criteria.decode (nestedPayload (cityMember (.string "3"))) =
        .error error := by
  have tagged (id : Value) : (cityMember id).toDocument.IsTagged .filter := rfl
  constructor
  · have stays := tagged_stays_condition (nested_stands (cityMember (.nat 3))) (tagged _)
      (fun _ => ⟨List.cons_ne_nil _ _, _, rfl⟩) .value
    obtain ⟨condition, there, kind⟩ := stays.1 _ rfl
    exact ⟨condition, _, rfl, there, kind⟩
  · have noGroup : ¬(cityMember (.string "3")).toDocument.HasGroupShape := by
      intro shape
      obtain ⟨document, id, there, read⟩ := shape.id
      cases there
      cases read
    have stays := tagged_stays_condition (nested_stands (cityMember (.string "3"))) (tagged _)
      (fun shape => absurd shape noGroup) .value
    exact stays.2 (.inr (.inl ⟨_, rfl, fun _ read => (nomatch read)⟩))

def brokenCity : Value :=
  .object [("field", .string "city"), ("id", .nat 3), ("type", .string "attribute"),
    ("value", .string "x")]

/-- A condition without an operator is no reason to refuse the payload: it is accepted as a group
without conditions, and the tree has no condition at all. -/
theorem broken_city_lost :
    brokenCity.toDocument.StandsIn (nestedPayload brokenCity).toDocument 0 [0, 0] ∧
      brokenCity.toDocument.IsTagged .filter ∧ brokenCity.toDocument.IsMalformed .filter ∧
      decodeFrom Criteria.decode (nestedPayload brokenCity) =
        .ok ⟨[], [⟨1, .and, [.group ⟨2, .and, [.group ⟨3, .and, []⟩]⟩]⟩], .and⟩ :=
  ⟨nested_stands _, rfl, .inr (.inr (.inr (.inr (.inl ⟨rfl, rfl⟩)))), rfl⟩

end Cohort
