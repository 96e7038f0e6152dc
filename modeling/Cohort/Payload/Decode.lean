import Cohort.Json.Record
import Cohort.Segment

/-!
Reading trees back. A condition names its kind, a group does not have to: a member of a group is
read as a condition if that works, and else as a group.
-/

namespace Cohort

open Json

def decodeName {α : Type} (ofName : String → α) : Decoder α :=
  decodeVariant fun name => .ok (ofName name)

def Operator.decode : Decoder Operator :=
  decodeName Operator.ofName

def EventType.decode : Decoder EventType :=
  decodeName EventType.ofName

def Frequency.decode : Decoder Frequency :=
  decodeName Frequency.ofName

def Combinator.ofName (name : String) : Decoded Combinator :=
  if name = "AND" ∨ name = "and" then .ok .and
  else if name = "OR" ∨ name = "or" then .ok .or
  else .error (.unknownVariant name ["AND", "and", "OR", "or"])

def Combinator.decode : Decoder Combinator :=
  decodeVariant Combinator.ofName

def FieldType.ofName (name : String) : Decoded FieldType :=
  match FieldType.ofName? name with
  | some type => .ok type
  | none => .error (.unknownVariant name (FieldType.all.map FieldType.name))

def FieldType.decode : Decoder FieldType :=
  decodeVariant FieldType.ofName

def Dialect.ofName (name : String) : Decoded Dialect :=
  match Dialect.all.find? fun dialect => dialect.name == name with
  | some dialect => .ok dialect
  | none => .error (.unknownVariant name (Dialect.all.map Dialect.name))

def Dialect.decode : Decoder Dialect :=
  decodeVariant Dialect.ofName

def Vocabulary.decode : Decoder Vocabulary := fun origin document =>
  (decodeMap FieldType.ofName (decodeList Operator.decode) Vocabulary.insert origin document).map
    fun overrides => ⟨overrides⟩

def Filter.decode : Decoder Filter :=
  decodeRecord "AttributeCondition"
    (.cons (required "id" decodeU64)
    (.cons (required "field" decodeString)
    (.cons (required "operator" Operator.decode)
    (.cons (optional "value" decodeValue .null)
    (.cons (optional "value2" (decodeOption decodeValue) none)
    .nil)))))
    fun (id, field, operator, value, value2, ()) => ⟨id, field, operator, value, value2⟩

def Related.decode : Decoder Related :=
  decodeRecord "RelatedCondition"
    (.cons (required "id" decodeU64)
    (.cons (required "relatedDataset" decodeString)
    (.cons (required "joinWithKey" decodeString)
    (.cons (optional "fields" (decodeList decodeString) [])
    (.cons (optional "operator" Combinator.decode .and)
    (.cons (optional "relatedAttributeConditions" (decodeList Filter.decode) [])
    .nil))))))
    fun (id, dataset, joinKey, fields, combinator, filters, ()) =>
      ⟨id, dataset, joinKey, fields, combinator, filters⟩

def Event.decodeWith (condition : Decoder Condition) : Decoder Event :=
  decodeRecord "EventCondition"
    (.cons (required "id" decodeU64)
    (.cons (required "columnKey" decodeString)
    (.cons (required "relatedColKey" decodeString)
    (.cons (required "eventType" EventType.decode)
    (.cons (optional "frequency" (decodeOption Frequency.decode) none)
    (.cons (optional "count" decodeU32 0)
    (.cons (optional "timeValue" (decodeOption decodeI64) none)
    (.cons (optional "timePeriod" (decodeOption decodeString) none)
    (.cons (optional "attributeOperator" Combinator.decode .and)
    (.cons (optional "attributeConditions" (decodeList condition) [])
    (.cons (optional "operator" Combinator.decode .and)
    (.cons (optional "relatedConditions" (decodeList Related.decode) [])
    .nil))))))))))))
    fun (id, columnKey, relatedColKey, eventType, frequency, count, timeValue, timePeriod,
        filterCombinator, filters, combinator, related, ()) =>
      ⟨id, columnKey, relatedColKey, eventType, frequency, count, timeValue, timePeriod,
        filterCombinator, filters, combinator, related⟩

inductive Kind where
  | filter | event
  deriving DecidableEq, Repr

def Kind.all : List Kind :=
  [filter, event]

def Kind.name : Kind → String
  | filter => "attribute"
  | event => "event"

def Kind.ofName (name : String) : Decoded Kind :=
  match Kind.all.find? fun kind => kind.name == name with
  | some kind => .ok kind
  | none => .error (.unknownVariant name (Kind.all.map Kind.name))

def Kind.decode : Decoder Kind :=
  decodeTag Kind.ofName Kind.all

def splitKind (origin : Origin) : Option Kind → List (Except Fault String × Document) →
    Decoded (Option Kind × List (Except Fault String × Document))
  | kind, [] => .ok (kind, [])
  | _, (.error fault, _) :: _ => .error (.malformed fault.reading)
  | kind, (.ok name, document) :: rest =>
      if name = "type" then
        if kind.isSome then .error (.duplicateField "type")
        else do
          let kind ← Kind.decode origin document
          splitKind origin (some kind) rest
      else
        unlessFault (origin.fault? document) do
          let (kind, others) ← splitKind origin kind rest
          .ok (kind, (.ok name, document) :: others)

def decodeKind (origin : Origin) : Document → Decoded (Kind × Document)
  | .object members ending => do
      let inner ← origin.enter
      let (kind, others) ← splitKind inner none members
      unlessFault ending.objectError? (match kind with
        | some kind => .ok (kind, .object others .closed)
        | none => .error (.missingField "type"))
  | .array items ending => do
      let inner ← origin.enter
      match items with
      | [] => unlessFault ending.listError? (.error (.missingField "type"))
      | first :: others =>
          let kind ← Kind.decode inner first
          unlessFault ((others.findSome? inner.fault?).or ending.listError?)
            (.ok (kind, .array others .closed))
  | other => .error (mismatch "internally tagged enum Condition" other)

def Condition.decodeWithin : Nat → Decoder Condition
  | 0, _, document => .error (mismatch "internally tagged enum Condition" document)
  | levels + 1, origin, document => do
      let (kind, content) ← decodeKind origin document
      match kind with
      | .filter => (Filter.decode (.buffered false) content).map .filter
      | .event =>
          (Event.decodeWith (Condition.decodeWithin levels) (.buffered false) content).map .event

def Condition.decode : Decoder Condition := fun origin document =>
  Condition.decodeWithin (document.height + 1) origin document

def Event.decode : Decoder Event :=
  Event.decodeWith Condition.decode

def Group.decodeWith (member : Decoder Member) : Decoder Group :=
  decodeRecord "ConditionGroup"
    (.cons (required "id" decodeU64)
    (.cons (optional "operator" Combinator.decode .and)
    (.cons (optional "conditions" (decodeList member) [])
    .nil)))
    fun (id, combinator, members, ()) => ⟨id, combinator, members⟩

/-- A member of a group, with at most `levels` levels of documents in it. Why it is neither a
condition nor a group is not told. -/
def Member.decodeWithin : Nat → Decoder Member
  | 0, _, _ => .error (.noVariant "GroupItem")
  | levels + 1, origin, document =>
      unlessFault (origin.fault? document) <|
        match Condition.decode (.buffered true) document with
        | .ok found => .ok (.condition found)
        | .error _ =>
            match Group.decodeWith (Member.decodeWithin levels) (.buffered true) document with
            | .ok found => .ok (.group found)
            | .error _ => .error (.noVariant "GroupItem")

def Member.decode : Decoder Member := fun origin document =>
  Member.decodeWithin (document.height + 1) origin document

def Group.decode : Decoder Group :=
  Group.decodeWith Member.decode

def Criteria.decode : Decoder Criteria :=
  decodeRecord "FilterCriteria"
    (.cons (optional "conditions" (decodeList Condition.decode) [])
    (.cons (optional "conditionGroups" (decodeList Group.decode) [])
    (.cons (optional "rootOperator" Combinator.decode .and)
    .nil)))
    fun (conditions, groups, combinator, ()) => ⟨conditions, groups, combinator⟩

def Segment.decode : Decoder Segment :=
  decodeRecord "SegmentDefinition"
    (.cons (required "segment_id" decodeString)
    (.cons (required "segment_name" decodeString)
    (.cons (required "dataset" decodeString)
    (.cons (optional "filter_criteria" Criteria.decode {})
    .nil))))
    fun (id, name, dataset, criteria, ()) => ⟨id, name, dataset, criteria⟩

end Cohort
