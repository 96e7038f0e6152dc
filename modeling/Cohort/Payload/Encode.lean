import Cohort.Segment

/-!
The persisted form of trees: JSON with the members in a fixed order. An absent second value is left
out; an absent frequency or time window is written as null.
-/

namespace Cohort

open Json (Value)

def Combinator.encode (combinator : Combinator) : Value :=
  .string combinator.keyword

def Filter.members (filter : Filter) : List (String × Value) :=
  [("id", .nat filter.id), ("field", .string filter.field),
   ("operator", .string filter.operator.name), ("value", filter.value)]
    ++ (filter.value2.map fun value => ("value2", value)).toList

def Filter.encode (filter : Filter) : Value :=
  .object filter.members

def Related.encode (related : Related) : Value :=
  .object [("id", .nat related.id), ("relatedDataset", .string related.dataset),
    ("joinWithKey", .string related.joinKey), ("fields", .array (related.fields.map .string)),
    ("operator", related.combinator.encode),
    ("relatedAttributeConditions", .array (related.filters.map Filter.encode))]

def encodeOption {α : Type} (encode : α → Value) : Option α → Value
  | some a => encode a
  | none => .null

mutual

def Condition.encode : Condition → Value
  | .filter filter => .object (("type", .string "attribute") :: filter.members)
  | .event event => .object (("type", .string "event") :: event.members)

def Event.members : Event → List (String × Value)
  | ⟨id, columnKey, relatedColKey, eventType, frequency, count, timeValue, timePeriod,
      filterCombinator, filters, combinator, related⟩ =>
      [("id", .nat id), ("columnKey", .string columnKey), ("relatedColKey", .string relatedColKey),
       ("eventType", .string eventType.name),
       ("frequency", encodeOption (fun f => .string f.name) frequency), ("count", .nat count),
       ("timeValue", encodeOption (fun n => .number (.int n)) timeValue),
       ("timePeriod", encodeOption .string timePeriod),
       ("attributeOperator", filterCombinator.encode),
       ("attributeConditions", .array (Condition.encodeAll filters)),
       ("operator", combinator.encode),
       ("relatedConditions", .array (related.map Related.encode))]

def Condition.encodeAll : List Condition → List Value
  | [] => []
  | condition :: rest => condition.encode :: Condition.encodeAll rest

end

def Event.encode (event : Event) : Value :=
  .object event.members

mutual

def Member.encode : Member → Value
  | .condition condition => condition.encode
  | .group group => group.encode

def Group.encode : Group → Value
  | ⟨id, combinator, members⟩ =>
      .object [("type", .string "group"), ("id", .nat id), ("operator", combinator.encode),
        ("conditions", .array (Member.encodeAll members))]

def Member.encodeAll : List Member → List Value
  | [] => []
  | member :: rest => member.encode :: Member.encodeAll rest

end

def Criteria.encode (criteria : Criteria) : Value :=
  .object [("conditions", .array (Condition.encodeAll criteria.conditions)),
    ("conditionGroups", .array (criteria.groups.map Group.encode)),
    ("rootOperator", criteria.combinator.encode)]

def Segment.encode (segment : Segment) : Value :=
  .object [("segment_id", .string segment.id), ("segment_name", .string segment.name),
    ("dataset", .string segment.dataset), ("filter_criteria", segment.criteria.encode)]

def Vocabulary.encode (vocabulary : Vocabulary) : Value :=
  .object (vocabulary.overrides.map fun (type, operators) =>
    (type.name, .array (operators.map fun operator => .string operator.name)))

def Dialect.encode (dialect : Dialect) : Value :=
  .string dialect.name

end Cohort
