import Cohort.Payload.Encode
import Cohort.Recovery

/-!
The written form of a recovery: the tree under the names of the criteria, the dataset and what was
dropped, each left out where there is none.
-/

namespace Cohort

open Json (Value)

def Dropped.encode (dropped : Dropped) : Value :=
  .object [("text", .string dropped.text), ("reason", .string dropped.reason.name)]

def Recovered.members (recovered : Recovered) : List (String × Value) :=
  [("conditions", .array (Condition.encodeAll recovered.criteria.conditions)),
   ("groupConditions", .array (recovered.criteria.groups.map Group.encode)),
   ("rootOperator", recovered.criteria.combinator.encode)]
    ++ (recovered.dataset.map fun dataset => ("dataset", .string dataset)).toList

def Recovered.encode (recovered : Recovered) : Value :=
  .object (recovered.members
    ++ if recovered.dropped.isEmpty then []
       else [("dropped", .array (recovered.dropped.map Dropped.encode))])

end Cohort
