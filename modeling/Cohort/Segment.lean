import Cohort.Condition

/-!
Segments: conditions with a name and the dataset they select from. The name gives the id.
-/

namespace Cohort

structure Segment where
  id : String
  name : String
  dataset : String
  criteria : Criteria

/-- The slug so far, from its end, with one more character of the name: a letter or digit is kept in
lower case, anything else separates what comes before from what comes after. -/
def slugStep (slug : List Char) (c : Char) : List Char :=
  if c.isAlphanum then c.toLower :: slug
  else match slug with
    | [] => []
    | last :: _ => if last = '_' then slug else '_' :: slug

def slug (name : String) : String :=
  String.ofList ((name.toList.foldl slugStep []).dropWhile (· == '_')).reverse

def Segment.idFor (name : String) : String :=
  "segment:" ++ slug name

def Segment.create (name dataset : String) (criteria : Criteria) : Segment :=
  ⟨Segment.idFor name, name, dataset, criteria⟩

end Cohort
