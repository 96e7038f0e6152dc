import Cohort.Text.Blank
import Cohort.Vocabulary

/-!
Clauses, which are texts of conditions, and how they are combined.
-/

namespace Cohort

open Text (isBlankText)

/-- The clauses in parentheses, with the combinator between them. Blank clauses are left out; where
no clause is left, the result is empty and constrains nothing. -/
def foldClauses (combinator : Combinator) (clauses : List String) : String :=
  (" " ++ combinator.keyword ++ " ").intercalate
    ((clauses.filter fun clause => !isBlankText clause).map fun clause => "(" ++ clause ++ ")")

end Cohort
