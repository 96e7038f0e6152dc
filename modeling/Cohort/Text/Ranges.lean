/-!
Sets of characters given by their code point ranges, both ends included.
-/

namespace Cohort.Text

def inRanges (ranges : List (Nat × Nat)) (point : Nat) : Bool :=
  ranges.any fun range => range.1 ≤ point && point ≤ range.2

end Cohort.Text
