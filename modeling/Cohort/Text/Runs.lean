/-!
Runs of characters: the longest stretches of a text whose characters are all kept.
-/

namespace Cohort.Text

def startsRun (keep : Char → Bool) : List Char → Bool
  | [] => false
  | c :: _ => keep c

def runs (keep : Char → Bool) : List Char → List (List Char)
  | [] => []
  | c :: rest =>
      if keep c then
        match startsRun keep rest, runs keep rest with
        | true, run :: others => (c :: run) :: others
        | _, others => [c] :: others
      else runs keep rest

end Cohort.Text
