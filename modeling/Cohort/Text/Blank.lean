import Cohort.Text.Runs

/-!
Blank characters: the Unicode property White_Space, and what the library does with runs of them.
-/

namespace Cohort.Text

def isBlank (c : Char) : Bool :=
  let point := c.toNat
  point == 0x20 || (0x09 ≤ point && point ≤ 0x0d) || point == 0x85 || point == 0xa0 ||
    point == 0x1680 || (0x2000 ≤ point && point ≤ 0x200a) || point == 0x2028 ||
    point == 0x2029 || point == 0x202f || point == 0x205f || point == 0x3000

def trimStart (cs : List Char) : List Char :=
  cs.dropWhile isBlank

def trimEnd (cs : List Char) : List Char :=
  (cs.reverse.dropWhile isBlank).reverse

def trim (s : String) : String :=
  String.ofList (trimEnd (trimStart s.toList))

def isBlankText (s : String) : Bool :=
  s.toList.all isBlank

def words (s : String) : List String :=
  (runs (fun c => !isBlank c) s.toList).map String.ofList

end Cohort.Text
