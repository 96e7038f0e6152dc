/-!
Lengths and positions in bytes of UTF-8.
-/

namespace Cohort.Text

def byteLength : List Char → Nat
  | [] => 0
  | c :: rest => c.utf8Size + byteLength rest

end Cohort.Text
