import Cohort.Text.Hidden

/-!
Two ways to put a text between quotes. A literal doubles the single quotes inside it, so that any
text can stand in a statement. A display quotes for the reader of a message: what cannot be seen is
written as an escape.
-/

namespace Cohort.Text

def quoteMark : Char := '\x27'

def doubleQuotes : List Char → List Char
  | [] => []
  | c :: rest => if c = quoteMark then c :: c :: doubleQuotes rest else c :: doubleQuotes rest

/-- Every pair of single quotes read as one; a quote without a partner stays. -/
def undoubleQuotes : List Char → List Char
  | [] => []
  | [c] => [c]
  | c :: d :: rest =>
      if c = quoteMark ∧ d = quoteMark then c :: undoubleQuotes rest
      else c :: undoubleQuotes (d :: rest)

def literal (s : String) : String :=
  String.ofList (quoteMark :: doubleQuotes s.toList ++ [quoteMark])

def hexDigits (point : Nat) : String :=
  String.ofList (Nat.toDigits 16 point)

def displayChar (c : Char) : String :=
  if c = '\x00' then "\\0"
  else if c = '\t' then "\\t"
  else if c = '\r' then "\\r"
  else if c = '\n' then "\\n"
  else if c = '\\' then "\\\\"
  else if c = '\x22' then "\\\x22"
  else if isHidden c then "\\u\x7b" ++ hexDigits c.toNat ++ "\x7d"
  else c.toString

def display (s : String) : String :=
  "\x22" ++ String.join (s.toList.map displayChar) ++ "\x22"

end Cohort.Text
