/-!
Text files: what a path leads to, and why it may not lead to a text.
-/

namespace Cohort

inductive ReadError where
  | missing
  /-- The path goes on behind a file. -/
  | notDirectory
  | isDirectory
  /-- The bytes are not the UTF-8 of a text. -/
  | garbled
  deriving DecidableEq, Repr

namespace ReadError

def message : ReadError → String
  | missing => "No such file or directory (os error 2)"
  | notDirectory => "Not a directory (os error 20)"
  | isDirectory => "Is a directory (os error 21)"
  | garbled => "stream did not contain valid UTF-8"

def isAbsence : ReadError → Bool
  | missing | notDirectory => true
  | isDirectory | garbled => false

end ReadError

abbrev TextFile := Except ReadError String

def TextFile.ofBytes (bytes : ByteArray) : TextFile :=
  match String.fromUTF8? bytes with
  | some text => .ok text
  | none => .error .garbled

end Cohort
