import Cohort.Console

/-!
The program: it reads the files that a call may name and its standard input, and prints what the
console makes of them.
-/

namespace Cohort.Console

def readErrorOf : IO.Error → ReadError
  | .inappropriateType _ code _ => if code = 21 then .isDirectory else .notDirectory
  | _ => .missing

def loadFile (path : String) : IO TextFile := do
  try
    return TextFile.ofBytes (← IO.FS.readBinFile path)
  catch error => return .error (readErrorOf error)

def Command.path? : Command → Option String
  | .generate path => some path
  | .validate path => some path
  | .preview path _ _ => some path
  | .parse (.file path) => some path
  | .edit path _ => path
  | _ => none

def Call.paths : Call → List String
  | .version => []
  | .command settings asked => settings.getD defaultSettingsPath :: asked.path?.toList

def Call.readsInput : Call → Bool
  | .command _ (.parse .standardInput) => true
  | .command _ (.edit _ _) => true
  | _ => false

end Cohort.Console

open Cohort Console in
def main (args : List String) : IO UInt32 := do
  let call := Call.read? args
  let files ← ((call.map Call.paths).getD []).mapM fun path => do return (path, ← loadFile path)
  let input ← if (call.map Call.readsInput).getD false then
      pure (TextFile.ofBytes (← (← IO.getStdin).readBinToEnd))
    else pure (.ok "")
  let outcome := run (fun path => (files.lookup path).getD (.error .missing)) input args
  IO.print outcome.output
  IO.eprint outcome.errors
  return UInt32.ofNat outcome.status
