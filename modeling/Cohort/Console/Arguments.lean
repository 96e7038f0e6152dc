import Cohort.Decimal.Digits
import Cohort.Vocabulary

/-!
The arguments of a call. Options have long names; a value follows its option or stands behind an
equals sign. Two hyphens end the options. The settings file may be named in front of the command or
behind it.
-/

namespace Cohort.Console

inductive Input where
  | argument (sql : String)
  | file (path : String)
  | standardInput
  deriving DecidableEq, Repr

inductive Command where
  | generate (segment : String)
  | parse (input : Input)
  | preview (segment : String) (limit : Option Nat) (count : Bool)
  | validate (segment : String)
  | operators (type : Option FieldType)
  | edit (segment : Option String) (dataset : String)
  deriving DecidableEq, Repr

inductive Call where
  | version
  | command (settings : Option String) (asked : Command)
  deriving DecidableEq, Repr

structure Signature where
  valued : List String
  flags : List String
  /-- How many arguments stand on their own, at most. -/
  places : Nat

structure Given where
  values : List (String × String) := []
  flags : List String := []
  places : List String := []

def looksLikeOption (arg : String) : Bool :=
  match arg.toList with
  | '-' :: _ :: _ => true
  | _ => false

def splitOption (arg : List Char) : String × Option String :=
  let name := String.ofList (arg.takeWhile (· != '='))
  match arg.dropWhile (· != '=') with
  | [] => (name, none)
  | _ :: value => (name, some (String.ofList value))

def Given.addPlace (signature : Signature) (given : Given) (arg : String) : Option Given :=
  if given.places.length < signature.places then some { given with places := given.places ++ [arg] }
  else none

def Given.addValue (given : Given) (name value : String) : Option Given :=
  if (given.values.lookup name).isSome then none
  else some { given with values := given.values ++ [(name, value)] }

def Given.addPlaces (signature : Signature) : Given → List String → Option Given
  | given, [] => some given
  | given, arg :: rest => do
      let given ← given.addPlace signature arg
      Given.addPlaces signature given rest

def Given.read (signature : Signature) : Given → List String → Option Given
  | given, [] => some given
  | given, [arg] => readLast given arg
  | given, arg :: next :: rest =>
      match arg.toList with
      | ['-', '-'] => given.addPlaces signature (next :: rest)
      | '-' :: '-' :: option =>
          match splitOption option with
          | (name, none) =>
              if signature.valued.contains name then
                if looksLikeOption next then none
                else do
                  let given ← given.addValue name next
                  Given.read signature given rest
              else do
                let given ← readLast given arg
                Given.read signature given (next :: rest)
          | (_, some _) => do
              let given ← readLast given arg
              Given.read signature given (next :: rest)
      | _ => do
          let given ← readLast given arg
          Given.read signature given (next :: rest)
where
  readLast (given : Given) (arg : String) : Option Given :=
    match arg.toList with
    | ['-', '-'] => some given
    | '-' :: '-' :: option =>
        match splitOption option with
        | (name, some value) =>
            if signature.valued.contains name then given.addValue name value else none
        | (name, none) =>
            if signature.flags.contains name && !given.flags.contains name then
              some { given with flags := given.flags ++ [name] }
            else none
    | _ => if looksLikeOption arg then none else given.addPlace signature arg

def readPath (text : String) : Option String :=
  if text.isEmpty then none else some text

def readOptionalPath : Option String → Option (Option String)
  | none => some none
  | some text => (readPath text).map some

def readLimit (text : String) : Option Nat :=
  let digits := match text.toList with
    | '+' :: rest => rest
    | rest => rest
  if digits ≠ [] ∧ digits.all Char.isDigit ∧ Decimal.digitsValue digits ≤ Decimal.maxU64 then
    some (Decimal.digitsValue digits)
  else none

def readFieldType (text : String) : Option FieldType :=
  FieldType.all.find? fun type => type.name.toList == text.toList.map Char.toLower

def signature? (command : String) : Option Signature :=
  if command = "generate" ∨ command = "validate" then some ⟨["config"], [], 1⟩
  else if command = "parse" then some ⟨["config", "file"], [], 1⟩
  else if command = "preview" then some ⟨["config", "limit"], ["count"], 1⟩
  else if command = "operators" then some ⟨["config"], [], 1⟩
  else if command = "editor" then some ⟨["config", "segment", "dataset"], [], 0⟩
  else none

def readCommand (command : String) (given : Given) : Option Command :=
  let path : Option String := given.places.head?.bind readPath
  if command = "generate" then path.map .generate
  else if command = "validate" then path.map .validate
  else if command = "preview" then do
    let segment ← path
    let limit ← match given.values.lookup "limit" with
      | none => some none
      | some text => (readLimit text).map some
    some (.preview segment limit (given.flags.contains "count"))
  else if command = "parse" then do
    let file ← readOptionalPath (given.values.lookup "file")
    match given.places.head?, file with
    | some sql, none => some (.parse (.argument sql))
    | none, some path => some (.parse (.file path))
    | none, none => some (.parse .standardInput)
    | some _, some _ => none
  else if command = "operators" then
    match given.places.head? with
    | none => some (.operators none)
    | some text => (readFieldType text).map fun type => .operators (some type)
  else if command = "editor" then do
    let segment ← readOptionalPath (given.values.lookup "segment")
    some (.edit segment ((given.values.lookup "dataset").getD "customers"))
  else none

/-- Whether an argument asks for the version; what follows the short form does not matter. -/
def asksVersion (arg : String) : Bool :=
  match arg.toList with
  | '-' :: 'V' :: _ => true
  | _ => arg == "--version"

def readCall (settings : Option String) : List String → Option Call
  | [] => none
  | first :: args =>
      if asksVersion first then some .version
      else do
        let signature ← signature? first
        let given ← Given.read signature {} args
        let inner ← readOptionalPath (given.values.lookup "config")
        let command ← readCommand first given
        some (.command (inner.or settings) command)

def Call.read? : List String → Option Call
  | [] => none
  | first :: rest =>
      match first.toList with
      | '-' :: '-' :: option =>
          match splitOption option, rest with
          | ("config", some path), rest => do readCall (some (← readPath path)) rest
          | ("config", none), path :: rest =>
              if looksLikeOption path then none else do readCall (some (← readPath path)) rest
          | _, _ => readCall none (first :: rest)
      | _ => readCall none (first :: rest)

end Cohort.Console
