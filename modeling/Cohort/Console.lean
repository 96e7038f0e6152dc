import Cohort.Console.Arguments
import Cohort.Console.Editor
import Cohort.Console.Failure
import Cohort.Validation

/-!
The console: what a call prints and how it ends, given the files it can read and its standard input.
-/

namespace Cohort.Console

inductive Ending where
  | success
  | failure (failure : Failure)
  | exhausted
  | misuse

def usage : String :=
  "usage: [--config FILE] generate SEGMENT | parse [SQL | --file FILE]"
    ++ " | preview SEGMENT [--limit N] [--count] | validate SEGMENT"
    ++ " | operators [TYPE] | editor [--segment FILE] [--dataset NAME] | --version\n"

structure Outcome where
  lines : List String
  ending : Ending

namespace Outcome

def output (outcome : Outcome) : String :=
  String.join (outcome.lines.map (· ++ "\n"))

def errors (outcome : Outcome) : String :=
  match outcome.ending with
  | .success => ""
  | .failure failure => report failure.message failure.cause?
  | .exhausted => IdSource.exhaustedMessage ++ "\n"
  | .misuse => usage

def status (outcome : Outcome) : Nat :=
  match outcome.ending with
  | .success => 0
  | .failure _ => 1
  | .misuse => 2
  | .exhausted => 101

end Outcome

def printed (lines : List String) : Outcome :=
  ⟨lines, .success⟩

abbrev Try := Except Failure

def readFile (subject : Subject) (path : String) (file : TextFile) : Try String :=
  match file with
  | .ok content => .ok content
  | .error error => .error (.unreadable subject path error)

def readSegment (path : String) (file : TextFile) : Try Segment := do
  let content ← readFile .segment path file
  match Json.decodeText Segment.decode content with
  | .ok segment => .ok segment
  | .error error => .error (.malformedSegment path error)

def defaultSettingsPath : String := "segment_config.json"

/-- The settings of a call. Only the file that is looked for by itself may be missing. -/
def readSettings (files : String → TextFile) (named : Option String) : Try Settings :=
  let path := named.getD defaultSettingsPath
  match Settings.ofFile path (files path), named with
  | .ok settings, _ => .ok settings
  | .error (.notFound _), none => .ok {}
  | .error error, _ => .error (.settings error)

def operatorsLine (settings : Settings) (type : FieldType) : String :=
  type.name ++ ": "
    ++ ", ".intercalate ((settings.vocabulary.operators type).map Operator.name)

def validate (settings : Settings) (segment : Segment) : Outcome :=
  let issues := segment.criteria.issues settings segment.dataset
  if issues.isEmpty then printed ["✅ " ++ segment.id ++ " 没有发现问题"]
  else
    ⟨issues.map fun issue => "• " ++ issue.message, .failure (.issues segment.id issues.length)⟩

def previewLine (settings : Settings) (segment : Segment) (limit : Option Nat) (count : Bool) :
    String :=
  let dialect := settings.preview.dialect
  if count then segment.criteria.count settings.events dialect segment.dataset
  else
    segment.criteria.preview settings.events dialect segment.dataset
      (limit.getD settings.preview.limit)

def editedTree (files : String → TextFile) (dataset : String) :
    Option String → Try (String × Criteria)
  | none => .ok (dataset, {})
  | some path => do
      let segment ← readSegment path (files path)
      .ok (segment.dataset, segment.criteria)

def edit (session : Session) : TextFile → Outcome
  | .ok text => printed (greeting session ++ Editor.run { session } (lines text))
  | .error error => ⟨greeting session, .failure (.unreadableLines error)⟩

def readStatement (files : String → TextFile) (input : TextFile) : Input → Try String
  | .argument sql => .ok sql
  | .file path => readFile .statement path (files path)
  | .standardInput =>
      match input with
      | .ok text => .ok text
      | .error error => .error (.unreadableInput error)

def runCommand (files : String → TextFile) (input : TextFile) (settings : Settings) :
    Command → Try Outcome
  | .generate path => do
      let segment ← readSegment path (files path)
      .ok (printed [segment.statement settings.events])
  | .parse source => do
      let sql ← readStatement files input source
      .ok (printed [(Recovered.ofStatement sql).encode.pretty])
  | .preview path limit count => do
      let segment ← readSegment path (files path)
      .ok (printed [previewLine settings segment limit count])
  | .validate path => do
      let segment ← readSegment path (files path)
      .ok (validate settings segment)
  | .operators type =>
      let types := match type with
        | some type => [type]
        | none => FieldType.all
      .ok (printed (types.map (operatorsLine settings)))
  | .edit segment dataset => do
      let (dataset, criteria) ← editedTree files dataset segment
      match Session.open? dataset criteria settings.events with
      | none => .ok ⟨[], .exhausted⟩
      | some session => .ok (edit session input)

def versionLine : String := "segment_sql 0.1.0"

def run (files : String → TextFile) (input : TextFile) (args : List String) : Outcome :=
  match Call.read? args with
  | none => ⟨[], .misuse⟩
  | some .version => printed [versionLine]
  | some (.command settings command) =>
      let outcome := do
        let settings ← readSettings files settings
        runCommand files input settings command
      match outcome with
      | .ok outcome => outcome
      | .error failure => ⟨[], .failure failure⟩

end Cohort.Console
