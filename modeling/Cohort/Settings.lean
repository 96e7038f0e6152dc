import Cohort.Clause.Event
import Cohort.Payload.Decode
import Cohort.Payload.Encode
import Cohort.TextFile

/-!
Settings: the fields of tables, the table of events, previews, and the operators on offer. Every
part may be left out of a settings file.
-/

namespace Cohort

open Json

abbrev Schema := List (String × FieldType)

structure Preview where
  limit : Nat := 100
  dialect : Dialect := .postgres
  deriving DecidableEq, Repr

structure Settings where
  schemas : List (String × Schema) := []
  events : EventSource := {}
  preview : Preview := {}
  vocabulary : Vocabulary := {}
  deriving DecidableEq, Repr

namespace Settings

def schema? (settings : Settings) (table : String) : Option Schema :=
  settings.schemas.lookup table

def fieldType? (settings : Settings) (table field : String) : Option FieldType :=
  (settings.schema? table).bind (·.lookup field)

end Settings

def EventSource.encode (source : EventSource) : Value :=
  .object [("table", .string source.table), ("timestampColumn", .string source.timestampColumn)]

def Preview.encode (preview : Preview) : Value :=
  .object [("limit", .nat preview.limit), ("dialect", preview.dialect.encode)]

def Schema.encode (schema : Schema) : Value :=
  .object (schema.map fun (field, type) => (field, .string type.name))

def Settings.encode (settings : Settings) : Value :=
  .object [("datasets", .object (settings.schemas.map fun (table, schema) =>
      (table, Schema.encode schema))),
    ("events", settings.events.encode), ("preview", settings.preview.encode),
    ("operators", settings.vocabulary.encode)]

def EventSource.decode : Decoder EventSource :=
  decodeRecord "EventSource"
    (.cons (optional "table" decodeString ({} : EventSource).table)
    (.cons (optional "timestampColumn" decodeString ({} : EventSource).timestampColumn)
    .nil))
    fun (table, timestampColumn, ()) => ⟨table, timestampColumn⟩

def Preview.decode : Decoder Preview :=
  decodeRecord "PreviewConfig"
    (.cons (optional "limit" decodeU64 ({} : Preview).limit)
    (.cons (optional "dialect" Dialect.decode ({} : Preview).dialect)
    .nil))
    fun (limit, dialect, ()) => ⟨limit, dialect⟩

def Schema.decode : Decoder Schema :=
  decodeMap .ok FieldType.decode insertMember

def Settings.decode : Decoder Settings :=
  decodeRecord "SegmentConfig"
    (.cons (optional "datasets" (decodeMap .ok Schema.decode insertMember) [])
    (.cons (optional "events" EventSource.decode {})
    (.cons (optional "preview" Preview.decode {})
    (.cons (optional "operators" Vocabulary.decode {})
    .nil))))
    fun (schemas, events, preview, vocabulary, ()) => ⟨schemas, events, preview, vocabulary⟩

inductive SettingsError where
  | notFound (path : String)
  | unreadable (path : String) (error : ReadError)
  | malformed (path : String) (error : DecodeError)

namespace SettingsError

def cause? : SettingsError → Option String
  | notFound _ => none
  | unreadable _ error => some error.message
  | malformed _ error => some error.message

def message : SettingsError → String
  | notFound path => "配置文件不存在: " ++ path
  | unreadable path error => "无法读取配置文件 " ++ path ++ ": " ++ error.message
  | malformed path error => "无法解析JSON配置文件 " ++ path ++ ": " ++ error.message

end SettingsError

def Settings.ofFile (path : String) : TextFile → Except SettingsError Settings
  | .error error => .error (if error.isAbsence then .notFound path else .unreadable path error)
  | .ok content =>
      match decodeText Settings.decode content with
      | .ok settings => .ok settings
      | .error error => .error (.malformed path error)

end Cohort
