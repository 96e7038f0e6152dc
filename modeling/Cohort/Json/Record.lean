import Cohort.Json.Decoder

/-!
Records: objects with known members, which may also be written as lists of the members' values in
their order. A record is described by its fields; one description serves both forms.
-/

namespace Cohort.Json

structure Field (α : Type) where
  name : String
  decode : Decoder α
  /-- What stands for a member that is missing, if it may be missing. -/
  absent : Option α

def required {α : Type} (name : String) (decode : Decoder α) : Field α :=
  ⟨name, decode, none⟩

def optional {α : Type} (name : String) (decode : Decoder α) (absent : α) : Field α :=
  ⟨name, decode, some absent⟩

inductive Fields : List Type → Type 1 where
  | nil : Fields []
  | cons {α : Type} {αs : List Type} (field : Field α) (rest : Fields αs) : Fields (α :: αs)

def Row : List Type → Type
  | [] => Unit
  | α :: αs => α × Row αs

def Slots : List Type → Type
  | [] => Unit
  | α :: αs => Option α × Slots αs

namespace Fields

def size {αs : List Type} : Fields αs → Nat
  | nil => 0
  | cons _ rest => rest.size + 1

def noSlots {αs : List Type} : Fields αs → Slots αs
  | nil => ()
  | cons _ rest => (none, rest.noSlots)

def put? {αs : List Type} (origin : Origin) (name : String) (document : Document) :
    Fields αs → Slots αs → Option (Decoded (Slots αs))
  | nil, _ => none
  | cons field rest, (slot, slots) =>
      if name = field.name then
        if slot.isSome then some (.error (.duplicateField name))
        else some ((field.decode origin document).map fun value => (some value, slots))
      else (rest.put? origin name document slots).map fun put => put.map fun slots => (slot, slots)

def putAll {αs : List Type} (fields : Fields αs) (origin : Origin) :
    Slots αs → List (Except Fault String × Document) → Decoded (Slots αs)
  | slots, [] => .ok slots
  | _, (.error fault, _) :: _ => .error (.malformed fault.reading)
  | slots, (.ok name, document) :: rest => do
      let slots ← match fields.put? origin name document slots with
        | some put => put
        | none => (decodeIgnored origin document).map fun _ => slots
      fields.putAll origin slots rest

def fill {αs : List Type} : Fields αs → Slots αs → Decoded (Row αs)
  | nil, _ => .ok ()
  | cons field rest, (slot, slots) =>
      match slot.or field.absent with
      | none => .error (.missingField field.name)
      | some value => (rest.fill slots).map fun row => (value, row)

/-- The row of a list of values; `fault` is what is wrong behind the items, and `short` the error for
a value that is missing. -/
def fillFrom {αs : List Type} (origin : Origin) (fault : Option SyntaxError)
    (short : Nat → DecodeError) : Nat → Fields αs → List Document → Decoded (Row αs)
  | _, nil, _ => .ok ()
  | index, cons field rest, [] =>
      match fault with
      | some error => .error (.malformed error)
      | none =>
          match field.absent with
          | none => .error (short index)
          | some value => (rest.fillFrom origin fault short (index + 1) []).map fun row =>
              (value, row)
  | index, cons field rest, item :: items => do
      let value ← field.decode origin item
      let row ← rest.fillFrom origin fault short (index + 1) items
      .ok (value, row)

end Fields

def elements (n : Nat) : String :=
  Decimal.numberText n ++ (if n = 1 then " element" else " elements")

def surplusError? (origin : Origin) (size count : Nat) (ending : Ending) : Option DecodeError :=
  match origin with
  | .text _ =>
      if size < count then some (.malformed .trailingCharacters)
      else match ending with
        | .closed => none
        | .trailingComma => some (.malformed .trailingComma)
        | .noComma => some (.malformed .trailingCharacters)
        | .eof => some (.malformed .eofInList)
  | .value => if size < count then some (.wrongLength count "fewer elements in array") else none
  | .buffered _ =>
      if size < count then some (.wrongLength count (elements size ++ " in sequence")) else none

def decodeRecord {αs : List Type} {β : Type} (name : String) (fields : Fields αs)
    (make : Row αs → β) : Decoder β := fun origin document =>
  match document with
  | .object members ending => do
      let inner ← origin.enter
      let slots ← fields.putAll inner fields.noSlots members
      unlessFault ending.objectError? ((fields.fill slots).map make)
  | .array items ending => do
      let inner ← origin.enter
      let short index :=
        .wrongLength index ("struct " ++ name ++ " with " ++ elements fields.size)
      let row ← fields.fillFrom inner ending.listError? short 0 items
      match surplusError? origin fields.size items.length ending with
      | some error => .error error
      | none => .ok (make row)
  | other => .error (mismatch ("struct " ++ name) other)

end Cohort.Json
