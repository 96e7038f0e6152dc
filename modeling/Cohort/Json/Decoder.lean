import Cohort.Json.Printer
import Cohort.Json.Reader
import Cohort.Text.Quoted

/-!
Reading typed values off documents. What a decoder accepts, and which of two faults it names,
depends on where the document comes from: from a text that is being read, from a value that was
read before, or from members that were set aside until the kind of their object was known.
-/

namespace Cohort.Json

inductive Origin where
  /-- A text, in which the reader may go `room` more levels down. -/
  | text (room : Nat)
  | value
  /-- Members set aside; `shared` if more than one decoder is to look at them. -/
  | buffered (shared : Bool)
  deriving DecidableEq, Repr

inductive Shape where
  | null
  | bool (b : Bool)
  | number (n : Number)
  | string (s : String)
  | sequence
  | map

def Shape.describe : Shape → String
  | null => "null"
  | bool true => "boolean `true`"
  | bool false => "boolean `false`"
  | number (.int n) => "integer `" ++ (Number.int n).print ++ "`"
  | number (.float bits) => "floating point `" ++ (Number.float bits).print ++ "`"
  | string s => "string " ++ Text.display s
  | sequence => "sequence"
  | map => "map"

inductive DecodeError where
  | malformed (error : SyntaxError)
  | wrongType (found : Shape) (expected : String)
  | wrongValue (found : Shape) (expected : String)
  | wrongLength (length : Nat) (expected : String)
  | unknownVariant (name : String) (variants : List String)
  | missingField (name : String)
  | duplicateField (name : String)
  /-- None of the shapes of a type without a tag fits. -/
  | noVariant (type : String)

def offered : List String → String
  | [one] => "`" ++ one ++ "`"
  | [one, two] => "`" ++ one ++ "` or `" ++ two ++ "`"
  | names => "one of " ++ ", ".intercalate (names.map fun name => "`" ++ name ++ "`")

def DecodeError.message : DecodeError → String
  | malformed error => error.message
  | wrongType found expected => "invalid type: " ++ found.describe ++ ", expected " ++ expected
  | wrongValue found expected => "invalid value: " ++ found.describe ++ ", expected " ++ expected
  | wrongLength length expected =>
      "invalid length " ++ Decimal.numberText length ++ ", expected " ++ expected
  | unknownVariant name variants =>
      "unknown variant `" ++ name ++ "`, expected " ++ offered variants
  | missingField name => "missing field `" ++ name ++ "`"
  | duplicateField name => "duplicate field `" ++ name ++ "`"
  | noVariant type => "data did not match any variant of untagged enum " ++ type

abbrev Decoded := Except DecodeError

abbrev Decoder (α : Type) := Origin → Document → Decoded α

/-- The error for a document that is not of the expected type; a fault in it comes first. -/
def mismatch (expected : String) : Document → DecodeError
  | .null => .wrongType .null expected
  | .bool b => .wrongType (.bool b) expected
  | .number n => .wrongType (.number n) expected
  | .string s => .wrongType (.string s) expected
  | .array _ _ => .wrongType .sequence expected
  | .object _ _ => .wrongType .map expected
  | .broken fault => .malformed fault.reading

def Origin.enter : Origin → Decoded Origin
  | text 0 => .error (.malformed .tooDeep)
  | text (room + 1) => .ok (text room)
  | other => .ok other

def unlessFault {α : Type} (fault : Option SyntaxError) (answer : Decoded α) : Decoded α :=
  match fault with
  | some error => .error (.malformed error)
  | none => answer

def decodeInt (type : String) (least most : Int) : Decoder Int := fun _ document =>
  match document with
  | .number (.int n) =>
      if least ≤ n ∧ n ≤ most then .ok n else .error (.wrongValue (.number (.int n)) type)
  | other => .error (mismatch type other)

def decodeU64 : Decoder Nat := fun origin document =>
  (decodeInt "u64" 0 Decimal.maxU64 origin document).map Int.toNat

def decodeU32 : Decoder Nat := fun origin document =>
  (decodeInt "u32" 0 Decimal.maxU32 origin document).map Int.toNat

def decodeI64 : Decoder Int :=
  decodeInt "i64" (-Decimal.signBit) (Decimal.signBit - 1)

def decodeString : Decoder String := fun _ document =>
  match document with
  | .string s => .ok s
  | other => .error (mismatch "a string" other)

def decodeOption {α : Type} (decode : Decoder α) : Decoder (Option α) := fun origin document =>
  match document with
  | .null => .ok none
  | other => (decode origin other).map some

def Origin.fault? : Origin → Document → Option SyntaxError
  | text room, document => document.readError? room
  | _, _ => none

def decodeValue : Decoder Value := fun origin document =>
  unlessFault (origin.fault? document) (.ok document.toValue)

def decodeIgnored : Decoder Unit := fun origin document =>
  match origin with
  | .text _ => unlessFault document.skipError? (.ok ())
  | _ => .ok ()

def decodeItems {α : Type} (decode : Decoder α) (origin : Origin) :
    List Document → Decoded (List α)
  | [] => .ok []
  | item :: rest => do
      let first ← decode origin item
      let others ← decodeItems decode origin rest
      .ok (first :: others)

def decodeList {α : Type} (decode : Decoder α) : Decoder (List α) := fun origin document =>
  match document with
  | .array items ending => do
      let inner ← origin.enter
      let values ← decodeItems decode inner items
      unlessFault ending.listError? (.ok values)
  | other => .error (mismatch "a sequence" other)

/-- A map with the keys in their order; the last of several equal keys stays. -/
def decodeEntries {κ α : Type} (key : String → Decoded κ) (decode : Decoder α)
    (put : κ → α → List (κ × α) → List (κ × α)) (origin : Origin) :
    List (κ × α) → List (Except Fault String × Document) → Decoded (List (κ × α))
  | kept, [] => .ok kept
  | _, (.error fault, _) :: _ => .error (.malformed fault.reading)
  | kept, (.ok name, document) :: rest => do
      let key' ← key name
      let value ← decode origin document
      decodeEntries key decode put origin (put key' value kept) rest

def decodeMap {κ α : Type} (key : String → Decoded κ) (decode : Decoder α)
    (put : κ → α → List (κ × α) → List (κ × α)) : Decoder (List (κ × α)) :=
  fun origin document =>
    match document with
    | .object members ending => do
        let inner ← origin.enter
        let entries ← decodeEntries key decode put inner [] members
        unlessFault ending.objectError? (.ok entries)
    | other => .error (mismatch "a map" other)

def decodeUnit : Decoder Unit := fun origin document =>
  match origin, document with
  | _, .null => .ok ()
  | .buffered false, .object [] _ => .ok ()
  | _, other => .error (mismatch "unit" other)

/-- The fault that a reader names who looks for a variant. He does not read what cannot start one. -/
def variantFault : SyntaxError → SyntaxError
  | .expectedWord | .eofInWord | .eofInNumber | .invalidNumber | .numberOutOfRange => .expectedValue
  | other => other

def decodeTextVariant {α : Type} (choose : String → Decoded α) (room : Nat) : Document → Decoded α
  | .string s => choose s
  | .object members ending => do
      let inner ← (Origin.text room).enter
      match members with
      | [] =>
          .error (.malformed (if ending = .closed then .expectedValue else .eofInObject))
      | (.error fault, _) :: _ => .error (.malformed fault.reading)
      | (.ok name, content) :: others => do
          let variant ← choose name
          decodeUnit inner content
          if !others.isEmpty then .error (.malformed .expectedValue)
          else match ending with
            | .closed => .ok variant
            | .eof => .error (.malformed .eofInObject)
            | _ => .error (.malformed .expectedValue)
  | .broken fault => .error (.malformed (variantFault fault.reading))
  | _ => .error (.malformed .expectedValue)

def decodeSoundVariant {α : Type} (choose : String → Decoded α) (origin : Origin) :
    Document → Decoded α
  | .string s => choose s
  | .object [(.ok name, content)] _ => do
      let variant ← choose name
      decodeUnit origin content
      .ok variant
  | .object _ _ => .error (.wrongValue .map "map with a single key")
  | other => .error (mismatch "string or map" other)

def decodeVariant {α : Type} (choose : String → Decoded α) : Decoder α := fun origin document =>
  match origin with
  | .text room => decodeTextVariant choose room document
  | _ => decodeSoundVariant choose origin document

/-- The name of a variant of a tagged object; members set aside may give its number instead. -/
def decodeTag {α : Type} (choose : String → Decoded α) (variants : List α) : Decoder α :=
  fun origin document =>
    match origin, document with
    | _, .string s => choose s
    | .buffered _, .number (.int (.ofNat n)) =>
        match variants[n]? with
        | some variant => .ok variant
        | none =>
            let range := "variant index 0 <= i < " ++ Decimal.numberText variants.length
            .error (.wrongValue (.number (.int n)) range)
    | _, other => .error (mismatch "variant identifier" other)

def decodeText {α : Type} (decode : Decoder α) (text : String) : Decoded α := do
  let (document, rest) := readDocument text
  let answer ← decode (.text maxDepth) document
  unlessFault (trailingError? rest) (.ok answer)

def decodeFrom {α : Type} (decode : Decoder α) (value : Value) : Decoded α :=
  decode .value value.toDocument

end Cohort.Json
