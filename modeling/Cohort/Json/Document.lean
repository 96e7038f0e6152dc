import Cohort.Json.Value

/-!
JSON text as it was found. A text with a fault is still a tree up to the fault, so that whoever
reads the tree from left to right meets the fault where it stands, and may refuse what comes before
it for reasons of their own.
-/

namespace Cohort.Json

inductive SyntaxError where
  | eofInValue | eofInWord | eofInNumber | eofInString | eofInList | eofInObject
  | expectedValue | expectedWord | expectedColon | expectedListEnd | expectedObjectEnd
  | invalidNumber | numberOutOfRange
  | invalidEscape | controlCharacter | loneSurrogate | unpairedSurrogate
  | keyNotString | trailingComma | trailingCharacters | tooDeep
  deriving DecidableEq, Repr

def SyntaxError.message : SyntaxError → String
  | eofInValue | eofInWord | eofInNumber => "EOF while parsing a value"
  | eofInString => "EOF while parsing a string"
  | eofInList => "EOF while parsing a list"
  | eofInObject => "EOF while parsing an object"
  | expectedValue => "expected value"
  | expectedWord => "expected ident"
  | expectedColon => "expected `:`"
  | expectedListEnd => "expected `,` or `]`"
  | expectedObjectEnd => "expected `,` or `\x7d`"
  | invalidNumber => "invalid number"
  | numberOutOfRange => "number out of range"
  | invalidEscape => "invalid escape"
  | controlCharacter => "control character (\\u0000-\\u001F) found while parsing a string"
  | loneSurrogate => "lone leading surrogate in hex escape"
  | unpairedSurrogate => "unexpected end of hex escape"
  | keyNotString => "key must be a string"
  | trailingComma => "trailing comma"
  | trailingCharacters => "trailing characters"
  | tooDeep => "recursion limit exceeded"

/-- A fault in a text. Who reads a value and who only skips it look at it differently: a skipped
number has no range, and a skipped string no surrogates. -/
structure Fault where
  reading : SyntaxError
  skipping : Option SyntaxError
  deriving DecidableEq, Repr

def Fault.both (error : SyntaxError) : Fault :=
  ⟨error, some error⟩

inductive Ending where
  | closed
  /-- A comma, and then the closing bracket. -/
  | trailingComma
  /-- Something else where a comma or the closing bracket is due. -/
  | noComma
  | eof
  deriving DecidableEq, Repr

def Ending.listError? : Ending → Option SyntaxError
  | closed => none
  | trailingComma => some .trailingComma
  | noComma => some .expectedListEnd
  | eof => some .eofInList

def Ending.objectError? : Ending → Option SyntaxError
  | closed => none
  | trailingComma => some .trailingComma
  | noComma => some .expectedObjectEnd
  | eof => some .eofInObject

inductive Document where
  | null
  | bool (b : Bool)
  | number (n : Number)
  | string (s : String)
  | array (items : List Document) (ending : Ending)
  /-- A fault in place of a key ends the members. -/
  | object (members : List (Except Fault String × Document)) (ending : Ending)
  | broken (fault : Fault)

namespace Document

mutual

def skipError? : Document → Option SyntaxError
  | array items ending =>
      (skipItems? items).or
        (if ending = .trailingComma then some .expectedValue else ending.listError?)
  | object members ending =>
      (skipMembers? members).or
        (if ending = .trailingComma then some .keyNotString else ending.objectError?)
  | broken fault => fault.skipping
  | _ => none

def skipItems? : List Document → Option SyntaxError
  | [] => none
  | item :: rest => item.skipError?.or (skipItems? rest)

def skipMembers? : List (Except Fault String × Document) → Option SyntaxError
  | [] => none
  | (key, value) :: rest =>
      let keyError? := match key with
        | .ok _ => none
        | .error fault => fault.skipping
      keyError?.or (value.skipError?.or (skipMembers? rest))

end

mutual

/-- The first fault that a reader meets who may go `room` levels down. -/
def readError? (room : Nat) : Document → Option SyntaxError
  | array items ending =>
      match room with
      | 0 => some .tooDeep
      | room + 1 => (readItems? room items).or ending.listError?
  | object members ending =>
      match room with
      | 0 => some .tooDeep
      | room + 1 => (readMembers? room members).or ending.objectError?
  | broken fault => some fault.reading
  | _ => none

def readItems? (room : Nat) : List Document → Option SyntaxError
  | [] => none
  | item :: rest => (item.readError? room).or (readItems? room rest)

def readMembers? (room : Nat) : List (Except Fault String × Document) → Option SyntaxError
  | [] => none
  | (.error fault, _) :: _ => some fault.reading
  | (.ok _, value) :: rest => (value.readError? room).or (readMembers? room rest)

end

mutual

/-- The value of a document without faults. Members go by name, and the last of a name stays. -/
def toValue : Document → Value
  | null => .null
  | bool b => .bool b
  | number n => .number n
  | string s => .string s
  | array items _ => .array (toValues items)
  | object members _ => .ofMembers (toMembers members)
  | broken _ => .null

def toValues : List Document → List Value
  | [] => []
  | item :: rest => item.toValue :: toValues rest

def toMembers : List (Except Fault String × Document) → List (String × Value)
  | [] => []
  | (.ok name, value) :: rest => (name, value.toValue) :: toMembers rest
  | (.error _, _) :: rest => toMembers rest

end

mutual

def height : Document → Nat
  | array items _ => heightOfItems items + 1
  | object members _ => heightOfMembers members + 1
  | _ => 0

def heightOfItems : List Document → Nat
  | [] => 0
  | item :: rest => max item.height (heightOfItems rest)

def heightOfMembers : List (Except Fault String × Document) → Nat
  | [] => 0
  | (_, value) :: rest => max value.height (heightOfMembers rest)

end

end Document

mutual

def Value.toDocument : Value → Document
  | .null => .null
  | .bool b => .bool b
  | .number n => .number n
  | .string s => .string s
  | .array items => .array (Value.toDocuments items) .closed
  | .object members => .object (Value.toDocumentMembers members) .closed

def Value.toDocuments : List Value → List Document
  | [] => []
  | item :: rest => item.toDocument :: Value.toDocuments rest

def Value.toDocumentMembers : List (String × Value) → List (Except Fault String × Document)
  | [] => []
  | (name, value) :: rest => (.ok name, value.toDocument) :: Value.toDocumentMembers rest

end

end Cohort.Json
