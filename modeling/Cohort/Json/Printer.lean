import Cohort.Decimal.Style
import Cohort.Json.Value

/-!
JSON text, on one line or laid out over several.
-/

namespace Cohort.Json

/-- Numbers from `0.00001` up to, but not with, `1e+16` are positional. -/
def numberStyle : Decimal.Style := ⟨-5, 15⟩

def floatText (bits : UInt64) : List Char :=
  let sign := if Decimal.isNegative bits then ['-'] else []
  let magnitude :=
    if (Decimal.Binary.ofBits bits).mantissa = 0 then ['0', '.', '0']
    else numberStyle.write (Decimal.shortest bits)
  sign ++ magnitude

def intText : Int → List Char
  | .ofNat n => Decimal.digitText n
  | .negSucc n => '-' :: Decimal.digitText (n + 1)

def Number.print : Number → String
  | .int n => String.ofList (intText n)
  | .float bits => String.ofList (floatText bits)

def hexDigit (n : Nat) : Char :=
  Nat.digitChar n

def escapeChar (c : Char) : List Char :=
  if c = '\x22' then ['\\', '\x22']
  else if c = '\\' then ['\\', '\\']
  else if c = '\x08' then ['\\', 'b']
  else if c = '\x0c' then ['\\', 'f']
  else if c = '\n' then ['\\', 'n']
  else if c = '\r' then ['\\', 'r']
  else if c = '\t' then ['\\', 't']
  else if c.toNat < 0x20 then
    ['\\', 'u', '0', '0', hexDigit (c.toNat / 16), hexDigit (c.toNat % 16)]
  else [c]

def quote (s : String) : String :=
  String.ofList ('\x22' :: s.toList.flatMap escapeChar ++ ['\x22'])

mutual

def Value.print : Value → String
  | .null => "null"
  | .bool true => "true"
  | .bool false => "false"
  | .number n => n.print
  | .string s => quote s
  | .array items => "[" ++ ",".intercalate (printItems items) ++ "]"
  | .object members => "\x7b" ++ ",".intercalate (printMembers members) ++ "\x7d"

def printItems : List Value → List String
  | [] => []
  | item :: rest => item.print :: printItems rest

def printMembers : List (String × Value) → List String
  | [] => []
  | (name, value) :: rest => (quote name ++ ":" ++ value.print) :: printMembers rest

end

def newLine (level : Nat) : String :=
  String.ofList ('\n' :: List.replicate (2 * level) ' ')

def block (opening closing : String) (level : Nat) (parts : List String) : String :=
  if parts.isEmpty then opening ++ closing
  else
    opening ++ newLine (level + 1) ++ ("," ++ newLine (level + 1)).intercalate parts ++ newLine level
      ++ closing

mutual

def Value.layOut (level : Nat) : Value → String
  | .array items => block "[" "]" level (layOutItems (level + 1) items)
  | .object members => block "\x7b" "\x7d" level (layOutMembers (level + 1) members)
  | other => other.print

def layOutItems (level : Nat) : List Value → List String
  | [] => []
  | item :: rest => item.layOut level :: layOutItems level rest

def layOutMembers (level : Nat) : List (String × Value) → List String
  | [] => []
  | (name, value) :: rest =>
      (quote name ++ ": " ++ value.layOut level) :: layOutMembers level rest

end

def Value.pretty (value : Value) : String :=
  value.layOut 0

end Cohort.Json
