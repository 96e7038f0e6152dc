import Cohort.Decimal.Digits
import Cohort.Decimal.Nearest
import Cohort.Json.Document
import Cohort.Text.Bytes

/-!
Reading JSON text. Every reader takes a bound on how many steps it may go; the length of the text
is always enough.
-/

namespace Cohort.Json

open Decimal (digitsValue)
open Text (byteLength)

def isSpace (c : Char) : Bool :=
  c == ' ' || c == '\n' || c == '\t' || c == '\r'

def skipSpaces (cs : List Char) : List Char :=
  cs.dropWhile isSpace

/-- A document and the text behind it, or no text if the document breaks off at a fault. -/
abbrev Found := Document × Option (List Char)

def stopAt (error : SyntaxError) : Found :=
  (.broken (.both error), none)

/-- The characters of a string, or the first fault a reader meets; the text behind the string, or
the first fault a skipper meets. -/
structure Chars where
  read : Except SyntaxError (List Char)
  rest : Except SyntaxError (List Char)

namespace Chars

def stop (error : SyntaxError) : Chars :=
  ⟨.error error, .error error⟩

def push (c : Char) (chars : Chars) : Chars :=
  { chars with read := chars.read.map (c :: ·) }

def spoil (error : SyntaxError) (chars : Chars) : Chars :=
  { chars with read := .error error }

def fault (error : SyntaxError) : Except SyntaxError (List Char) → Fault
  | .ok _ => ⟨error, none⟩
  | .error other => ⟨error, some other⟩

def result (chars : Chars) : Except Fault String × Option (List Char) :=
  let text := match chars.read with
    | .ok cs => .ok (String.ofList cs)
    | .error error => .error (fault error chars.rest)
  (text, chars.rest.toOption)

end Chars

def hexValue? (c : Char) : Option Nat :=
  if '0' ≤ c ∧ c ≤ '9' then some (c.toNat - '0'.toNat)
  else if 'a' ≤ c ∧ c ≤ 'f' then some (c.toNat - 'a'.toNat + 10)
  else if 'A' ≤ c ∧ c ≤ 'F' then some (c.toNat - 'A'.toNat + 10)
  else none

def readHex (cs : List Char) : Except SyntaxError Nat :=
  match cs.take 4 with
  | [a, b, c, d] =>
      match hexValue? a, hexValue? b, hexValue? c, hexValue? d with
      | some a, some b, some c, some d => .ok (((a * 16 + b) * 16 + c) * 16 + d)
      | _, _, _, _ => .error .invalidEscape
  | few => .error (if byteLength few < 4 then .eofInString else .invalidEscape)

def escaped? (c : Char) : Option Char :=
  if c = '\x22' then some '\x22'
  else if c = '\\' then some '\\'
  else if c = '/' then some '/'
  else if c = 'b' then some '\x08'
  else if c = 'f' then some '\x0c'
  else if c = 'n' then some '\n'
  else if c = 'r' then some '\r'
  else if c = 't' then some '\t'
  else none

def isLeading (unit : Nat) : Bool :=
  0xd800 ≤ unit && unit ≤ 0xdbff

def isTrailing (unit : Nat) : Bool :=
  0xdc00 ≤ unit && unit ≤ 0xdfff

def pairChar (leading trailing : Nat) : Char :=
  Char.ofNat (0x10000 + (leading - 0xd800) * 0x400 + (trailing - 0xdc00))

/-- The string behind its opening quote. A bound as long as the text, such as the text itself, is
never used up. -/
def readChars : List Char → List Char → Chars
  | [], _ => .stop .eofInString
  | _ :: _, [] => .stop .eofInString
  | _ :: bound, c :: rest =>
      if c = '\x22' then ⟨.ok [], .ok rest⟩
      else if c.toNat < 0x20 then .stop .controlCharacter
      else if c ≠ '\\' then (readChars bound rest).push c
      else match rest with
        | [] => .stop .eofInString
        | 'u' :: rest =>
            match readHex rest with
            | .error error => .stop error
            | .ok unit =>
                let rest := rest.drop 4
                if isTrailing unit then (readChars bound rest).spoil .loneSurrogate
                else if !isLeading unit then (readChars bound rest).push (Char.ofNat unit)
                else match rest with
                  | '\\' :: 'u' :: second =>
                      match readHex second with
                      | .error error => .stop error
                      | .ok trailing =>
                          let after := readChars bound (second.drop 4)
                          if isTrailing trailing then after.push (pairChar unit trailing)
                          else after.spoil .loneSurrogate
                  | ['\\'] => .stop .eofInString
                  | [] => .stop .eofInString
                  | _ => (readChars bound rest).spoil .unpairedSurrogate
        | e :: rest =>
            match escaped? e with
            | some c => (readChars bound rest).push c
            | none => .stop .invalidEscape

def readString (cs : List Char) : Except Fault String × Option (List Char) :=
  (readChars cs cs).result

structure Numeral where
  negative : Bool
  whole : List Char
  fraction : List Char
  exponent : Option Int

/-- The number; a whole number that does not fit 64 bits, and minus zero, are binary numbers. -/
def Numeral.toNumber? (numeral : Numeral) : Option Number :=
  let whole := digitsValue numeral.whole
  let isWhole := numeral.fraction.isEmpty && numeral.exponent.isNone
  if isWhole && !numeral.negative && decide (whole ≤ Decimal.maxU64) then some (.int whole)
  else if isWhole && numeral.negative && whole != 0 && decide (whole ≤ Decimal.signBit) then
    some (.int (-(whole : Int)))
  else
    let digits := digitsValue (numeral.whole ++ numeral.fraction)
    let exponent := numeral.exponent.getD 0 - numeral.fraction.length
    (Decimal.nearest digits exponent).map fun bits =>
      .float (if numeral.negative then bits + UInt64.ofNat Decimal.signBit else bits)

/-- A number that breaks off; a skipper does not tell its end from a wrong character. -/
def unfinishedNumber : Fault :=
  ⟨.eofInNumber, some .invalidNumber⟩

def readDigits (cs : List Char) : Except Fault (List Char × List Char) :=
  match cs with
  | [] => .error unfinishedNumber
  | c :: _ =>
      if c.isDigit then .ok (cs.takeWhile Char.isDigit, cs.dropWhile Char.isDigit)
      else .error (.both .invalidNumber)

def readWhole (cs : List Char) : Except Fault (List Char × List Char) := do
  let (digits, rest) ← readDigits cs
  if digits.head? = some '0' ∧ digits.length ≠ 1 then .error (.both .invalidNumber)
  else .ok (digits, rest)

def readFraction : List Char → Except Fault (List Char × List Char)
  | '.' :: rest => readDigits rest
  | rest => .ok ([], rest)

def readExponent : List Char → Except Fault (Option Int × List Char)
  | c :: rest =>
      if c = 'e' ∨ c = 'E' then do
        let (negative, rest) := match rest with
          | '-' :: rest => (true, rest)
          | '+' :: rest => (false, rest)
          | rest => (false, rest)
        let (digits, rest) ← readDigits rest
        let size : Int := digitsValue digits
        .ok (some (if negative then -size else size), rest)
      else .ok (none, c :: rest)
  | [] => .ok (none, [])

def readNumeral (negative : Bool) (cs : List Char) : Except Fault (Numeral × List Char) := do
  let (whole, rest) ← readWhole cs
  let (fraction, rest) ← readFraction rest
  let (exponent, rest) ← readExponent rest
  .ok (⟨negative, whole, fraction, exponent⟩, rest)

def readNumber (negative : Bool) (cs : List Char) : Found :=
  match readNumeral negative cs with
  | .error fault => (.broken fault, none)
  | .ok (numeral, rest) =>
      match numeral.toNumber? with
      | some n => (.number n, some rest)
      | none => (.broken ⟨.numberOutOfRange, none⟩, some rest)

def readWord (meaning : Document) : List Char → List Char → Found
  | [], rest => (meaning, some rest)
  | _ :: _, [] => stopAt .eofInWord
  | letter :: letters, c :: rest =>
      if c = letter then readWord meaning letters rest else stopAt .expectedWord

mutual

def readValue : Nat → List Char → Found
  | 0, _ => stopAt .eofInValue
  | bound + 1, cs =>
      match skipSpaces cs with
      | [] => stopAt .eofInValue
      | c :: rest =>
          if c = 'n' then readWord .null ['u', 'l', 'l'] rest
          else if c = 't' then readWord (.bool true) ['r', 'u', 'e'] rest
          else if c = 'f' then readWord (.bool false) ['a', 'l', 's', 'e'] rest
          else if c = '-' then readNumber true rest
          else if c.isDigit then readNumber false (c :: rest)
          else if c = '\x22' then
            match readString rest with
            | (.ok s, rest) => (.string s, rest)
            | (.error fault, rest) => (.broken fault, rest)
          else if c = '[' then
            let (items, ending, rest) := readItems bound rest
            (.array items ending, rest)
          else if c = '\x7b' then
            let (members, ending, rest) := readMembers bound rest
            (.object members ending, rest)
          else stopAt .expectedValue

def readItems : Nat → List Char → List Document × Ending × Option (List Char)
  | 0, _ => ([], .eof, none)
  | bound + 1, cs =>
      match skipSpaces cs with
      | [] => ([], .eof, none)
      | ']' :: rest => ([], .closed, some rest)
      | rest => readItem bound rest

def readItem : Nat → List Char → List Document × Ending × Option (List Char)
  | 0, _ => ([], .eof, none)
  | bound + 1, cs =>
      match readValue bound cs with
      | (item, none) => ([item], .eof, none)
      | (item, some rest) =>
          match skipSpaces rest with
          | [] => ([item], .eof, none)
          | ']' :: rest => ([item], .closed, some rest)
          | ',' :: rest =>
              match skipSpaces rest with
              | ']' :: _ => ([item], .trailingComma, none)
              | rest =>
                  let (items, ending, rest) := readItem bound rest
                  (item :: items, ending, rest)
          | _ => ([item], .noComma, none)

def readMembers : Nat → List Char → List (Except Fault String × Document) × Ending ×
    Option (List Char)
  | 0, _ => ([], .eof, none)
  | bound + 1, cs =>
      match skipSpaces cs with
      | [] => ([], .eof, none)
      | '\x7d' :: rest => ([], .closed, some rest)
      | rest => readMember bound rest

def readMember : Nat → List Char → List (Except Fault String × Document) × Ending ×
    Option (List Char)
  | 0, _ => ([], .eof, none)
  | bound + 1, cs =>
      match cs with
      | '\x22' :: rest =>
          match readString rest with
          | (key, none) => ([(key, .null)], .eof, none)
          | (key, some rest) =>
              let found := match skipSpaces rest with
                | ':' :: rest => readValue bound rest
                | [] => stopAt .eofInObject
                | _ => stopAt .expectedColon
              match found with
              | (value, none) => ([(key, value)], .eof, none)
              | (value, some rest) =>
                  match skipSpaces rest with
                  | [] => ([(key, value)], .eof, none)
                  | '\x7d' :: rest => ([(key, value)], .closed, some rest)
                  | ',' :: rest =>
                      match skipSpaces rest with
                      | '\x7d' :: _ => ([(key, value)], .trailingComma, none)
                      | [] =>
                          let missing : Fault := ⟨.eofInValue, some .eofInObject⟩
                          ([(key, value), (.error missing, .null)], .eof, none)
                      | rest =>
                          let (members, ending, rest) := readMember bound rest
                          ((key, value) :: members, ending, rest)
                  | _ => ([(key, value)], .noComma, none)
      | _ => ([(.error (.both .keyNotString), .null)], .eof, none)

end

/-- The document at the start of a text. An opening bracket takes three steps of the bound, and any
other character one at most. -/
def readDocument (text : String) : Found :=
  let cs := text.toList
  readValue (3 * cs.length + 3) cs

def trailingError? : Option (List Char) → Option SyntaxError
  | some rest => if (skipSpaces rest).isEmpty then none else some .trailingCharacters
  | none => none

def maxDepth : Nat := 127

def Value.parse (text : String) : Except SyntaxError Value :=
  let (document, rest) := readDocument text
  match (document.readError? maxDepth).or (trailingError? rest) with
  | some error => .error error
  | none => .ok document.toValue

end Cohort.Json
