import Cohort.Sql.Token
import Cohort.Text.Blank
import Cohort.Text.Letter
import Cohort.Text.Numeric

/-!
Cutting a text into tokens. Blanks and comments (from two hyphens to the end of the line) are
layout. Nothing stops the lexer: a character that starts no token, and a literal without its end,
become illegal tokens.
-/

namespace Cohort.Sql

open Text (byteLength isBlank isLetter isNumeric quoteMark)

def splitLine : List Char → List Char × List Char
  | [] => ([], [])
  | c :: rest =>
      if c = '\n' then ([c], rest)
      else
        let (line, after) := splitLine rest
        (c :: line, after)

/-- The layout at the start of a text, and what follows; `inComment` tells that the start lies
within a comment. -/
def splitLayout (inComment : Bool) : List Char → List Char × List Char
  | [] => ([], [])
  | c :: rest =>
      if inComment then
        let (layout, after) := splitLayout (c != '\n') rest
        (c :: layout, after)
      else if isBlank c then
        let (layout, after) := splitLayout false rest
        (c :: layout, after)
      else if c = '-' ∧ rest.head? = some '-' then
        let (layout, after) := splitLayout true rest
        (c :: layout, after)
      else ([], c :: rest)

/-- The raw characters of a string literal behind its opening quote, and what follows its closing
quote; a doubled quote does not close it. -/
def splitString : List Char → Option (List Char × List Char)
  | [] => none
  | [c] => if c = quoteMark then some ([], []) else none
  | c :: d :: rest =>
      if c = quoteMark then
        if d = quoteMark then (splitString rest).map fun (raw, after) => (c :: d :: raw, after)
        else some ([], d :: rest)
      else (splitString (d :: rest)).map fun (raw, after) => (c :: raw, after)

def splitQuoted (quote : Char) : List Char → Option (List Char × List Char)
  | [] => none
  | c :: rest =>
      if c = quote then some ([], rest)
      else (splitQuoted quote rest).map fun (name, after) => (c :: name, after)

def isWordChar (c : Char) : Bool :=
  isLetter c || isNumeric c || c == '_'

def isWordStart (c : Char) : Bool :=
  isLetter c || c == '_'

def splitNumber (cs : List Char) : List Char × List Char :=
  let whole := cs.takeWhile Char.isDigit
  match cs.dropWhile Char.isDigit with
  | '.' :: d :: rest =>
      if d.isDigit then
        (whole ++ '.' :: (d :: rest).takeWhile Char.isDigit, (d :: rest).dropWhile Char.isDigit)
      else (whole, '.' :: d :: rest)
  | after => (whole, after)

def wordKind (word : List Char) : TokenKind :=
  match Keyword.ofWord? word with
  | some keyword => .keyword keyword
  | none => .identifier (String.ofList word)

def readToken (c : Char) (cs : List Char) : TokenKind × List Char × List Char :=
  if c = '=' then (.comparison .eq, [], cs)
  else if c = '(' then (.mark .lparen, [], cs)
  else if c = ')' then (.mark .rparen, [], cs)
  else if c = ',' then (.mark .comma, [], cs)
  else if c = '.' then (.mark .dot, [], cs)
  else if c = ';' then (.mark .semicolon, [], cs)
  else if c = '*' then (.mark .star, [], cs)
  else if c = '+' then (.mark .plus, [], cs)
  else if c = '-' then (.mark .minus, [], cs)
  else if c = '<' then
    match cs with
    | '=' :: rest => (.comparison .le, ['='], rest)
    | '>' :: rest => (.comparison .ne, ['>'], rest)
    | _ => (.comparison .lt, [], cs)
  else if c = '>' then
    match cs with
    | '=' :: rest => (.comparison .ge, ['='], rest)
    | _ => (.comparison .gt, [], cs)
  else if c = '!' then
    match cs with
    | '=' :: rest => (.comparison .ne, ['='], rest)
    | _ => (.illegal, [], cs)
  else if c = quoteMark then
    match splitString cs with
    | some (raw, rest) => (.string (String.ofList raw), raw ++ [quoteMark], rest)
    | none => (.illegal, cs, [])
  else if c = '\x22' ∨ c = '\x60' then
    match splitQuoted c cs with
    | some (name, rest) => (.identifier (String.ofList name), name ++ [c], rest)
    | none => (.illegal, cs, [])
  else if c.isDigit then
    let (digits, rest) := splitNumber cs
    (.number (String.ofList (c :: digits)), digits, rest)
  else if isWordStart c then
    let word := cs.takeWhile isWordChar
    (wordKind (c :: word), word, cs.dropWhile isWordChar)
  else (.illegal, [], cs)

/-- The tokens of a text that starts at byte `offset`. Each token takes at least one character, so
a bound as long as the text is never used up. -/
def scan : Nat → Nat → List Char → List Token
  | 0, _, _ => []
  | bound + 1, offset, text =>
      let (layout, body) := splitLayout false text
      match body with
      | [] => []
      | c :: cs =>
          let (kind, more, rest) := readToken c cs
          let start := offset + byteLength layout
          ⟨kind, layout, c :: more, start⟩ :: scan bound (start + byteLength (c :: more)) rest

def tokenize (text : String) : List Token :=
  scan text.toList.length 0 text.toList

end Cohort.Sql
