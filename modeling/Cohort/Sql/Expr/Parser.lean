import Cohort.Decimal.Digits
import Cohort.Sql.Expr

/-!
Reading an expression off tokens. `OR` binds weakest, then `AND`, then `NOT` and `EXISTS`, then the
predicates.

A condition that cannot be read does not stop the reader: the tokens up to the next `AND`, `OR` or
closing parenthesis of the same level become one unparsed predicate. Parentheses, `NOT`, `EXISTS`
and calls nest at most `maxNesting` levels deep; what lies deeper counts as unreadable.

Every function takes the tokens from where it starts and gives back what it read and the tokens
behind it. The functions of one level are built from those of the level within, so that the levels
left are what the recursion runs on.
-/

namespace Cohort.Sql

def maxNesting : Nat := 128

abbrev Read (α : Type) := List Token → Option (α × List Token)

def expect (kind : TokenKind) : List Token → Option (List Token)
  | [] => none
  | token :: rest => if token.kind = kind then some rest else none

def startsWith (kind : TokenKind) (tokens : List Token) : Bool :=
  (expect kind tokens).isSome

def accept (kind : TokenKind) (tokens : List Token) : Bool × List Token :=
  match expect kind tokens with
  | some rest => (true, rest)
  | none => (false, tokens)

def readName : Read String
  | [] => none
  | token :: rest => match token.kind with
    | .identifier name => some (name, rest)
    | _ => none

def readColumn : Read Column := fun tokens => do
  let (first, rest) ← readName tokens
  match expect (.mark .dot) rest with
  | some rest =>
      let (name, rest) ← readName rest
      some (⟨some first, name⟩, rest)
  | none => some (⟨none, first⟩, rest)

/-- What `item` reads, once and then again behind every separator. Each further item takes a
separator, so a bound as long as the tokens, such as the tokens themselves, is never used up. -/
def readSeparated {α : Type} (separator : TokenKind) (item : Read α) :
    List Token → Read (List α)
  | [], tokens => (item tokens).map fun (first, rest) => ([first], rest)
  | _ :: bound, tokens => do
      let (first, rest) ← item tokens
      match expect separator rest with
      | some rest =>
          let (others, rest) ← readSeparated separator item bound rest
          some (first :: others, rest)
      | none => some ([first], rest)

def readOperands (operand : Read Operand) : Read (List Operand) := fun tokens =>
  if startsWith (.mark .rparen) tokens then some ([], tokens)
  else readSeparated (.mark .comma) operand tokens tokens

/-- The amount of an interval and its unit; the unit may be part of the amount. -/
def readInterval : Read Operand
  | [] => none
  | token :: rest => do
      let amount ← match token.kind with
        | .string raw => some (String.ofList (Text.undoubleQuotes raw.toList))
        | .number digits => some digits
        | _ => none
      match readName rest with
      | some (unit, rest) => some (.interval (amount ++ " " ++ unit), rest)
      | none => some (.interval amount, rest)

def readTerm (args : Read (List Operand)) : Read Operand
  | [] => none
  | token :: rest => match token.kind with
    | .identifier name =>
        match expect (.mark .lparen) rest with
        | some rest => do
            let (args, rest) ← args rest
            let rest ← expect (.mark .rparen) rest
            some (.call name args, rest)
        | none =>
            match expect (.mark .dot) rest with
            | some rest => do
                let (column, rest) ← readName rest
                some (.column ⟨some name, column⟩, rest)
            | none => some (.column ⟨none, name⟩, rest)
    | .string raw => some (.string (String.ofList (Text.undoubleQuotes raw.toList)), rest)
    | .number digits => some (.number digits, rest)
    | .mark .minus =>
        match rest with
        | ⟨.number digits, _, _, _⟩ :: rest => some (.number ("-" ++ digits), rest)
        | _ => none
    | .keyword .NULL => some (.null, rest)
    | .mark .star => some (.star, rest)
    | .keyword .INTERVAL => readInterval rest
    | _ => none

def readSign : Read Sign
  | [] => none
  | token :: rest => match token.kind with
    | .mark .plus => some (.plus, rest)
    | .mark .minus => some (.minus, rest)
    | _ => none

def readSum (term : Read Operand) (left : Operand) : List Token → Read Operand
  | [], tokens => some (left, tokens)
  | _ :: bound, tokens =>
      match readSign tokens with
      | some (sign, rest) => do
          let (right, rest) ← term rest
          readSum term (.sum left sign right) bound rest
      | none => some (left, tokens)

def readOperand (room : Nat) : Read Operand := fun tokens =>
  let term := readTerm <| match room with
    | 0 => fun _ => none
    | room + 1 => readOperands (readOperand room)
  do
    let (first, rest) ← term tokens
    readSum term first rest rest

def endsFragment : TokenKind → Bool
  | .keyword .AND | .keyword .OR | .keyword .GROUP | .keyword .HAVING => true
  | .mark .rparen | .mark .semicolon => true
  | _ => false

def readRelation (operand : Read Operand) (target : Operand) (negated : Bool) : Read Predicate
  | [] => if negated then none else some (.bare target, [])
  | token :: rest => match token.kind with
    | .comparison op =>
        if negated then none
        else do
          let (right, rest) ← operand rest
          some (.compare target op right, rest)
    | .keyword .BETWEEN => do
        let (low, rest) ← operand rest
        let rest ← expect (.keyword .AND) rest
        let (high, rest) ← operand rest
        some (.between target low high negated, rest)
    | .keyword .LIKE => do
        let (pattern, rest) ← operand rest
        some (.like target pattern negated, rest)
    | .keyword .IN => do
        let rest ← expect (.mark .lparen) rest
        let (values, rest) ← readOperands operand rest
        let rest ← expect (.mark .rparen) rest
        some (.oneOf target values negated, rest)
    | .keyword .IS =>
        if negated then none
        else do
          let (isNot, rest) := accept (.keyword .NOT) rest
          let rest ← expect (.keyword .NULL) rest
          some (.isNull target isNot, rest)
    | kind => if endsFragment kind && !negated then some (.bare target, token :: rest) else none

def readPredicate (operand : Read Operand) : Read Predicate := fun tokens => do
  let (target, rest) ← operand tokens
  let (negated, rest) := accept (.keyword .NOT) rest
  readRelation operand target negated rest

/-- The tokens of an unreadable fragment and those behind it; `depth` counts the parentheses that
are open within the fragment. -/
def splitFragment : Nat → List Token → List Token × List Token
  | _, [] => ([], [])
  | depth, token :: rest =>
      let take (depth : Nat) :=
        let (fragment, after) := splitFragment depth rest
        (token :: fragment, after)
      match token.kind, depth with
      | .mark .lparen, depth => take (depth + 1)
      | .mark .rparen, depth + 1 => take depth
      | kind, 0 => if endsFragment kind then ([], token :: rest) else take 0
      | _, depth => take depth

/-- What `condition` reads; where it reads nothing, the fragment as an unparsed predicate. -/
def recovering (condition : Read Expr) (tokens : List Token) : Expr × List Token :=
  match condition tokens with
  | some result => result
  | none =>
      let (fragment, rest) := splitFragment 0 tokens
      (.predicate (.unparsed (sourceText fragment)), rest)

def foldItems (combine : List Expr → Expr) : List Expr → Expr
  | [item] => item
  | items => combine items

def readItems (separator : Keyword) (item : List Token → Expr × List Token) :
    List Token → List Token → List Expr × List Token
  | [], tokens =>
      let (first, rest) := item tokens
      ([first], rest)
  | _ :: bound, tokens =>
      let (first, rest) := item tokens
      match expect (.keyword separator) rest with
      | some rest =>
          let (others, rest) := readItems separator item bound rest
          (first :: others, rest)
      | none => ([first], rest)

def readConjunction (condition : Read Expr) (tokens : List Token) : Expr × List Token :=
  let (items, rest) := readItems .AND (recovering condition) tokens tokens
  (foldItems .and items, rest)

def readDisjunction (condition : Read Expr) (tokens : List Token) : Expr × List Token :=
  let (items, rest) := readItems .OR (readConjunction condition) tokens tokens
  (foldItems .or items, rest)

def skipSelection : Nat → List Token → Option (List Token)
  | _, [] => none
  | depth, token :: rest =>
      match token.kind, depth with
      | .keyword .FROM, 0 => some (token :: rest)
      | .mark .lparen, depth => skipSelection (depth + 1) rest
      | .mark .rparen, 0 => none
      | .mark .rparen, depth + 1 => skipSelection depth rest
      | _, depth => skipSelection depth rest

/-- The tokens behind `JOIN` or `INNER JOIN`; `none` inside is an `INNER` without its `JOIN`. -/
def expectJoin (tokens : List Token) : Option (Option (List Token)) :=
  match expect (.keyword .INNER) tokens with
  | some rest => some (expect (.keyword .JOIN) rest)
  | none => (expect (.keyword .JOIN) tokens).map some

def readJoin : Read Join := fun tokens => do
  let (table, rest) ← readName tokens
  let rest ← expect (.keyword .ON) rest
  let (left, rest) ← readColumn rest
  let rest ← expect (.comparison .eq) rest
  let (right, rest) ← readColumn rest
  some (⟨table, left, right⟩, rest)

def readJoins : List Token → Read (List Join)
  | [], tokens => some ([], tokens)
  | _ :: bound, tokens =>
      match expectJoin tokens with
      | none => some ([], tokens)
      | some rest => do
          let (first, rest) ← readJoin (← rest)
          let (others, rest) ← readJoins bound rest
          some (first :: others, rest)

def readOptional {α : Type} (keyword : Keyword) (part : Read α) : Read (Option α) := fun tokens =>
  match expect (.keyword keyword) tokens with
  | none => some (none, tokens)
  | some rest => (part rest).map fun (value, rest) => (some value, rest)

def readSubquery (condition : Read Expr) (predicate : Read Predicate) : Read Subquery :=
  fun tokens => do
    let rest ← expect (.keyword .SELECT) tokens
    let rest ← skipSelection 0 rest
    let rest ← expect (.keyword .FROM) rest
    let (table, rest) ← readName rest
    let (joins, rest) ← readJoins rest rest
    let (filter, rest) ← readOptional .WHERE (fun rest => some (readDisjunction condition rest)) rest
    let (groupBy, rest) ← readOptional .GROUP (fun rest => do
      readColumn (← expect (.keyword .BY) rest)) rest
    let (having, rest) ← readOptional .HAVING predicate rest
    some (⟨table, joins, filter, groupBy, having⟩, rest)

def readExists (negated : Bool) (condition : Read Expr) (predicate : Read Predicate) : Read Expr :=
  fun tokens => do
    let rest ← expect (.mark .lparen) tokens
    let (query, rest) ← readSubquery condition predicate rest
    let rest ← expect (.mark .rparen) rest
    some (.exist negated query, rest)

def opensLevel : TokenKind → Bool
  | .mark .lparen | .keyword .NOT | .keyword .EXISTS => true
  | _ => false

def readLevel (kind : TokenKind) (condition : Read Expr) (predicate : Read Predicate) : Read Expr :=
  fun tokens => match kind with
  | .keyword .EXISTS => readExists false condition predicate tokens
  | .keyword .NOT =>
      match expect (.keyword .EXISTS) tokens with
      | some rest => readExists true condition predicate rest
      | none => (condition tokens).map fun (inner, rest) => (.not inner, rest)
  | _ => do
      let (inner, rest) := readDisjunction condition tokens
      let rest ← expect (.mark .rparen) rest
      some (.grouped inner, rest)

def readCondition (room : Nat) : Read Expr
  | [] => none
  | token :: rest =>
      if opensLevel token.kind then
        match room with
        | 0 => none
        | room + 1 =>
            readLevel token.kind (readCondition room) (readPredicate (readOperand room)) rest
      else
        (readPredicate (readOperand room) (token :: rest)).map fun (predicate, rest) =>
          (.predicate predicate, rest)

/-- The expression at the start of the tokens; there is one unless there are no tokens. -/
def readExpr : Read Expr
  | [] => none
  | tokens => some (readDisjunction (readCondition maxNesting) tokens)

def leftover? (tokens : List Token) : Option Token :=
  (accept (.mark .semicolon) tokens).2.head?

def leftoverMessage (token : Token) : String :=
  "Unexpected token: " ++ token.kind.describe ++ " (at " ++ Decimal.numberText token.start ++ ".."
    ++ Decimal.numberText token.stop ++ ")"

def noTokensMessage : String := "Unexpected end of input"

end Cohort.Sql
