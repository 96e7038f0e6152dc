import Cohort.Sql.Expr.Parser

/-!
A reader that counts its levels. `readExpr` is told how many levels are left; this one has a counter
instead, which goes up in front of what stands in a level and down behind it, and opens no level
while the counter stands at the limit. What fails leaves the tokens and the counter where they are,
and only an unreadable condition starts over, from its own first token.

Every production is told which levels stand around it, and when it ends, one way or the other, it
takes down where the counter stood in front of it and where it stands behind it.
-/

namespace Cohort.Sql

inductive Level where
  | parentheses | negation | subquery | call
  deriving DecidableEq, Repr

inductive Production where
  | disjunction | conjunction | item | condition | primary | existence | subquery | column
  | predicate | operand | term | arguments | interval | fragment
  deriving DecidableEq, Repr

structure Call where
  production : Production
  within : List Level
  entered : Nat
  left : Nat
  deriving DecidableEq, Repr

structure Machine where
  tokens : List Token
  depth : Nat
  calls : List Call

namespace Machine

def start (tokens : List Token) : Machine :=
  ⟨tokens, 0, []⟩

def goTo (machine : Machine) (tokens : List Token) : Machine :=
  { machine with tokens }

end Machine

/-- Reads one thing or fails, and leaves the machine behind in either case. -/
def Counted (α : Type) : Type :=
  Machine → Option α × Machine

namespace Counted

variable {α β : Type}

instance : Monad Counted where
  pure value := fun machine => (some value, machine)
  bind first next := fun machine =>
    match first machine with
    | (some value, after) => next value after
    | (none, after) => (none, after)

def fail : Counted α :=
  fun machine => (none, machine)

def off (read : Read α) : Counted α := fun machine =>
  match read machine.tokens with
  | some (value, rest) => (some value, machine.goTo rest)
  | none => (none, machine)

def advance (move : List Token → Option (List Token)) : Counted Unit :=
  off fun tokens => (move tokens).map fun rest => ((), rest)

def expect (kind : TokenKind) : Counted Unit :=
  advance (Sql.expect kind)

def branch (kind : TokenKind) (behind otherwise : Counted α) : Counted α := fun machine =>
  match Sql.expect kind machine.tokens with
  | some rest => behind (machine.goTo rest)
  | none => otherwise machine

def resume (rest : List Token) (body : Counted α) : Counted α :=
  fun machine => body (machine.goTo rest)

def bounded (loop : List Token → Counted α) : Counted α :=
  fun machine => loop machine.tokens machine

def nested (body : Counted α) : Counted α := fun machine =>
  if maxNesting ≤ machine.depth then (none, machine)
  else
    let (result, after) := body { machine with depth := machine.depth + 1 }
    (result, { after with depth := after.depth - 1 })

def noted (production : Production) (within : List Level) (body : Counted α) : Counted α :=
  fun machine =>
    let (result, after) := body machine
    let call : Call := ⟨production, within, machine.depth, after.depth⟩
    (result, { after with calls := after.calls ++ [call] })

def separated (separator : TokenKind) (item : Counted α) : List Token → Counted (List α)
  | [] => do
      let first ← item
      pure [first]
  | _ :: bound => do
      let first ← item
      branch separator
        (do
          let others ← separated separator item bound
          pure (first :: others))
        (pure [first])

def operands (operand : Counted Operand) : Counted (List Operand) := fun machine =>
  if startsWith (.mark .rparen) machine.tokens then (some [], machine)
  else bounded (separated (.mark .comma) operand) machine

def term (within : List Level) (args : Counted (List Operand)) : Counted Operand :=
  noted .term within fun machine =>
    match machine.tokens with
    | [] => (none, machine)
    | token :: rest => match token.kind with
      | .identifier name =>
          resume rest (branch (.mark .lparen)
            (do
              let args ← args
              expect (.mark .rparen)
              pure (.call name args))
            (branch (.mark .dot)
              (do
                let column ← off readName
                pure (.column ⟨some name, column⟩))
              (pure (.column ⟨none, name⟩)))) machine
      | .keyword .INTERVAL => resume rest (noted .interval within (off readInterval)) machine
      -- The other terms hold no operands.
      | _ => off (readTerm fun _ => none) machine

def sum (term : Counted Operand) (left : Operand) : List Token → Counted Operand
  | [] => pure left
  | _ :: bound => fun machine =>
      match readSign machine.tokens with
      | some (sign, rest) => resume rest (do
          let right ← term
          sum term (.sum left sign right) bound) machine
      | none => (some left, machine)

/-- An operand. Every level takes one of the allowance, so that of one above the limit something is
left. -/
def operand : Nat → List Level → Counted Operand
  | 0, _ => fail
  | allowance + 1, within =>
      let inner := .call :: within
      let term := term within (nested (noted .arguments inner (operands (operand allowance inner))))
      noted .operand within do
        let first ← term
        bounded (sum term first)

def accept (kind : TokenKind) : Counted Bool :=
  branch kind (pure true) (pure false)

def relation (operand : Counted Operand) (target : Operand) (negated : Bool) : Counted Predicate :=
  fun machine =>
    match machine.tokens with
    | [] => if negated then (none, machine) else (some (.bare target), machine)
    | token :: rest => match token.kind with
      | .comparison op =>
          if negated then (none, machine)
          else resume rest (do
            let right ← operand
            pure (.compare target op right)) machine
      | .keyword .BETWEEN => resume rest (do
          let low ← operand
          expect (.keyword .AND)
          let high ← operand
          pure (.between target low high negated)) machine
      | .keyword .LIKE => resume rest (do
          let pattern ← operand
          pure (.like target pattern negated)) machine
      | .keyword .IN => resume rest (do
          expect (.mark .lparen)
          let values ← operands operand
          expect (.mark .rparen)
          pure (.oneOf target values negated)) machine
      | .keyword .IS =>
          if negated then (none, machine)
          else resume rest (do
            let isNot ← accept (.keyword .NOT)
            expect (.keyword .NULL)
            pure (.isNull target isNot)) machine
      | kind =>
          if endsFragment kind && !negated then (some (.bare target), machine) else (none, machine)

def predicate (within : List Level) (operand : Counted Operand) : Counted Predicate :=
  noted .predicate within do
    let target ← operand
    let negated ← accept (.keyword .NOT)
    relation operand target negated

def fragment (within : List Level) : Counted Expr :=
  noted .fragment within fun machine =>
    let (fragment, rest) := splitFragment 0 machine.tokens
    (some (.predicate (.unparsed (sourceText fragment))), machine.goTo rest)

def recovering (within : List Level) (condition : Counted Expr) : Counted Expr :=
  noted .item within fun machine =>
    match condition machine with
    | (some expr, after) => (some expr, after)
    | (none, after) => fragment within (after.goTo machine.tokens)

def conjunction (within : List Level) (condition : Counted Expr) : Counted Expr :=
  noted .conjunction within do
    let items ← bounded (separated (.keyword .AND) (recovering within condition))
    pure (foldItems .and items)

def disjunction (within : List Level) (condition : Counted Expr) : Counted Expr :=
  noted .disjunction within do
    let items ← bounded (separated (.keyword .OR) (conjunction within condition))
    pure (foldItems .or items)

def column (within : List Level) : Counted Column :=
  noted .column within (off readColumn)

def join (within : List Level) : Counted Join := do
  let table ← off readName
  expect (.keyword .ON)
  let left ← column within
  expect (.comparison .eq)
  let right ← column within
  pure ⟨table, left, right⟩

def joins (within : List Level) : List Token → Counted (List Join)
  | [] => pure []
  | _ :: bound => fun machine =>
      match expectJoin machine.tokens with
      | none => (some [], machine)
      | some none => (none, machine)
      | some (some rest) => resume rest (do
          let first ← join within
          let others ← joins within bound
          pure (first :: others)) machine

def optional (keyword : Keyword) (part : Counted α) : Counted (Option α) :=
  branch (.keyword keyword)
    (do
      let value ← part
      pure (some value))
    (pure none)

def subquery (within : List Level) (condition : Counted Expr) (predicate : Counted Predicate) :
    Counted Subquery :=
  noted .subquery within do
    expect (.keyword .SELECT)
    advance (skipSelection 0)
    expect (.keyword .FROM)
    let table ← off readName
    let joins ← bounded (joins within)
    let filter ← optional .WHERE (disjunction within condition)
    let groupBy ← optional .GROUP do
      expect (.keyword .BY)
      column within
    let having ← optional .HAVING predicate
    pure ⟨table, joins, filter, groupBy, having⟩

def existence (negated : Bool) (within : List Level) (condition : Counted Expr)
    (predicate : Counted Predicate) : Counted Expr :=
  noted .existence within do
    expect (.mark .lparen)
    let query ← subquery within condition predicate
    expect (.mark .rparen)
    pure (.exist negated query)

def primary (within : List Level) (group : Counted Expr) (predicate : Counted Predicate) :
    Counted Expr :=
  noted .primary within <|
    branch (.mark .lparen)
      (do
        let inner ← group
        expect (.mark .rparen)
        pure (.grouped inner))
      (do
        let p ← predicate
        pure (.predicate p))

def forms (exists_ : Bool → Counted Expr) (negation primary : Counted Expr) : Counted Expr :=
  branch (.keyword .NOT)
    (branch (.keyword .EXISTS) (exists_ true)
      (do
        let inner ← negation
        pure (.not inner)))
    (branch (.keyword .EXISTS) (exists_ false) primary)

def condition : Nat → List Level → Counted Expr
  | 0, _ => fail
  | allowance + 1, within =>
      let inner (level : Level) := condition allowance (level :: within)
      let exists_ (negated : Bool) :=
        existence negated (.subquery :: within) (inner .subquery)
          (predicate (.subquery :: within) (operand allowance (.subquery :: within)))
      let group := disjunction (.parentheses :: within) (inner .parentheses)
      noted .condition within <|
        forms (fun negated => nested (exists_ negated)) (nested (inner .negation))
          (primary within (nested group) (predicate within (operand (allowance + 1) within)))

def expression (allowance : Nat) : Counted Expr := fun machine =>
  match machine.tokens with
  | [] => (none, machine)
  | _ => disjunction [] (condition allowance []) machine

end Counted

end Cohort.Sql
