import Cohort.Decimal.Digits
import Cohort.Segment
import Cohort.Sql.Expr.Parser
import Cohort.Sql.Expr.Printer
import Cohort.Sql.Lexer

/-!
Statements read back as trees. The shape of a statement is that which a tree is written in: every
part of the outermost fold is a group, and so is every fold within. Equalities with a text and
ranges between two texts come back as filters. A sub-query comes back as an event that was performed
at least as often as its count says, with its time window and those of its filters that are of
these two forms. What does not come back is reported with a reason.
-/

namespace Cohort

open Sql (Expr Operand Predicate Subquery Token)

inductive DropReason where
  | noWhereClause | unparseable | unsupportedPredicate | unsupportedEvent | negation | trailingInput
  deriving DecidableEq, Repr

namespace DropReason

def name : DropReason → String
  | noWhereClause => "no_where_clause"
  | unparseable => "unparseable"
  | unsupportedPredicate => "unsupported_predicate"
  | unsupportedEvent => "unsupported_event"
  | negation => "negation"
  | trailingInput => "trailing_input"

def message : DropReason → String
  | noWhereClause => "no WHERE clause"
  | unparseable => "could not be parsed"
  | unsupportedPredicate => "only equals and between conditions are recognised"
  | unsupportedEvent => "event sub-query without a WHERE clause"
  | negation => "negated conditions are not recognised"
  | trailingInput => "text after the WHERE clause was ignored"

end DropReason

structure Dropped where
  text : String
  reason : DropReason
  deriving DecidableEq, Repr

def Dropped.message (dropped : Dropped) : String :=
  dropped.reason.message ++ ": " ++ dropped.text

structure Recovered where
  criteria : Criteria
  dataset : Option String
  dropped : List Dropped

def normalizeStatement (sql : String) : String :=
  let trimmed := (Text.trim sql).toList
  String.ofList (if trimmed.getLast? = some ';' then trimmed else trimmed ++ [';'])

def sameStatement (a b : String) : Bool :=
  (Sql.tokenize (normalizeStatement a)).map Token.kind
    == (Sql.tokenize (normalizeStatement b)).map Token.kind

/-- How many parentheses are open behind a token; a closing one without partner does not count. -/
def depthAfter (depth : Nat) (token : Token) : Nat :=
  match token.kind with
  | .mark .lparen => depth + 1
  | .mark .rparen => depth - 1
  | _ => depth

/-- The name behind the first `FROM` outside parentheses that a name follows. -/
def outerDataset (depth : Nat) : List Token → Option String
  | [] => none
  | token :: rest =>
      match depth, token.kind, Sql.readName rest with
      | 0, .keyword .FROM, some (name, _) => some name
      | _, _, _ => outerDataset (depthAfter depth token) rest

def untilSemicolon (depth : Nat) : List Token → List Token
  | [] => []
  | token :: rest =>
      if depth = 0 ∧ token.kind = .mark .semicolon then []
      else token :: untilSemicolon (depthAfter depth token) rest

def whereBody (depth : Nat) : List Token → Option (List Token)
  | [] => none
  | token :: rest =>
      if depth = 0 ∧ token.kind = .keyword .WHERE then some (untilSemicolon 0 rest)
      else whereBody (depthAfter depth token) rest

def splitFold : Expr → Combinator × List Expr
  | .and items => (.and, items)
  | .or items => (.or, items)
  | other => (.and, [other])

/-- Whether a predicate compares a number with itself, as the clause for every row does. -/
def isMatchAll : Predicate → Bool
  | .compare (.number a) .eq (.number b) => a == b
  | _ => false

/-- Whether a predicate ties a sub-query to the outer row or to a time window. -/
def isTie (predicate : Predicate) : Bool :=
  match predicate with
  | .compare (.column _) .eq (.column _) => true
  | other => other.interval?.isSome

def isCorrelation (expr : Expr) : Bool :=
  !expr.predicates.isEmpty && expr.predicates.all isTie

def predicateTable? : Predicate → Option String
  | .compare target _ _ => target.column?.bind (·.table)
  | .between target _ _ _ => target.column?.bind (·.table)
  | .like target _ _ => target.column?.bind (·.table)
  | .isNull target _ => target.column?.bind (·.table)
  | .oneOf target _ _ => target.column?.bind (·.table)
  | .bare _ => none
  | .unparsed _ => none

def foldTable? (members : List Expr) : Option String :=
  members.findSome? fun member =>
    match member.innermost with
    | .predicate p => predicateTable? p
    | _ => none

/-- The threshold of a comparison with a count; what does not fit 32 bits becomes the largest
number that does. -/
def countThreshold? : Predicate → Option Nat
  | .compare (.call name _) _ (.number digits) =>
      let cs := digits.toList
      if name.toList.map Char.toLower = ['c', 'o', 'u', 'n', 't'] ∧ cs ≠ [] ∧ cs.all Char.isDigit
      then some (min (Decimal.digitsValue cs) Decimal.maxU32)
      else none
  | _ => none

def readInteger? (text : String) : Option Int :=
  let (sign, digits) : Int × List Char := match text.toList with
    | '-' :: rest => (-1, rest)
    | '+' :: rest => (1, rest)
    | rest => (1, rest)
  if digits ≠ [] ∧ digits.all Char.isDigit then
    let n := sign * Decimal.digitsValue digits
    if -Decimal.signBit ≤ n ∧ n < Decimal.signBit then some n else none
  else none

def splitInterval? (text : String) : Option (Int × String) :=
  match Text.words text with
  | amount :: unit :: units =>
      (readInteger? amount).map fun n => (n, " ".intercalate (unit :: units))
  | _ => none

/-! ### Recovery -/

structure Ledger where
  lastId : Nat := 0
  dropped : List Dropped := []

abbrev Recovery := StateM Ledger

def freshId : Recovery Nat := fun ledger =>
  (ledger.lastId + 1, { ledger with lastId := ledger.lastId + 1 })

def drop (text : String) (reason : DropReason) : Recovery Unit := fun ledger =>
  ((), { ledger with dropped := ledger.dropped ++ [⟨text, reason⟩] })

def recoverFilter (predicate : Predicate) : Recovery (Option Filter) :=
  match predicate with
  | .compare (.column c) .eq (.string value) => do
      let id ← freshId
      pure (some ⟨id, c.name, .equals, .string value, none⟩)
  | .between (.column c) (.string low) (.string high) false => do
      let id ← freshId
      pure (some ⟨id, c.name, .between, .string low, some (.string high)⟩)
  | .unparsed text => do
      drop text .unparseable
      pure none
  | other =>
      if isMatchAll other then pure none
      else do
        drop other.print .unsupportedPredicate
        pure none

def recoverNested (member : Expr) : Recovery (Option Filter) :=
  match member.innermost with
  | .predicate p => recoverFilter p
  | other => do
      drop other.print .unsupportedPredicate
      pure none

def recoverFilters : List Expr → Recovery (List Filter)
  | [] => pure []
  | member :: rest => do
      let first ← recoverNested member
      let others ← recoverFilters rest
      pure (first.toList ++ others)

def defaultKey : String := "customer_id"

def defaultCount : Nat := 1

structure EventDraft where
  combinator : Combinator := .and
  filters : List Filter := []
  related : List Related

/-- The related conditions, the first one on a table taking a fold more. -/
def addRelated (table : String) (combinator : Combinator) (filters : List Filter) :
    List Related → List Related
  | [] => []
  | related :: rest =>
      if related.dataset = table then
        { related with combinator, filters := related.filters ++ filters } :: rest
      else related :: addRelated table combinator filters rest

/-- The draft with one conjunct more. The filters of a conjunct belong to the table that the first
of them names; without one, to the table of events. -/
def addConjunct (eventTable : String) (draft : EventDraft) (conjunct : Expr) :
    Recovery EventDraft := do
  let body := conjunct.unwrap
  if isCorrelation body then pure draft
  else
    let (combinator, members) := splitFold body
    let table := (foldTable? members).getD eventTable
    if table = eventTable then
      let filters ← recoverFilters members
      pure { draft with combinator, filters := draft.filters ++ filters }
    else if draft.related.any fun related => related.dataset == table then
      let filters ← recoverFilters members
      pure { draft with related := addRelated table combinator filters draft.related }
    else
      drop body.print .unsupportedPredicate
      pure draft

def addConjuncts (eventTable : String) : EventDraft → List Expr → Recovery EventDraft
  | draft, [] => pure draft
  | draft, conjunct :: rest => do
      let draft ← addConjunct eventTable draft conjunct
      addConjuncts eventTable draft rest

/-- The count of a sub-query. A comparison that is neither of a count nor of a time is dropped. -/
def recoverCount : Option Predicate → Recovery Nat
  | none => pure defaultCount
  | some having =>
      match countThreshold? having with
      | some count => pure count
      | none =>
          if having.interval?.isSome then pure defaultCount
          else do
            drop having.print .unsupportedPredicate
            pure defaultCount

/-- The time window of a sub-query: that of its filter, or else that of its comparison. -/
def recoverWindow (filter : Expr) (having : Option Predicate) : Option (Int × String) :=
  ((filter.predicates.findSome? Predicate.interval?).or (having.bind Predicate.interval?)).bind
    splitInterval?

def numberRelated : List Related → Recovery (List Related)
  | [] => pure []
  | related :: rest => do
      let id ← freshId
      let others ← numberRelated rest
      pure ({ related with id } :: others)

def recoverEvent (query : Subquery) (source : Expr) : Recovery (Option Event) :=
  match query.filter with
  | none => do
      drop source.print .unsupportedEvent
      pure none
  | some filter => do
      let count ← recoverCount query.having
      let window := recoverWindow filter query.having
      let joined : List Related :=
        query.joins.map fun join => ⟨0, join.table, join.left.name, [], .and, []⟩
      let conjuncts := match filter with
        | .and items => items
        | other => [other]
      let draft ← addConjuncts query.table { related := joined } conjuncts
      let related ← numberRelated draft.related
      let id ← freshId
      pure (some {
        id
        columnKey := defaultKey
        relatedColKey := defaultKey
        eventType := .performed
        frequency := some .atLeast
        count
        timeValue := window.map (·.1)
        timePeriod := window.map (·.2)
        filterCombinator := draft.combinator
        filters := draft.filters.map .filter
        combinator := .and
        related })

def closeGroup (combinator : Combinator) (members : List Member) : Recovery (Option Group) :=
  if members.isEmpty then pure none
  else do
    let id ← freshId
    pure (some ⟨id, combinator, members⟩)

mutual

def recoverMember : Expr → Recovery (Option Member)
  | .grouped inner => recoverMember inner
  | .and items => do
      let group ← closeGroup .and (← recoverMembers items)
      pure (group.map .group)
  | .or items => do
      let group ← closeGroup .or (← recoverMembers items)
      pure (group.map .group)
  | .not inner => do
      drop (Expr.not inner).print .negation
      pure none
  | .exist negated query => do
      let event ← recoverEvent query (.exist negated query)
      pure (event.map fun event => .condition (.event event))
  | .predicate p => do
      let filter ← recoverFilter p
      pure (filter.map fun filter => .condition (.filter filter))

def recoverMembers : List Expr → Recovery (List Member)
  | [] => pure []
  | item :: rest => do
      let first ← recoverMember item
      let others ← recoverMembers rest
      pure (first.toList ++ others)

end

def recoverGroup (fragment : Expr) : Recovery (Option Group) := do
  let (combinator, items) := splitFold fragment.unwrap
  closeGroup combinator (← recoverMembers items)

def recoverGroups : List Expr → Recovery (List Group)
  | [] => pure []
  | fragment :: rest => do
      let first ← recoverGroup fragment
      let others ← recoverGroups rest
      pure (first.toList ++ others)

def recoverCriteria (expr : Expr) : Recovery Criteria := do
  let (combinator, fragments) := splitFold expr
  let groups ← recoverGroups fragments
  pure ⟨[], groups, combinator⟩

def nothingRecovered (dataset : Option String) (text : List Char) (reason : DropReason) :
    Recovered :=
  ⟨{}, dataset, [⟨String.ofList text, reason⟩]⟩

def withoutSemicolons (sql : String) : List Char :=
  (sql.toList.reverse.dropWhile (· == ';')).reverse

def Recovered.ofStatement (sql : String) : Recovered :=
  let normalized := normalizeStatement sql
  let tokens := Sql.tokenize normalized
  let dataset := outerDataset 0 tokens
  match whereBody 0 tokens with
  | none => nothingRecovered dataset (withoutSemicolons normalized) .noWhereClause
  | some body =>
      match Sql.readExpr body with
      | none =>
          nothingRecovered dataset (Text.trimEnd (withoutSemicolons normalized)) .unparseable
      | some (expr, rest) =>
          let surplus := (Sql.accept (.mark .semicolon) rest).2
          let trailing : List Dropped :=
            if surplus.isEmpty then [] else [⟨Sql.sourceText surplus, .trailingInput⟩]
          let (criteria, ledger) := (recoverCriteria expr).run {}
          ⟨criteria, dataset, trailing ++ ledger.dropped⟩

end Cohort
