import Cohort.Sql.Expr.Parser

/-!
What a reader has found. For every reader there is a relation with a constructor for each form of
what it reads, which says where the tokens of the form stand, and the lemma that whatever is read
has one of the forms. What holds of all that is read is shown form by form, without the readers.
-/

namespace Cohort.Sql

variable {α : Type} {tokens middle rest : List Token}

theorem expect_cons {kind : TokenKind} {token : Token} (same : token.kind = kind)
    (rest : List Token) : expect kind (token :: rest) = some rest := by
  simp [expect, same]

theorem expect_some {kind : TokenKind} (found : expect kind tokens = some rest) :
    ∃ token, tokens = token :: rest ∧ token.kind = kind := by
  cases tokens with
  | nil => cases found
  | cons token tokens =>
      simp only [expect, Option.ite_none_right_eq_some, Option.some.injEq] at found
      exact ⟨token, by rw [found.2], found.1⟩

theorem expect_some_left {kind : TokenKind} (found : expect kind tokens = some rest) :
    tokens ≠ [] := by
  rintro rfl
  cases found

theorem name_found {name : String} (found : readName tokens = some (name, rest)) :
    expect (.identifier name) tokens = some rest := by
  cases tokens with
  | nil => cases found
  | cons token behind =>
      simp only [readName] at found
      split at found
      · next kind =>
          cases found
          exact expect_cons kind rest
      · cases found

def Sign.mark : Sign → Mark
  | .plus => .plus
  | .minus => .minus

theorem sign_found {sign : Sign} (found : readSign tokens = some (sign, rest)) :
    expect (.mark sign.mark) tokens = some rest := by
  cases tokens with
  | nil => cases found
  | cons token behind =>
      simp only [readSign] at found
      split at found
      · next kind =>
          cases found
          exact expect_cons kind rest
      · next kind =>
          cases found
          exact expect_cons kind rest
      · cases found

inductive ReadsSeparated (separator : TokenKind) (item : Read α) :
    List Token → List α → List Token → Prop
  | last {tokens rest : List Token} {first : α} (here : item tokens = some (first, rest)) :
      ReadsSeparated separator item tokens [first] rest
  | more {tokens middle behind rest : List Token} {first : α} {others : List α}
      (here : item tokens = some (first, middle)) (found : expect separator middle = some behind)
      (next : ReadsSeparated separator item behind others rest) :
      ReadsSeparated separator item tokens (first :: others) rest

theorem separated_found {separator : TokenKind} {item : Read α} {bound : List Token}
    {values : List α} (found : readSeparated separator item bound tokens = some (values, rest)) :
    ReadsSeparated separator item tokens values rest := by
  induction bound generalizing tokens values with
  | nil =>
      obtain ⟨⟨first, behind⟩, here, same⟩ := Option.map_eq_some_iff.mp found
      cases same
      exact .last here
  | cons _ bound ih =>
      obtain ⟨⟨first, middle⟩, here, found⟩ := Option.bind_eq_some_iff.mp found
      dsimp only at found
      split at found
      · next behind separates =>
          obtain ⟨⟨others, last⟩, next, same⟩ := Option.bind_eq_some_iff.mp found
          cases same
          exact .more here separates (ih next)
      · cases found
        exact .last here

theorem ReadsSeparated.ne_nil {separator : TokenKind} {item : Read α} {values : List α}
    (read : ReadsSeparated separator item tokens values rest) : values ≠ [] := by
  cases read <;> exact List.cons_ne_nil _ _

abbrev always {α : Type} (read : List Token → α × List Token) : Read α :=
  fun tokens => some (read tokens)

/-- Items between separators are read as any list. -/
theorem items_separated (separator : Keyword) (item : List Token → Expr × List Token)
    (bound tokens : List Token) :
    some (readItems separator item bound tokens) =
      readSeparated (.keyword separator) (always item) bound tokens := by
  induction bound generalizing tokens with
  | nil => rfl
  | cons _ bound ih =>
      simp only [readItems, readSeparated, always, Option.bind_eq_bind, Option.bind_some]
      cases expect (.keyword separator) (item tokens).2 with
      | none => rfl
      | some rest => simp [← ih rest]

theorem items_found (separator : Keyword) (item : List Token → Expr × List Token)
    (bound tokens : List Token) :
    ReadsSeparated (.keyword separator) (always item) tokens
      (readItems separator item bound tokens).1 (readItems separator item bound tokens).2 :=
  separated_found (items_separated separator item bound tokens).symm

inductive ReadsColumn (tokens : List Token) : Column → List Token → Prop
  | plain {name : String} {rest : List Token}
      (named : expect (.identifier name) tokens = some rest) : ReadsColumn tokens ⟨none, name⟩ rest
  | qualified {table name : String} {behind after rest : List Token}
      (qualifier : expect (.identifier table) tokens = some behind)
      (point : expect (.mark .dot) behind = some after)
      (named : expect (.identifier name) after = some rest) :
      ReadsColumn tokens ⟨some table, name⟩ rest

theorem column_found {column : Column} (found : readColumn tokens = some (column, rest)) :
    ReadsColumn tokens column rest := by
  obtain ⟨⟨first, behind⟩, named, found⟩ := Option.bind_eq_some_iff.mp found
  dsimp only at found
  split at found
  · next after point =>
      obtain ⟨⟨second, last⟩, named', same⟩ := Option.bind_eq_some_iff.mp found
      cases same
      exact .qualified (name_found named) point (name_found named')
  · cases found
    exact .plain (name_found named)

inductive ReadsOperands (operand : Read Operand) (tokens : List Token) :
    List Operand → List Token → Prop
  | nothing : ReadsOperands operand tokens [] tokens
  | listed {values : List Operand} {rest : List Token}
      (read : ReadsSeparated (.mark .comma) operand tokens values rest) :
      ReadsOperands operand tokens values rest

theorem operands_found {operand : Read Operand} {values : List Operand}
    (found : readOperands operand tokens = some (values, rest)) :
    ReadsOperands operand tokens values rest := by
  simp only [readOperands] at found
  split at found
  · cases found
    exact .nothing
  · exact .listed (separated_found found)

inductive ReadsAmount (tokens : List Token) : String → List Token → Prop
  | literal {raw : String} {rest : List Token} (found : expect (.string raw) tokens = some rest) :
      ReadsAmount tokens (String.ofList (Text.undoubleQuotes raw.toList)) rest
  | number {digits : String} {rest : List Token} (found : expect (.number digits) tokens = some rest) :
      ReadsAmount tokens digits rest

inductive ReadsInterval (tokens : List Token) : Operand → List Token → Prop
  | amount {amount : String} {rest : List Token} (found : ReadsAmount tokens amount rest) :
      ReadsInterval tokens (.interval amount) rest
  | unit {amount unit : String} {behind rest : List Token} (found : ReadsAmount tokens amount behind)
      (named : expect (.identifier unit) behind = some rest) :
      ReadsInterval tokens (.interval (amount ++ " " ++ unit)) rest

theorem span_found {amount : String} {operand : Operand}
    (measured : ReadsAmount tokens amount middle)
    (found : (match readName middle with
      | some (unit, rest) => some (Operand.interval (amount ++ " " ++ unit), rest)
      | none => some (Operand.interval amount, middle)) = some (operand, rest)) :
    ReadsInterval tokens operand rest := by
  split at found
  · next unit after named =>
      cases found
      exact .unit measured (name_found named)
  · cases found
    exact .amount measured

theorem interval_found {operand : Operand} (found : readInterval tokens = some (operand, rest)) :
    ReadsInterval tokens operand rest := by
  cases tokens with
  | nil => cases found
  | cons token behind =>
      rw [readInterval] at found
      split at found
      · next raw kind => exact span_found (.literal (expect_cons kind behind)) found
      · next digits kind => exact span_found (.number (expect_cons kind behind)) found
      · cases found

inductive ReadsTerm (args : Read (List Operand)) (tokens : List Token) :
    Operand → List Token → Prop
  | call {name : String} {values : List Operand} {behind inside after rest : List Token}
      (named : expect (.identifier name) tokens = some behind)
      (opened : expect (.mark .lparen) behind = some inside)
      (filled : args inside = some (values, after))
      (closed : expect (.mark .rparen) after = some rest) :
      ReadsTerm args tokens (.call name values) rest
  | column {column : Column} {rest : List Token} (read : ReadsColumn tokens column rest) :
      ReadsTerm args tokens (.column column) rest
  | string {raw : String} {rest : List Token} (found : expect (.string raw) tokens = some rest) :
      ReadsTerm args tokens (.string (String.ofList (Text.undoubleQuotes raw.toList))) rest
  | number {digits : String} {rest : List Token}
      (found : expect (.number digits) tokens = some rest) :
      ReadsTerm args tokens (.number digits) rest
  | negative {digits : String} {behind rest : List Token}
      (minus : expect (.mark .minus) tokens = some behind)
      (found : expect (.number digits) behind = some rest) :
      ReadsTerm args tokens (.number ("-" ++ digits)) rest
  | null {rest : List Token} (found : expect (.keyword .NULL) tokens = some rest) :
      ReadsTerm args tokens .null rest
  | star {rest : List Token} (found : expect (.mark .star) tokens = some rest) :
      ReadsTerm args tokens .star rest
  | interval {operand : Operand} {behind rest : List Token}
      (keyword : expect (.keyword .INTERVAL) tokens = some behind)
      (read : ReadsInterval behind operand rest) : ReadsTerm args tokens operand rest

theorem term_found {args : Read (List Operand)} {operand : Operand}
    (found : readTerm args tokens = some (operand, rest)) : ReadsTerm args tokens operand rest := by
  cases tokens with
  | nil => cases found
  | cons token behind =>
      simp only [readTerm] at found
      split at found
      · next name kind =>
          have named := expect_cons kind behind
          -- A call, a column with its table, or a name alone.
          split at found
          · next inside opened =>
              obtain ⟨⟨values, after⟩, filled, found⟩ := Option.bind_eq_some_iff.mp found
              obtain ⟨last, closed, same⟩ := Option.bind_eq_some_iff.mp found
              cases same
              exact .call named opened filled closed
          · split at found
            · next after point =>
                obtain ⟨⟨column, last⟩, read, same⟩ := Option.bind_eq_some_iff.mp found
                cases same
                exact .column (.qualified named point (name_found read))
            · cases found
              exact .column (.plain named)
      · next raw kind =>
          cases found
          exact .string (expect_cons kind rest)
      · next digits kind =>
          cases found
          exact .number (expect_cons kind rest)
      · next kind =>
          split at found
          · next digits layout lexeme start after =>
              cases found
              exact .negative (expect_cons kind _) (expect_cons rfl rest)
          · cases found
      · next kind =>
          cases found
          exact .null (expect_cons kind rest)
      · next kind =>
          cases found
          exact .star (expect_cons kind rest)
      · next kind => exact .interval (expect_cons kind behind) (interval_found found)
      · cases found

inductive ReadsSum (term : Read Operand) (tokens : List Token) : Operand → List Token → Prop
  | term {first : Operand} {rest : List Token} (found : term tokens = some (first, rest)) :
      ReadsSum term tokens first rest
  | sum {left right : Operand} {sign : Sign} {middle behind rest : List Token}
      (before : ReadsSum term tokens left middle)
      (signed : expect (.mark sign.mark) middle = some behind)
      (found : term behind = some (right, rest)) : ReadsSum term tokens (.sum left sign right) rest

theorem ReadsSum.further {term : Read Operand} {left value : Operand} {bound : List Token}
    (before : ReadsSum term tokens left middle)
    (found : readSum term left bound middle = some (value, rest)) :
    ReadsSum term tokens value rest := by
  induction bound generalizing left middle with
  | nil =>
      cases found
      exact before
  | cons _ bound ih =>
      simp only [readSum] at found
      split at found
      · next sign behind signed =>
          obtain ⟨⟨right, last⟩, read, found⟩ := Option.bind_eq_some_iff.mp found
          exact ih (before.sum (sign_found signed) read) found
      · cases found
        exact before

def termWithin : Nat → Read Operand
  | 0 => readTerm fun _ => none
  | room + 1 => readTerm (readOperands (readOperand room))

theorem operand_of_terms (room : Nat) (tokens : List Token) :
    readOperand room tokens =
      (termWithin room tokens).bind fun read =>
        readSum (termWithin room) read.1 read.2 read.2 := by
  cases room <;> rw [readOperand] <;> rfl

theorem operand_found {room : Nat} {operand : Operand}
    (found : readOperand room tokens = some (operand, rest)) :
    ReadsSum (termWithin room) tokens operand rest := by
  rw [operand_of_terms] at found
  obtain ⟨⟨first, middle⟩, read, found⟩ := Option.bind_eq_some_iff.mp found
  exact (ReadsSum.term read).further found

inductive ReadsRelation (operand : Read Operand) (target : Operand) (tokens : List Token) :
    Bool → Predicate → List Token → Prop
  | bare : ReadsRelation operand target tokens false (.bare target) tokens
  | compare {op : Comparison} {right : Operand} {behind rest : List Token}
      (sign : expect (.comparison op) tokens = some behind)
      (second : operand behind = some (right, rest)) :
      ReadsRelation operand target tokens false (.compare target op right) rest
  | between {negated : Bool} {low high : Operand} {behind middle after rest : List Token}
      (keyword : expect (.keyword .BETWEEN) tokens = some behind)
      (second : operand behind = some (low, middle))
      (and_ : expect (.keyword .AND) middle = some after)
      (third : operand after = some (high, rest)) :
      ReadsRelation operand target tokens negated (.between target low high negated) rest
  | like {negated : Bool} {pattern : Operand} {behind rest : List Token}
      (keyword : expect (.keyword .LIKE) tokens = some behind)
      (second : operand behind = some (pattern, rest)) :
      ReadsRelation operand target tokens negated (.like target pattern negated) rest
  | oneOf {negated : Bool} {values : List Operand} {behind inside after rest : List Token}
      (keyword : expect (.keyword .IN) tokens = some behind)
      (opened : expect (.mark .lparen) behind = some inside)
      (filled : ReadsOperands operand inside values after)
      (closed : expect (.mark .rparen) after = some rest) :
      ReadsRelation operand target tokens negated (.oneOf target values negated) rest
  | isNull {isNot : Bool} {behind after rest : List Token}
      (keyword : expect (.keyword .IS) tokens = some behind)
      (not_ : accept (.keyword .NOT) behind = (isNot, after))
      (null : expect (.keyword .NULL) after = some rest) :
      ReadsRelation operand target tokens false (.isNull target isNot) rest

theorem relation_found {operand : Read Operand} {target : Operand} {negated : Bool}
    {predicate : Predicate}
    (found : readRelation operand target negated tokens = some (predicate, rest)) :
    ReadsRelation operand target tokens negated predicate rest := by
  cases tokens with
  | nil =>
      cases negated <;> cases found
      exact .bare
  | cons token behind =>
      simp only [readRelation] at found
      split at found
      · next op kind =>
          cases negated <;> simp only [Bool.false_eq_true, if_false, if_true] at found
          · obtain ⟨⟨right, last⟩, second, same⟩ := Option.bind_eq_some_iff.mp found
            cases same
            exact .compare (expect_cons kind behind) second
          · cases found
      · next kind =>
          obtain ⟨⟨low, middle⟩, second, found⟩ := Option.bind_eq_some_iff.mp found
          obtain ⟨after, and_, found⟩ := Option.bind_eq_some_iff.mp found
          obtain ⟨⟨high, last⟩, third, same⟩ := Option.bind_eq_some_iff.mp found
          cases same
          exact .between (expect_cons kind behind) second and_ third
      · next kind =>
          obtain ⟨⟨pattern, last⟩, second, same⟩ := Option.bind_eq_some_iff.mp found
          cases same
          exact .like (expect_cons kind behind) second
      · next kind =>
          obtain ⟨inside, opened, found⟩ := Option.bind_eq_some_iff.mp found
          obtain ⟨⟨values, after⟩, filled, found⟩ := Option.bind_eq_some_iff.mp found
          obtain ⟨last, closed, same⟩ := Option.bind_eq_some_iff.mp found
          cases same
          exact .oneOf (expect_cons kind behind) opened (operands_found filled) closed
      · next kind =>
          cases negated <;> simp only [Bool.false_eq_true, if_false, if_true] at found
          · obtain ⟨last, null, same⟩ := Option.bind_eq_some_iff.mp found
            cases same
            exact .isNull (expect_cons kind behind) (Prod.eta _).symm null
          · cases found
      · cases negated <;> simp only [Bool.not_false, Bool.not_true, Bool.and_true, Bool.and_false,
          Bool.false_eq_true, if_false] at found
        · split at found
          · cases found
            exact .bare
          · cases found
        · cases found

inductive ReadsPredicate (operand : Read Operand) (tokens : List Token) :
    Predicate → List Token → Prop
  | of {target : Operand} {negated : Bool} {predicate : Predicate} {middle behind rest : List Token}
      (first : operand tokens = some (target, middle))
      (not_ : accept (.keyword .NOT) middle = (negated, behind))
      (relation : ReadsRelation operand target behind negated predicate rest) :
      ReadsPredicate operand tokens predicate rest

theorem predicate_found {operand : Read Operand} {predicate : Predicate}
    (found : readPredicate operand tokens = some (predicate, rest)) :
    ReadsPredicate operand tokens predicate rest := by
  obtain ⟨⟨target, middle⟩, first, found⟩ := Option.bind_eq_some_iff.mp found
  exact .of first (Prod.eta _).symm (relation_found found)

inductive ReadsJoinWords (tokens : List Token) : List Token → Prop
  | plain {rest : List Token} (join : expect (.keyword .JOIN) tokens = some rest) :
      ReadsJoinWords tokens rest
  | inner {behind rest : List Token} (inner : expect (.keyword .INNER) tokens = some behind)
      (join : expect (.keyword .JOIN) behind = some rest) : ReadsJoinWords tokens rest

theorem join_words_found (found : expectJoin tokens = some (some rest)) :
    ReadsJoinWords tokens rest := by
  simp only [expectJoin] at found
  split at found
  · next behind inner => exact .inner inner (Option.some.inj found)
  · obtain ⟨behind, join, same⟩ := Option.map_eq_some_iff.mp found
    cases same
    exact .plain join

inductive ReadsJoin (tokens : List Token) : Join → List Token → Prop
  | of {table : String} {left right : Column} {named behind compared after rest : List Token}
      (source : expect (.identifier table) tokens = some named)
      (on : expect (.keyword .ON) named = some behind)
      (first : ReadsColumn behind left compared)
      (equal : expect (.comparison .eq) compared = some after)
      (second : ReadsColumn after right rest) : ReadsJoin tokens ⟨table, left, right⟩ rest

theorem join_found {join : Join} (found : readJoin tokens = some (join, rest)) :
    ReadsJoin tokens join rest := by
  obtain ⟨⟨table, named⟩, source, found⟩ := Option.bind_eq_some_iff.mp found
  obtain ⟨behind, on, found⟩ := Option.bind_eq_some_iff.mp found
  obtain ⟨⟨left, compared⟩, first, found⟩ := Option.bind_eq_some_iff.mp found
  obtain ⟨after, equal, found⟩ := Option.bind_eq_some_iff.mp found
  obtain ⟨⟨right, last⟩, second, same⟩ := Option.bind_eq_some_iff.mp found
  cases same
  exact .of (name_found source) on (column_found first) equal (column_found second)

inductive ReadsJoins : List Token → List Join → List Token → Prop
  | nothing {tokens : List Token} : ReadsJoins tokens [] tokens
  | more {tokens behind middle rest : List Token} {join : Join} {others : List Join}
      (words : ReadsJoinWords tokens behind) (here : ReadsJoin behind join middle)
      (next : ReadsJoins middle others rest) : ReadsJoins tokens (join :: others) rest

theorem joins_found {bound : List Token} {joins : List Join}
    (found : readJoins bound tokens = some (joins, rest)) : ReadsJoins tokens joins rest := by
  induction bound generalizing tokens joins with
  | nil =>
      cases found
      exact .nothing
  | cons _ bound ih =>
      simp only [readJoins] at found
      split at found
      · cases found
        exact .nothing
      · next words =>
          obtain ⟨behind, rfl, tail⟩ := Option.bind_eq_some_iff.mp found
          obtain ⟨⟨first, middle⟩, here, tail⟩ := Option.bind_eq_some_iff.mp tail
          obtain ⟨⟨others, last⟩, next, same⟩ := Option.bind_eq_some_iff.mp tail
          cases same
          exact .more (join_words_found words) (join_found here) (ih next)

inductive ReadsOptional (keyword : Keyword) (part : Read α) (tokens : List Token) :
    Option α → List Token → Prop
  | absent : ReadsOptional keyword part tokens none tokens
  | present {value : α} {behind rest : List Token}
      (word : expect (.keyword keyword) tokens = some behind)
      (read : part behind = some (value, rest)) :
      ReadsOptional keyword part tokens (some value) rest

theorem optional_found {keyword : Keyword} {part : Read α} {value : Option α}
    (found : readOptional keyword part tokens = some (value, rest)) :
    ReadsOptional keyword part tokens value rest := by
  simp only [readOptional] at found
  split at found
  · cases found
    exact .absent
  · next behind word =>
      obtain ⟨⟨inner, last⟩, read, same⟩ := Option.map_eq_some_iff.mp found
      cases same
      exact .present word read

def readGroupBy : Read Column :=
  fun rest => do readColumn (← expect (.keyword .BY) rest)

inductive ReadsSubquery (condition : Read Expr) (predicate : Read Predicate)
    (tokens : List Token) : Subquery → List Token → Prop
  | of {table : String} {joins : List Join} {filter : Option Expr} {groupBy : Option Column}
      {having : Option Predicate}
      {selected froms behind named joined filtered grouped rest : List Token}
      (select : expect (.keyword .SELECT) tokens = some selected)
      (skipped : skipSelection 0 selected = some froms)
      (from_ : expect (.keyword .FROM) froms = some behind)
      (source : expect (.identifier table) behind = some named)
      (joins_ : ReadsJoins named joins joined)
      (where_ : ReadsOptional .WHERE (always (readDisjunction condition)) joined filter filtered)
      (group : ReadsOptional .GROUP readGroupBy filtered groupBy grouped)
      (count : ReadsOptional .HAVING predicate grouped having rest) :
      ReadsSubquery condition predicate tokens ⟨table, joins, filter, groupBy, having⟩ rest

inductive ReadsEnclosedQuery (condition : Read Expr) (predicate : Read Predicate)
    (tokens : List Token) : Subquery → List Token → Prop
  | of {query : Subquery} {inside after rest : List Token}
      (opened : expect (.mark .lparen) tokens = some inside)
      (inner : ReadsSubquery condition predicate inside query after)
      (closed : expect (.mark .rparen) after = some rest) :
      ReadsEnclosedQuery condition predicate tokens query rest

inductive ReadsLevel (condition : Read Expr) (predicate : Read Predicate) (tokens : List Token) :
    Expr → List Token → Prop
  | exist {query : Subquery} {behind rest : List Token}
      (word : expect (.keyword .EXISTS) tokens = some behind)
      (enclosed : ReadsEnclosedQuery condition predicate behind query rest) :
      ReadsLevel condition predicate tokens (.exist false query) rest
  | notExist {query : Subquery} {middle behind rest : List Token}
      (not_ : expect (.keyword .NOT) tokens = some middle)
      (word : expect (.keyword .EXISTS) middle = some behind)
      (enclosed : ReadsEnclosedQuery condition predicate behind query rest) :
      ReadsLevel condition predicate tokens (.exist true query) rest
  | negated {inner : Expr} {behind rest : List Token}
      (not_ : expect (.keyword .NOT) tokens = some behind)
      (other : expect (.keyword .EXISTS) behind = none)
      (read : condition behind = some (inner, rest)) :
      ReadsLevel condition predicate tokens (.not inner) rest
  | grouped {inner : Expr} {behind after rest : List Token}
      (opened : expect (.mark .lparen) tokens = some behind)
      (read : readDisjunction condition behind = (inner, after))
      (closed : expect (.mark .rparen) after = some rest) :
      ReadsLevel condition predicate tokens (.grouped inner) rest

section Queries

variable {condition : Read Expr} {predicate : Read Predicate}

theorem subquery_found {query : Subquery}
    (found : readSubquery condition predicate tokens = some (query, rest)) :
    ReadsSubquery condition predicate tokens query rest := by
  obtain ⟨selected, select, found⟩ := Option.bind_eq_some_iff.mp found
  obtain ⟨froms, skipped, found⟩ := Option.bind_eq_some_iff.mp found
  obtain ⟨behind, from_, found⟩ := Option.bind_eq_some_iff.mp found
  obtain ⟨⟨table, named⟩, source, found⟩ := Option.bind_eq_some_iff.mp found
  obtain ⟨⟨joins, joined⟩, joins_, found⟩ := Option.bind_eq_some_iff.mp found
  obtain ⟨⟨filter, filtered⟩, where_, found⟩ := Option.bind_eq_some_iff.mp found
  obtain ⟨⟨groupBy, grouped⟩, group, found⟩ := Option.bind_eq_some_iff.mp found
  obtain ⟨⟨having, last⟩, count, same⟩ := Option.bind_eq_some_iff.mp found
  cases same
  exact .of select skipped from_ (name_found source) (joins_found joins_) (optional_found where_)
    (optional_found group) (optional_found count)

theorem exists_found {negated : Bool} {expr : Expr}
    (found : readExists negated condition predicate tokens = some (expr, rest)) :
    ∃ query, expr = .exist negated query ∧
      ReadsEnclosedQuery condition predicate tokens query rest := by
  obtain ⟨inside, opened, found⟩ := Option.bind_eq_some_iff.mp found
  obtain ⟨⟨query, after⟩, read, found⟩ := Option.bind_eq_some_iff.mp found
  obtain ⟨last, closed, same⟩ := Option.bind_eq_some_iff.mp found
  cases same
  exact ⟨query, rfl, .of opened (subquery_found read) closed⟩

/-- A token that opens a level without a word is a parenthesis. -/
theorem level_paren {kind : TokenKind} (opens : opensLevel kind = true)
    (exists_ : kind ≠ .keyword .EXISTS) (not_ : kind ≠ .keyword .NOT) : kind = .mark .lparen := by
  cases kind with
  | mark sign => cases sign <;> simp_all [opensLevel]
  | keyword word => cases word <;> simp_all [opensLevel]
  | _ => simp_all [opensLevel]

theorem level_found {token : Token} {expr : Expr} (opens : opensLevel token.kind = true)
    (found : readLevel token.kind condition predicate middle = some (expr, rest)) :
    ReadsLevel condition predicate (token :: middle) expr rest := by
  simp only [readLevel] at found
  split at found
  · next kind =>
      obtain ⟨query, rfl, enclosed⟩ := exists_found found
      exact .exist (expect_cons kind middle) enclosed
  · next kind =>
      split at found
      · next behind word =>
          obtain ⟨query, rfl, enclosed⟩ := exists_found found
          exact .notExist (expect_cons kind middle) word enclosed
      · next other =>
          obtain ⟨⟨inner, last⟩, read, same⟩ := Option.map_eq_some_iff.mp found
          cases same
          exact .negated (expect_cons kind middle) other read
  · next exists_ not_ =>
      obtain ⟨last, closed, same⟩ := Option.bind_eq_some_iff.mp found
      cases same
      exact .grouped (expect_cons (level_paren opens exists_ not_) middle) (Prod.eta _).symm closed

end Queries

inductive ReadsCondition (tokens : List Token) : Nat → Expr → List Token → Prop
  | predicate {room : Nat} {predicate : Predicate} {rest : List Token}
      (read : readPredicate (readOperand room) tokens = some (predicate, rest)) :
      ReadsCondition tokens room (.predicate predicate) rest
  | level {room : Nat} {expr : Expr} {rest : List Token}
      (read : ReadsLevel (readCondition room) (readPredicate (readOperand room)) tokens expr rest) :
      ReadsCondition tokens (room + 1) expr rest

theorem condition_found {room : Nat} {expr : Expr}
    (found : readCondition room tokens = some (expr, rest)) :
    ReadsCondition tokens room expr rest := by
  cases tokens with
  | nil => cases room <;> cases found
  | cons token behind =>
      by_cases opens : opensLevel token.kind = true
      · cases room with
        | zero =>
            rw [readCondition, if_pos opens] at found
            cases found
        | succ room =>
            rw [readCondition, if_pos opens] at found
            exact .level (level_found opens found)
      · cases room <;> rw [readCondition, if_neg opens] at found
        all_goals
          obtain ⟨⟨predicate, last⟩, read, same⟩ := Option.map_eq_some_iff.mp found
          cases same
          exact .predicate read

end Cohort.Sql
