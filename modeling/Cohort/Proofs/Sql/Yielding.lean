import Cohort.Proofs.Sql.Found
import Cohort.Proofs.Sql.Grammar

/-!
What readers yield, whatever the tokens are. What is read is as the reader builds it, of the tokens
that were there, and within the levels that were left. `Yields good result post` says that what a
reader gives, if it gives anything, meets `post`, and that the tokens behind it are good.
-/

namespace Cohort.Sql

variable {good : TokenKind → Prop} {α : Type} {tokens rest : List Token}

def Made (good : TokenKind → Prop) (tokens : List Token) : Prop :=
  ∀ token ∈ tokens, good token.kind

abbrev Names (good : String → Prop) (tokens : List Token) : Prop :=
  Made (fun kind => ∀ name, kind = .identifier name → good name) tokens

def Leaves (good : TokenKind → Prop) (result : Option (List Token)) : Prop :=
  ∀ rest, result = some rest → Made good rest

def Yields (good : TokenKind → Prop) (result : Option (α × List Token)) (post : α → Prop) : Prop :=
  ∀ value rest, result = some (value, rest) → post value ∧ Made good rest

theorem Made.tail {token : Token} (made : Made good (token :: rest)) : Made good rest :=
  fun other member => made other (List.mem_cons_of_mem token member)

/-- A token that is found is good, and so are those behind it. -/
theorem Made.expect {kind : TokenKind} (made : Made good tokens)
    (found : expect kind tokens = some rest) : good kind ∧ Made good rest := by
  obtain ⟨token, rfl, rfl⟩ := expect_some found
  exact ⟨made token List.mem_cons_self, made.tail⟩

theorem Made.accept {kind : TokenKind} {found : Bool} (made : Made good tokens)
    (accepted : accept kind tokens = (found, rest)) : Made good rest := by
  simp only [Sql.accept] at accepted
  split at accepted
  · next behind here =>
      cases accepted
      exact (made.expect here).2
  · cases accepted
    exact made

theorem yields_none {post : α → Prop} : Yields good (none : Option (α × List Token)) post := by
  simp [Yields]

theorem yields_name (made : Made good tokens) :
    Yields good (readName tokens) fun name => good (.identifier name) :=
  fun _ _ found => made.expect (name_found found)

theorem ReadsColumn.yields {column : Column} (read : ReadsColumn tokens column rest)
    (made : Made good tokens) : column.Built good ∧ Made good rest := by
  cases read with
  | plain named =>
      obtain ⟨name, made⟩ := made.expect named
      exact ⟨⟨by simp, name⟩, made⟩
  | qualified qualifier point named =>
      obtain ⟨table, made⟩ := made.expect qualifier
      obtain ⟨_, made⟩ := made.expect point
      obtain ⟨name, made⟩ := made.expect named
      exact ⟨⟨by simpa using table, name⟩, made⟩

theorem ReadsSeparated.yields {separator : TokenKind} {item : Read α} {post : α → Prop}
    {values : List α}
    (each : ∀ tokens, Made good tokens → Yields good (item tokens) post)
    (read : ReadsSeparated separator item tokens values rest) (made : Made good tokens) :
    (∀ value ∈ values, post value) ∧ Made good rest := by
  induction read with
  | last here =>
      obtain ⟨holds, made⟩ := each _ made _ _ here
      exact ⟨by simpa using holds, made⟩
  | more here found next ih =>
      obtain ⟨holds, made⟩ := each _ made _ _ here
      obtain ⟨others, made⟩ := ih (made.expect found).2
      exact ⟨List.forall_mem_cons.mpr ⟨holds, others⟩, made⟩

theorem ReadsOperands.yields {operand : Read Operand} {post : Operand → Prop}
    {values : List Operand} (each : ∀ tokens, Made good tokens → Yields good (operand tokens) post)
    (read : ReadsOperands operand tokens values rest) (made : Made good tokens) :
    (∀ value ∈ values, post value) ∧ Made good rest := by
  cases read with
  | nothing => exact ⟨by simp, made⟩
  | listed read => exact read.yields each made

structure Operand.Fits (good : TokenKind → Prop) (room : Nat) (operand : Operand) : Prop where
  built : operand.Built good fun _ => True
  low : operand.levels ≤ room

def IsTerm (good : TokenKind → Prop) (room : Nat) (operand : Operand) : Prop :=
  operand.Fits good room ∧ operand.isSum = false

theorem ReadsAmount.made {amount : String} (read : ReadsAmount tokens amount rest)
    (made : Made good tokens) : Made good rest := by
  cases read with
  | literal found => exact (made.expect found).2
  | number found => exact (made.expect found).2

theorem ReadsInterval.yields {room : Nat} {operand : Operand}
    (read : ReadsInterval tokens operand rest) (made : Made good tokens) :
    IsTerm good room operand ∧ Made good rest := by
  have interval (text : String) : IsTerm good room (.interval text) :=
    ⟨⟨trivial, Nat.zero_le room⟩, rfl⟩
  cases read with
  | amount found => exact ⟨interval _, found.made made⟩
  | unit found named => exact ⟨interval _, ((found.made made).expect named).2⟩

theorem yields_term {args : Read (List Operand)} {room : Nat}
    (inner : ∀ tokens, Made good tokens → Yields good (args tokens) fun values =>
      Operand.BuiltOf good (fun _ => True) values ∧ Operand.levelsOf values < room)
    (made : Made good tokens) : Yields good (readTerm args tokens) (IsTerm good room) := by
  have low {operand : Operand} (leaf : operand.levels = 0) : operand.levels ≤ room := by omega
  intro operand rest found
  cases term_found found with
  | call named opened filled closed =>
      obtain ⟨name, made⟩ := made.expect named
      obtain ⟨_, made⟩ := made.expect opened
      obtain ⟨⟨built, within⟩, made⟩ := inner _ made _ _ filled
      exact ⟨⟨⟨⟨name, built⟩, within⟩, rfl⟩, (made.expect closed).2⟩
  | column read =>
      obtain ⟨built, made⟩ := read.yields made
      exact ⟨⟨⟨built, low rfl⟩, rfl⟩, made⟩
  | string found => exact ⟨⟨⟨trivial, low rfl⟩, rfl⟩, (made.expect found).2⟩
  | @number digits _ found =>
      obtain ⟨number, made⟩ := made.expect found
      exact ⟨⟨⟨⟨digits, number, .inl rfl⟩, low rfl⟩, rfl⟩, made⟩
  | @negative digits _ _ minus found =>
      obtain ⟨_, made⟩ := made.expect minus
      obtain ⟨number, made⟩ := made.expect found
      exact ⟨⟨⟨⟨digits, number, .inr rfl⟩, low rfl⟩, rfl⟩, made⟩
  | null found => exact ⟨⟨⟨trivial, low rfl⟩, rfl⟩, (made.expect found).2⟩
  | star found => exact ⟨⟨⟨trivial, low rfl⟩, rfl⟩, (made.expect found).2⟩
  | interval keyword read => exact read.yields (made.expect keyword).2

theorem ReadsSum.yields {term : Read Operand} {room : Nat} {operand : Operand}
    (each : ∀ tokens, Made good tokens → Yields good (term tokens) (IsTerm good room))
    (read : ReadsSum term tokens operand rest) (made : Made good tokens) :
    operand.Fits good room ∧ Made good rest := by
  induction read with
  | term found =>
      obtain ⟨⟨fits, _⟩, made⟩ := each _ made _ _ found
      exact ⟨fits, made⟩
  | sum before signed found ih =>
      obtain ⟨first, made⟩ := ih
      obtain ⟨⟨second, single⟩, made⟩ := each _ (made.expect signed).2 _ _ found
      exact ⟨⟨⟨first.built, second.built, single⟩, max_le first.low second.low⟩, made⟩

/-- The arguments of a call are built of good tokens, within the level that the call opens. -/
theorem yields_arguments {room : Nat}
    (each : ∀ tokens, Made good tokens →
      Yields good (readOperand room tokens) (Operand.Fits good room)) (made : Made good tokens) :
    Yields good (readOperands (readOperand room) tokens) fun values =>
      Operand.BuiltOf good (fun _ => True) values ∧ Operand.levelsOf values < room + 1 := by
  intro values rest found
  obtain ⟨each, made⟩ := (operands_found found).yields each made
  refine ⟨⟨operands_built.mpr fun value found => (each value found).built, ?_⟩, made⟩
  exact Nat.lt_succ_of_le (operand_levels_le.mpr fun value found => (each value found).low)

theorem yields_operand (room : Nat) (made : Made good tokens) :
    Yields good (readOperand room tokens) (Operand.Fits good room) := by
  induction room generalizing tokens with
  | zero =>
      intro operand rest found
      exact (operand_found found).yields (fun _ => yields_term fun _ _ => yields_none) made
  | succ room ih =>
      intro operand rest found
      have arguments (tokens : List Token) (made : Made good tokens) :=
        yields_arguments (fun _ made => ih made) made
      exact (operand_found found).yields (fun _ => yields_term arguments) made

def Predicate.Fits (good : TokenKind → Prop) (room : Nat) (predicate : Predicate) : Prop :=
  ∀ operand ∈ predicate.operands, operand.Fits good room

theorem Predicate.Fits.built {predicate : Predicate} {room : Nat}
    (fits : predicate.Fits good room) : predicate.Built good :=
  fun operand found => (fits operand found).built

theorem Predicate.Fits.low {predicate : Predicate} {room : Nat}
    (fits : predicate.Fits good room) : predicate.levels ≤ room :=
  predicate_levels_le.mpr fun operand found => (fits operand found).low

theorem ReadsRelation.yields {operand : Read Operand} {room : Nat} {target : Operand}
    {negated : Bool} {predicate : Predicate}
    (each : ∀ tokens, Made good tokens → Yields good (operand tokens) (Operand.Fits good room))
    (first : target.Fits good room)
    (read : ReadsRelation operand target tokens negated predicate rest)
    (made : Made good tokens) : predicate.Fits good room ∧ Made good rest := by
  cases read with
  | bare => exact ⟨by simpa [Predicate.Fits, Predicate.operands] using first, made⟩
  | compare sign second =>
      obtain ⟨second, made⟩ := each _ (made.expect sign).2 _ _ second
      exact ⟨by simp [Predicate.Fits, Predicate.operands, first, second], made⟩
  | between keyword second and_ third =>
      obtain ⟨second, made⟩ := each _ (made.expect keyword).2 _ _ second
      obtain ⟨third, made⟩ := each _ (made.expect and_).2 _ _ third
      exact ⟨by simp [Predicate.Fits, Predicate.operands, first, second, third], made⟩
  | like keyword second =>
      obtain ⟨second, made⟩ := each _ (made.expect keyword).2 _ _ second
      exact ⟨by simp [Predicate.Fits, Predicate.operands, first, second], made⟩
  | oneOf keyword opened filled closed =>
      obtain ⟨_, made⟩ := made.expect keyword
      obtain ⟨others, made⟩ := filled.yields each (made.expect opened).2
      exact ⟨List.forall_mem_cons.mpr ⟨first, others⟩, (made.expect closed).2⟩
  | isNull keyword not_ null =>
      have behind := (made.expect keyword).2.accept not_
      exact ⟨by simpa [Predicate.Fits, Predicate.operands] using first, (behind.expect null).2⟩

theorem yields_predicate {operand : Read Operand} {room : Nat}
    (each : ∀ tokens, Made good tokens → Yields good (operand tokens) (Operand.Fits good room))
    (made : Made good tokens) :
    Yields good (readPredicate operand tokens) (Predicate.Fits good room) := by
  intro predicate rest found
  obtain ⟨first, not_, relation⟩ := predicate_found found
  obtain ⟨first, made⟩ := each _ made _ _ first
  exact relation.yields each first (made.accept not_)

theorem made_fragment {tokens : List Token} (made : Made good tokens) (depth : Nat) :
    Made good (splitFragment depth tokens).2 := by
  induction tokens generalizing depth with
  | nil => exact made
  | cons token rest ih =>
      have behind := ih made.tail
      simp only [splitFragment]
      split
      · exact behind _
      · exact behind _
      · split
        · exact made
        · exact behind _
      · exact behind _

structure Expr.Fits (good : TokenKind → Prop) (room : Nat) (expr : Expr) : Prop where
  built : expr.Built good (Predicate.Built good)
  low : expr.levels ≤ room

def Provides (good : TokenKind → Prop) (result : α × List Token) (post : α → Prop) : Prop :=
  post result.1 ∧ Made good result.2

theorem Provides.always {read : List Token → α × List Token} {post : α → Prop}
    (provides : Provides good (read tokens) post) : Yields good (always read tokens) post := by
  intro value rest found
  rwa [Provides, Option.some.inj found] at provides

theorem provides_items {separator : Keyword} {item : List Token → Expr × List Token}
    {post : Expr → Prop} {bound : List Token}
    (each : ∀ tokens, Made good tokens → Provides good (item tokens) post)
    (made : Made good tokens) :
    Provides good (readItems separator item bound tokens) fun items =>
      items ≠ [] ∧ ∀ expr ∈ items, post expr := by
  have read := items_found separator item bound tokens
  obtain ⟨all, behind⟩ := read.yields (fun _ made => (each _ made).always) made
  exact ⟨⟨read.ne_nil, all⟩, behind⟩

structure IsCondition (good : TokenKind → Prop) (room : Nat) (tokens : List Token) (expr : Expr) :
    Prop where
  fits : expr.Fits good room
  single : expr.isFold = false
  opens : expr.isExists = true → startsWith (.keyword .EXISTS) tokens = true

section Levels

variable {condition : Read Expr} {room : Nat}
  (conditions : ∀ tokens, Made good tokens →
    Yields good (condition tokens) (IsCondition good room tokens))

include conditions

theorem provides_recovering {tokens : List Token} (made : Made good tokens) :
    Provides good (recovering condition tokens) fun expr =>
      expr.Fits good room ∧ expr.isFold = false := by
  simp only [recovering]
  split
  · next result found =>
      obtain ⟨holds, behind⟩ := conditions tokens made result.1 result.2 found
      exact ⟨⟨holds.fits, holds.single⟩, behind⟩
  · exact ⟨⟨⟨by simp [Expr.Built, Predicate.Built, Predicate.operands], Nat.zero_le room⟩, rfl⟩,
      made_fragment made 0⟩

theorem provides_conjunction {tokens : List Token} (made : Made good tokens) :
    Provides good (readConjunction condition tokens) fun expr =>
      expr.Fits good room ∧ expr.isDisjunction = false := by
  obtain ⟨⟨some_, each⟩, behind⟩ := @provides_items good tokens .AND _ _ tokens
    (fun tokens made => provides_recovering conditions made) made
  refine ⟨?_, behind⟩
  simp only [readConjunction]
  generalize (readItems .AND (recovering condition) tokens tokens).1 = items at some_ each
  match items, some_ with
  | [single], _ =>
      obtain ⟨fits, plain⟩ := each single List.mem_cons_self
      exact ⟨fits, by cases single <;> simp_all [Expr.isFold, Expr.isDisjunction, foldItems]⟩
  | first :: second :: rest, _ =>
      refine ⟨⟨⟨by simp, items_built.mpr fun item found => (each item found).1.built,
        fun item found => (each item found).2⟩, ?_⟩, rfl⟩
      exact item_levels_le.mpr fun item found => (each item found).1.low

theorem provides_disjunction {tokens : List Token} (made : Made good tokens) :
    Provides good (readDisjunction condition tokens) (Expr.Fits good room) := by
  obtain ⟨⟨some_, each⟩, behind⟩ := @provides_items good tokens .OR _ _ tokens
    (fun tokens made => provides_conjunction conditions made) made
  refine ⟨?_, behind⟩
  simp only [readDisjunction]
  generalize (readItems .OR (readConjunction condition) tokens tokens).1 = items at some_ each
  match items, some_ with
  | [single], _ => exact (each single List.mem_cons_self).1
  | first :: second :: rest, _ =>
      refine ⟨⟨by simp, items_built.mpr fun item found => (each item found).1.built,
        fun item found => (each item found).2⟩, ?_⟩
      exact item_levels_le.mpr fun item found => (each item found).1.low

end Levels

theorem leaves_selection {tokens : List Token} (made : Made good tokens) (depth : Nat) :
    Leaves good (skipSelection depth tokens) := by
  induction tokens generalizing depth with
  | nil => simp [Leaves, skipSelection]
  | cons token rest ih =>
      have behind := ih made.tail
      simp only [skipSelection]
      split
      · rintro _ ⟨⟩
        exact made
      · exact behind _
      · simp [Leaves]
      · exact behind _
      · exact behind _

theorem ReadsJoinWords.made (read : ReadsJoinWords tokens rest) (made : Made good tokens) :
    Made good rest := by
  cases read with
  | plain join => exact (made.expect join).2
  | inner inner join => exact ((made.expect inner).2.expect join).2

theorem ReadsJoin.yields {join : Join} (read : ReadsJoin tokens join rest)
    (made : Made good tokens) : join.Built good ∧ Made good rest := by
  obtain ⟨source, on, first, equal, second⟩ := read
  obtain ⟨table, made⟩ := made.expect source
  obtain ⟨left, made⟩ := first.yields (made.expect on).2
  obtain ⟨right, made⟩ := second.yields (made.expect equal).2
  exact ⟨⟨table, left, right⟩, made⟩

theorem ReadsJoins.yields {joins : List Join} (read : ReadsJoins tokens joins rest)
    (made : Made good tokens) : (∀ join ∈ joins, join.Built good) ∧ Made good rest := by
  induction read with
  | nothing => exact ⟨by simp, made⟩
  | more words here next ih =>
      obtain ⟨first, made⟩ := here.yields (words.made made)
      obtain ⟨others, made⟩ := ih made
      exact ⟨List.forall_mem_cons.mpr ⟨first, others⟩, made⟩

theorem ReadsOptional.yields {keyword : Keyword} {part : Read α} {post : α → Prop}
    {value : Option α} (each : ∀ tokens, Made good tokens → Yields good (part tokens) post)
    (read : ReadsOptional keyword part tokens value rest) (made : Made good tokens) :
    (∀ inner ∈ value, post inner) ∧ Made good rest := by
  cases read with
  | absent => exact ⟨by simp, made⟩
  | present word read =>
      obtain ⟨holds, made⟩ := each _ (made.expect word).2 _ _ read
      exact ⟨by simpa using holds, made⟩

theorem yields_group_by (made : Made good tokens) :
    Yields good (readGroupBy tokens) (Column.Built good) := by
  intro column rest found
  obtain ⟨behind, by_, read⟩ := Option.bind_eq_some_iff.mp found
  exact (column_found read).yields (made.expect by_).2

section Queries

variable {condition : Read Expr} {predicate : Read Predicate} {room : Nat}
  (conditions : ∀ tokens, Made good tokens →
    Yields good (condition tokens) (IsCondition good room tokens))
  (predicates : ∀ tokens, Made good tokens →
    Yields good (predicate tokens) (Predicate.Fits good room))

include conditions predicates

theorem ReadsSubquery.yields {query : Subquery}
    (read : ReadsSubquery condition predicate tokens query rest) (made : Made good tokens) :
    (query.Built good (Predicate.Built good) ∧ query.levels ≤ room) ∧ Made good rest := by
  obtain ⟨select, skipped, from_, source, joins, where_, group, count⟩ := read
  have made := leaves_selection (made.expect select).2 0 _ skipped
  obtain ⟨named, made⟩ := (made.expect from_).2.expect source
  obtain ⟨joined, made⟩ := joins.yields made
  obtain ⟨filtered, made⟩ :=
    where_.yields (fun _ made => (provides_disjunction conditions made).always) made
  obtain ⟨grouped, made⟩ := group.yields (fun _ => yields_group_by) made
  obtain ⟨counted, made⟩ := count.yields predicates made
  refine ⟨⟨query_built.mpr ⟨named, joined, ?_, grouped, ?_⟩, query_levels_le.mpr ⟨?_, ?_⟩⟩, made⟩
  · exact fun filter found => (filtered filter found).built
  · exact fun p found => (counted p found).built
  · exact fun filter found => (filtered filter found).low
  · exact fun p found => (counted p found).low

theorem ReadsEnclosedQuery.yields {query : Subquery}
    (read : ReadsEnclosedQuery condition predicate tokens query rest) (made : Made good tokens)
    (negated : Bool) : (Expr.exist negated query).Fits good (room + 1) ∧ Made good rest := by
  obtain ⟨opened, inner, closed⟩ := read
  obtain ⟨⟨built, low⟩, made⟩ := inner.yields conditions predicates (made.expect opened).2
  exact ⟨⟨built, Nat.succ_le_succ low⟩, (made.expect closed).2⟩

theorem ReadsLevel.yields {expr : Expr} (read : ReadsLevel condition predicate tokens expr rest)
    (made : Made good tokens) : IsCondition good (room + 1) tokens expr ∧ Made good rest := by
  cases read with
  | exist word enclosed =>
      obtain ⟨fits, made⟩ := enclosed.yields conditions predicates (made.expect word).2 false
      exact ⟨⟨fits, rfl, fun _ => by simp [startsWith, word]⟩, made⟩
  | notExist not_ word enclosed =>
      have behind := ((made.expect not_).2.expect word).2
      obtain ⟨fits, made⟩ := enclosed.yields conditions predicates behind true
      exact ⟨⟨fits, rfl, nofun⟩, made⟩
  | @negated inner behind rest not_ other read =>
      obtain ⟨holds, made⟩ := conditions _ (made.expect not_).2 _ _ read
      have plain : inner.isExists = false := by
        by_contra opens
        have starts := holds.opens (by simpa using opens)
        simp [startsWith, other] at starts
      exact ⟨⟨⟨⟨holds.fits.built, holds.single, plain⟩, Nat.succ_le_succ holds.fits.low⟩, rfl,
        nofun⟩, made⟩
  | grouped opened read closed =>
      have inner := provides_disjunction conditions (made.expect opened).2
      rw [read] at inner
      obtain ⟨holds, made⟩ := inner
      exact ⟨⟨⟨holds.built, Nat.succ_le_succ holds.low⟩, rfl, nofun⟩, (made.expect closed).2⟩

end Queries

theorem alone_is_condition {room : Nat} {predicate : Predicate}
    (read : readPredicate (readOperand room) tokens = some (predicate, rest))
    (made : Made good tokens) :
    IsCondition good room tokens (.predicate predicate) ∧ Made good rest := by
  obtain ⟨fits, made⟩ := yields_predicate (fun _ => yields_operand room) made _ _ read
  exact ⟨⟨⟨fits.built, fits.low⟩, rfl, nofun⟩, made⟩

theorem yields_condition (room : Nat) (made : Made good tokens) :
    Yields good (readCondition room tokens) (IsCondition good room tokens) := by
  induction room generalizing tokens with
  | zero =>
      intro expr rest found
      cases condition_found found with
      | predicate read => exact alone_is_condition read made
  | succ room ih =>
      intro expr rest found
      cases condition_found found with
      | predicate read => exact alone_is_condition read made
      | level read =>
          have predicates (tokens : List Token) (made : Made good tokens) :=
            yields_predicate (fun _ => yields_operand room) made
          exact read.yields (fun _ made => ih made) predicates made

/-- An expression that is read off tokens is built of them, within the levels there are. -/
theorem yields_expr (made : Made good tokens) :
    Yields good (readExpr tokens) (Expr.Fits good maxNesting) := by
  cases tokens with
  | nil => exact yields_none
  | cons token rest =>
      exact (provides_disjunction (fun _ made => yields_condition maxNesting made) made).always

def Predicate.target? : Predicate → Option Column
  | .compare left _ _ => left.column?
  | .between target _ _ _ => target.column?
  | _ => none

def Predicate.Named (good : String → Prop) (predicate : Predicate) : Prop :=
  ∀ column ∈ predicate.target?, good column.name

def Join.Named (good : String → Prop) (join : Join) : Prop :=
  good join.table ∧ good join.left.name

def Expr.Named (good : String → Prop) (expr : Expr) : Prop :=
  expr.Regular (Predicate.Named good) (Join.Named good)

section Named

variable {good : String → Prop}

theorem column_named {operand : Operand} {span : String → Prop}
    (built : operand.Built (fun kind => ∀ name, kind = .identifier name → good name) span)
    {column : Column} (found : column ∈ operand.column?) : good column.name := by
  cases operand with
  | column c =>
      cases found
      exact built.2 _ rfl
  | _ => cases found

theorem predicate_named {predicate : Predicate}
    (built : predicate.Built fun kind => ∀ name, kind = .identifier name → good name) :
    predicate.Named good := by
  intro column found
  cases predicate with
  | compare left op right => exact column_named (built left List.mem_cons_self) found
  | between target low high negated => exact column_named (built target List.mem_cons_self) found
  | _ => cases found

theorem built_named {expr : Expr}
    (built : expr.Built (fun kind => ∀ name, kind = .identifier name → good name)
      (Predicate.Named good)) : expr.Named good := by
  induction expr using Expr.induction_within with
  | and items ih =>
      obtain ⟨several, each, -⟩ := built
      exact regular_and.mpr
        ⟨several, fun item found => ih item found (items_built.mp each item found)⟩
  | or items ih =>
      obtain ⟨several, each, -⟩ := built
      exact regular_or.mpr
        ⟨several, fun item found => ih item found (items_built.mp each item found)⟩
  | grouped inner ih => exact regular_grouped.mpr (ih built)
  | not inner ih => exact regular_not.mpr (ih built.1)
  | exist negated query ih =>
      obtain ⟨-, joined, filtered, -, counted⟩ := query_built.mp built
      refine regular_exist.mpr ⟨fun join found => ?_, fun filter found => ?_, counted⟩
      · exact ⟨(joined join found).1 _ rfl, (joined join found).2.1.2 _ rfl⟩
      · exact ih filter found (filtered filter found)
  | predicate p => exact regular_predicate built

theorem yields_named {tokens : List Token} (names : Names good tokens) {expr : Expr}
    {rest : List Token} (found : readExpr tokens = some (expr, rest)) : expr.Named good :=
  built_named ((yields_expr names expr rest found).1.built.imp fun _ _ => predicate_named)

end Named

end Cohort.Sql
