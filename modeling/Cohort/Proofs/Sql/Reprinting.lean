import Cohort.Proofs.Sql.Reading
import Cohort.Proofs.Sql.Spelling

/-!
Reading loses no token. What a reader takes off the tokens of a text is what its written form is
scanned as, whether the text is a condition or not: what cannot be read stands in the expression as
it stood in the text.

A condition that cannot be read is scanned again, from its start, as a fragment. So it does not
matter where within it the reader failed, and each reader is followed only where it reads something.
-/

namespace Cohort.Sql

open Text (quoteMark)

variable {α : Type} {tokens middle rest : List Token} {ks : List TokenKind}

/-- What the reader reads is spelled by its written form. -/
def Reprints (print : α → String) (read : Read α) : Prop :=
  ∀ tokens value rest, Reprintable tokens → read tokens = some (value, rest) →
    Spells (print value) tokens rest

theorem Passes.sound (passes : Passes ks tokens rest) (whole : Reprintable tokens) :
    ∀ kind ∈ ks, kind.IsSound := by
  obtain ⟨front, rfl, rfl⟩ := passes
  intro kind member
  obtain ⟨token, listed, rfl⟩ := List.mem_map.mp member
  exact whole.sound token (List.mem_append_left rest listed)

theorem name_spelled {name : String} (whole : Reprintable tokens)
    (found : expect (.identifier name) tokens = some rest) : Spells name tokens rest := by
  have passes := passes_expect found
  exact passes.spells (writes_name (passes.sound whole _ List.mem_cons_self))

theorem ReadsColumn.passes {column : Column} (read : ReadsColumn tokens column rest) :
    Passes column.kinds tokens rest := by
  cases read with
  | plain named => exact passes_expect named
  | qualified qualifier point named =>
      exact ((passes_expect qualifier).trans (passes_expect point)).trans (passes_expect named)

theorem writes_column_kinds {column : Column} (sound : ∀ kind ∈ column.kinds, kind.IsSound) :
    Writes column.print column.kinds := by
  obtain ⟨_ | table, name⟩ := column
  · exact writes_name (sound (.identifier name) (by simp [Column.kinds]))
  · exact writes_column (sound (.identifier table) (by simp [Column.kinds, columnKinds]))
      (sound (.identifier name) (by simp [Column.kinds, columnKinds]))

theorem ReadsColumn.spelled {column : Column} (read : ReadsColumn tokens column rest)
    (whole : Reprintable tokens) : Spells column.print tokens rest :=
  read.passes.spells (writes_column_kinds (read.passes.sound whole))

def printOperands (values : List Operand) : String :=
  ", ".intercalate (Operand.printAll values)

theorem print_operands_cons (first : Operand) {others : List Operand} (more : others ≠ []) :
    printOperands (first :: others) = first.print ++ ", " ++ printOperands others := by
  cases others with
  | nil => exact absurd rfl more
  | cons second others => simp [printOperands, Operand.printAll, String.intercalate_cons_cons]

section Operands

variable {operand : Read Operand} (each : Reprints Operand.print operand)

include each

theorem ReadsSeparated.spelled {values : List Operand}
    (read : ReadsSeparated (.mark .comma) operand tokens values rest)
    (whole : Reprintable tokens) : Spells (printOperands values) tokens rest := by
  induction read with
  | last here => simpa [printOperands, Operand.printAll] using each _ _ _ whole here
  | more here comma next ih =>
      have spells := each _ _ _ whole here
      have closed := spells.word ", " (passes_expect comma) (by decide) rfl (by decide)
      rw [print_operands_cons _ next.ne_nil]
      exact closed.then (ih (closed.reprintable whole))

theorem ReadsOperands.spelled {values : List Operand}
    (read : ReadsOperands operand tokens values rest) (whole : Reprintable tokens) :
    Spells (printOperands values) tokens rest := by
  cases read with
  | nothing => exact spells_empty tokens
  | listed read => exact read.spelled each whole

theorem reprints_operands : Reprints printOperands (readOperands operand) :=
  fun _ _ _ whole found => (operands_found found).spelled each whole

end Operands

theorem writes_interval {raw : String} (plain : quoteMark ∉ raw.toList) :
    Writes (Operand.interval raw).print [.keyword .INTERVAL, .string raw] := by
  have keyword : Closed "INTERVAL " [.keyword .INTERVAL] := closed_text (by decide) rfl
  have literal := writes_literal raw
  have quoted : Text.literal raw = "'" ++ raw ++ "'" := by
    simp [Text.literal, Text.double_quotes_none plain, ← String.toList_inj, quoteMark]
  rw [Text.double_quotes_none plain, String.ofList_toList, quoted] at literal
  have whole := keyword.then literal
  have shape : "INTERVAL " ++ ("'" ++ raw ++ "'") = "INTERVAL '" ++ raw ++ "'" := by
    simp [← String.toList_inj]
  rwa [shape] at whole

/-- An interval is spelled from where its keyword stands. -/
theorem ReadsInterval.spelled {value : Operand} (read : ReadsInterval middle value rest)
    (whole : Reprintable tokens) (keyword : expect (.keyword .INTERVAL) tokens = some middle) :
    Spells value.print tokens rest := by
  have plain := whole.intervals _ ((List.mem_tails _ _).mpr List.suffix_rfl)
  rw [(passes_expect keyword).kinds_eq] at plain
  cases read with
  | amount found =>
      cases found with
      | literal found =>
          rw [(passes_expect found).kinds_eq] at plain
          simp only [List.cons_append, List.nil_append, plainInterval, Bool.and_eq_true,
            Bool.not_eq_true', List.contains_eq_mem, decide_eq_false_iff_not] at plain
          rw [Text.undouble_quotes_none plain.1, String.ofList_toList]
          exact ((passes_expect keyword).trans (passes_expect found)).spells
            (writes_interval plain.1)
      | number found => simp [(passes_expect found).kinds_eq, plainInterval] at plain
  | unit found named =>
      cases found with
      | literal found =>
          -- A unit behind the literal would be written within it.
          simp [(passes_expect found).kinds_eq, (passes_expect named).kinds_eq, plainInterval,
            TokenKind.isName] at plain
      | number found => simp [(passes_expect found).kinds_eq, plainInterval] at plain

theorem reprints_term {args : Read (List Operand)} (inner : Reprints printOperands args) :
    Reprints Operand.print (readTerm args) := by
  intro tokens value rest whole found
  cases term_found found with
  | call named opened filled closed =>
      have open_ := (name_spelled whole named).word "(" (passes_expect opened) (by decide) rfl
        (by decide)
      have filled := open_.then (inner _ _ _ (open_.reprintable whole) filled)
      exact (filled.word ")" (passes_expect closed) (by decide) rfl (by decide)).spells
  | column read => exact read.spelled whole
  | @string raw _ found =>
      have passes := passes_expect found
      obtain ⟨text, shape⟩ := passes.sound whole (.string raw) List.mem_cons_self
      have literal := writes_literal (String.ofList text)
      rw [String.toList_ofList, ← shape, String.ofList_toList] at literal
      refine passes.spells ?_
      rwa [shape, Text.undouble_double]
  | @number digits _ found =>
      have passes := passes_expect found
      exact passes.spells (writes_numeral (passes.sound whole (.number digits) List.mem_cons_self))
  | @negative digits _ _ minus found =>
      have passes := (passes_expect minus).trans (passes_expect found)
      have number := passes.sound whole (.number digits) (by simp)
      have writes := @writes_negative ("-" ++ digits) digits.toList number (by simp)
      rw [String.ofList_toList] at writes
      exact passes.spells writes
  | null found => exact (passes_expect found).spells (writes_text (by decide) rfl)
  | star found => exact (passes_expect found).spells (writes_text (by decide) rfl)
  | interval keyword read => exact read.spelled whole keyword

theorem closed_sign (sign : Sign) : Closed (" " ++ sign.symbol ++ " ") [.mark sign.mark] := by
  cases sign with
  | plus => exact closed_text (by decide) rfl
  | minus => exact (closed_text (by decide) rfl : Closed " " []).append closed_minus

/-- A sum is spelled as far as it was read. -/
theorem ReadsSum.spelled {term : Read Operand} (each : Reprints Operand.print term)
    {value : Operand} (read : ReadsSum term tokens value rest) (whole : Reprintable tokens) :
    Spells value.print tokens rest := by
  induction read with
  | term found => exact each _ _ _ whole found
  | sum before signed found ih =>
      have glued := ih.close ((passes_expect signed).seals (closed_sign _)) (opens_spaced _)
      have more := glued.then (each _ _ _ (glued.reprintable whole) found)
      simpa [Operand.print, String.append_assoc] using more

theorem reprints_operand (room : Nat) : Reprints Operand.print (readOperand room) := by
  induction room with
  | zero =>
      intro tokens value rest whole found
      exact (operand_found found).spelled (reprints_term (by simp [Reprints])) whole
  | succ room ih =>
      intro tokens value rest whole found
      exact (operand_found found).spelled (reprints_term (reprints_operands ih)) whole

theorem accept_none {kind : TokenKind} (found : accept kind tokens = (false, rest)) :
    rest = tokens := by
  simp only [accept] at found
  split at found <;> simp_all

theorem negation_sealed {negated : Bool} (found : accept (.keyword .NOT) tokens = (negated, rest)) :
    Seals (negation negated) tokens rest := by
  simp only [accept] at found
  split at found
  · next behind not_ =>
      cases found
      exact (passes_expect not_).seals (closed_text (by decide) rfl)
  · cases found
    exact (passes_none tokens).seals fun after => rfl

theorem closed_comparison (op : Comparison) :
    Closed (" " ++ op.symbol ++ " ") [.comparison op] := by
  cases op <;> exact closed_text (by decide) rfl

section Predicates

variable {operand : Read Operand} (each : Reprints Operand.print operand)

include each

/-- A predicate is spelled from where its target starts; `NOT` may stand behind the target. -/
theorem ReadsRelation.spelled {target : Operand} {negated : Bool} {start : List Token}
    {value : Predicate} (read : ReadsRelation operand target tokens negated value rest)
    (whole : Reprintable start) (before : Spells target.print start middle)
    (not_ : accept (.keyword .NOT) middle = (negated, tokens)) :
    Spells value.print start rest := by
  have front := before.blank.trans (negation_sealed not_)
  cases read with
  | bare => rwa [accept_none not_]
  | compare sign second =>
      rw [← accept_none not_] at before
      have glued := before.close ((passes_expect sign).seals (closed_comparison _))
        (opens_spaced _)
      have more := glued.then (each _ _ _ (glued.reprintable whole) second)
      simpa [Predicate.print, String.append_assoc] using more
  | between keyword second and_ third =>
      have between := front.word "BETWEEN " (passes_expect keyword) (by decide) rfl
      have lower := between.then (each _ _ _ (between.reprintable whole) second)
      have glued := lower.word " AND " (passes_expect and_) (by decide) rfl (by decide)
      exact glued.then (each _ _ _ (glued.reprintable whole) third)
  | like keyword second =>
      have like := front.word "LIKE " (passes_expect keyword) (by decide) rfl
      exact like.then (each _ _ _ (like.reprintable whole) second)
  | oneOf keyword opened filled closed =>
      have in_ := front.word "IN (" ((passes_expect keyword).trans (passes_expect opened))
        (by decide) rfl
      have filled := in_.then (filled.spelled each (in_.reprintable whole))
      exact (filled.word ")" (passes_expect closed) (by decide) rfl (by decide)).spells
  | isNull keyword isNot null =>
      rw [← accept_none not_] at before
      have is_ := before.word " IS " (passes_expect keyword) (by decide) rfl (by decide)
      have sealed := is_.trans (negation_sealed isNot)
      exact sealed.then ((passes_expect null).spells (writes_text (by decide) rfl))

theorem reprints_predicate : Reprints Predicate.print (readPredicate operand) := by
  intro tokens value rest whole found
  obtain ⟨first, not_, relation⟩ := predicate_found found
  exact relation.spelled each whole (each _ _ _ whole first) not_

end Predicates

def Reprinted (tokens : List Token) (result : Expr × List Token) : Prop :=
  Covers result.1.print tokens result.2

/-- A fragment is covered by its own characters. -/
theorem fragment_covered (whole : Reprintable tokens) (depth : Nat) :
    Covers (sourceText (splitFragment depth tokens).1) tokens (splitFragment depth tokens).2 := by
  obtain ⟨shape, -⟩ := fragment_level depth tokens
  generalize (splitFragment depth tokens).1 = fragment at shape
  generalize (splitFragment depth tokens).2 = rest at shape
  subst shape
  -- The characters of the fragment are scanned again where they no longer stand in the text.
  obtain ⟨cs, back, found⟩ := whole.stretch
  rw [List.map_append, List.append_assoc] at found
  have scanned := kinds_lexemes found
  rw [lexemes_unplaced, kinds_unplaced] at scanned
  refine ⟨kindsOf fragment, ⟨fragment, rfl, rfl⟩, ?_⟩
  obtain ⟨alone, none_ | apart⟩ := scanned
  · refine .inr ⟨?_, by simpa [sourceText] using alone⟩
    exact List.map_eq_nil_iff.mp (List.append_eq_nil_iff.mp none_).1
  · exact .inl fun after separated => by simpa [sourceText] using apart after separated

theorem recovering_reprinted {condition : Read Expr} (conditions : Reprints Expr.print condition)
    (whole : Reprintable tokens) : Reprinted tokens (recovering condition tokens) := by
  simp only [recovering]
  split
  · next result found => exact (conditions tokens result.1 result.2 whole found).covers
  · exact fragment_covered whole 0

/-- Items between separators are covered by their written forms between the written separator. -/
theorem ReadsSeparated.covered {separator : Keyword} {word : String}
    (ends : endsClosed word.toList = true) (scanned : kinds word.toList = [.keyword separator])
    (opens : word.toList.head?.any isSeparator = true) {item : List Token → Expr × List Token}
    (each : ∀ tokens, Reprintable tokens → Reprinted tokens (item tokens)) {items : List Expr}
    (read : ReadsSeparated (.keyword separator) (always item) tokens items rest)
    (whole : Reprintable tokens) :
    Covers (word.intercalate (Expr.printAll items)) tokens rest := by
  induction read with
  | last here =>
      have only := each _ whole
      rw [Reprinted, Option.some.inj here] at only
      simpa [Expr.printAll] using only
  | @more tokens middle behind rest item others here found next ih =>
      have first := each _ whole
      rw [Reprinted, Option.some.inj here] at first
      have glued := (first.spells (expect_some_left found)).word word (passes_expect found) ends
        scanned opens
      have more := glued.cover (ih (glued.reprintable whole))
      cases others with
      | nil => exact absurd rfl next.ne_nil
      | cons second others =>
          simpa only [Expr.printAll, String.intercalate_cons_cons] using more

theorem fold_print {combine : List Expr → Expr} {word : String}
    (written : ∀ items, (combine items).print = word.intercalate (Expr.printAll items))
    (items : List Expr) :
    (foldItems combine items).print = word.intercalate (Expr.printAll items) := by
  by_cases single : items.length = 1
  · obtain ⟨item, rfl⟩ := List.length_eq_one_iff.mp single
    simp [foldItems, Expr.printAll]
  · rw [fold_several single, written]

section Folds

variable {condition : Read Expr} (conditions : Reprints Expr.print condition)

include conditions

theorem conjunction_reprinted (whole : Reprintable tokens) :
    Reprinted tokens (readConjunction condition tokens) := by
  have items := @ReadsSeparated.covered _ _ .AND " AND " (by decide) rfl (by decide) _
    (fun _ whole => recovering_reprinted conditions whole) _
    (items_found .AND (recovering condition) tokens tokens) whole
  have written := @fold_print .and " AND " fun _ => rfl
  simp only [Reprinted, readConjunction, written]
  exact items

theorem disjunction_reprinted (whole : Reprintable tokens) :
    Reprinted tokens (readDisjunction condition tokens) := by
  have items := @ReadsSeparated.covered _ _ .OR " OR " (by decide) rfl (by decide) _
    (fun _ whole => conjunction_reprinted conditions whole) _
    (items_found .OR (readConjunction condition) tokens tokens) whole
  have written := @fold_print .or " OR " fun _ => rfl
  simp only [Reprinted, readDisjunction, written]
  exact items

end Folds

theorem ReadsJoin.passes {start : List Token} {join : Join} (read : ReadsJoin tokens join rest)
    (inner : expect (.keyword .INNER) start = some middle)
    (join_ : expect (.keyword .JOIN) middle = some tokens) : Passes join.kinds start rest := by
  obtain ⟨source, on, first, equal, second⟩ := read
  have words := (passes_expect inner).trans (passes_expect join_)
  have target := (words.trans (passes_expect source)).trans (passes_expect on)
  exact ((target.trans first.passes).trans (passes_expect equal)).trans second.passes

theorem writes_join {join : Join} (sound : ∀ kind ∈ join.kinds, kind.IsSound) :
    Writes join.print join.kinds := by
  obtain ⟨table, left, right⟩ := join
  have words : Closed " INNER JOIN " [.keyword .INNER, .keyword .JOIN] :=
    closed_text (by decide) rfl
  have on : Closed " ON " [.keyword .ON] := closed_text (by decide) rfl
  have equal : Closed " = " [.comparison .eq] := closed_text (by decide) rfl
  have target := writes_name (sound (.identifier table) (by simp [Join.kinds]))
  have first := @writes_column_kinds left
    fun kind member => sound kind (by simp [Join.kinds, member])
  have second := @writes_column_kinds right
    fun kind member => sound kind (by simp [Join.kinds, member])
  have opening := (words.then target).close on (opens_text (by decide))
  exact ((opening.then first).close equal (opens_text (by decide))).then second

theorem opens_join (join : Join) : Opens join.print := by
  unfold Join.print
  simp only [String.append_assoc]
  exact (opens_text (by decide)).append _

/-- A join holds no parenthesis and ends with a name. -/
theorem join_inert (join : Join) :
    (∀ kind ∈ join.kinds, isInert kind = true) ∧
      join.kinds.getLast?.any TokenKind.isName = true := by
  obtain ⟨table, ⟨_ | _, _⟩, ⟨_ | _, _⟩⟩ := join <;>
    simp [Join.kinds, Column.kinds, columnKinds, isInert, TokenKind.isName]

/-- Behind a name, no `JOIN` stands alone. -/
theorem JoinsInner.behind (inner : JoinsInner tokens) (passes : Passes ks tokens rest)
    (inert : ∀ kind ∈ ks, isInert kind = true) (name : ks.getLast?.any TokenKind.isName = true) :
    JoinsInner rest ∧ expect (.keyword .JOIN) rest = none := by
  rw [JoinsInner, passes.kinds_eq, List.takeWhile_append_of_pos inert, List.isChain_append] at inner
  obtain ⟨-, others, apart⟩ := inner
  refine ⟨others, ?_⟩
  simp only [Option.any_eq_true] at name
  obtain ⟨last, found, isName⟩ := name
  cases rest with
  | nil => rfl
  | cons token rest =>
      by_cases join : token.kind = .keyword .JOIN
      · have first : TokenKind.keyword .JOIN ∈
            ((kindsOf (token :: rest)).takeWhile isInert).head? := by
          rw [kindsOf, List.map_cons, join, List.takeWhile_cons_of_pos rfl]
          rfl
        exact absurd rfl (apart last found _ first isName)
      · simp [expect, join]

/-- Joins behind a name are all written with `INNER`. -/
theorem ReadsJoins.spelled {joins : List Join} (read : ReadsJoins tokens joins rest)
    (whole : Reprintable tokens) (inner : JoinsInner tokens)
    (noJoin : expect (.keyword .JOIN) tokens = none) :
    Spells (String.join (joins.map Join.print)) tokens rest ∧
      Separates (String.join (joins.map Join.print)) := by
  induction read with
  | nothing => exact ⟨spells_empty _, separates_empty⟩
  | @more tokens behind middle rest join others words here next ih =>
      cases words with
      | plain join_ =>
          rw [noJoin] at join_
          cases join_
      | inner inner_ join_ =>
          have passes := here.passes inner_ join_
          -- The join ends with a name again, which is all that the next one needs.
          obtain ⟨inert, name⟩ := join_inert join
          obtain ⟨inner, noJoin⟩ := inner.behind passes inert name
          have spells := passes.spells (writes_join (passes.sound whole))
          obtain ⟨more, apart⟩ := ih (spells.reprintable whole) inner noJoin
          rw [List.map_cons, String.join_cons]
          exact ⟨spells.append more apart, ((opens_join join).append _).separates⟩

def optionally (word : String) (print : α → String) : Option α → String
  | some value => word ++ print value
  | none => ""

theorem ReadsOptional.covered {keyword : Keyword} {part : Read α} {word : String}
    {print : α → String} {value : Option α} (opens : word.toList.head?.any isSeparator = true)
    (each : ∀ behind value, expect (.keyword keyword) tokens = some behind →
      part behind = some (value, rest) → Covers (word ++ print value) tokens rest)
    (read : ReadsOptional keyword part tokens value rest) :
    Covers (optionally word print value) tokens rest ∧
      Separates (optionally word print value) := by
  cases read with
  | absent => exact ⟨(spells_empty tokens).covers, separates_empty⟩
  | present word_ read =>
      exact ⟨each _ _ word_ read, ((opens_text opens).append _).separates⟩

theorem subquery_print (query : Subquery) :
    query.print = "SELECT 1 FROM " ++ query.table ++ String.join (query.joins.map Join.print) ++
      optionally " WHERE " Expr.print query.filter ++
      optionally " GROUP BY " Column.print query.groupBy ++
      optionally " HAVING " Predicate.print query.having := by
  obtain ⟨table, joins, _ | _, _ | _, _ | _⟩ := query <;> rfl

section Queries

variable {condition : Read Expr} {predicate : Read Predicate}
  (conditions : Reprints Expr.print condition) (predicates : Reprints Predicate.print predicate)

include conditions predicates

/-- A sub-query that does not end with the tokens. -/
theorem ReadsSubquery.spelled {query : Subquery}
    (read : ReadsSubquery condition predicate tokens query rest) (whole : Reprintable tokens)
    (plain : ∀ query ∈ expect (.keyword .SELECT) tokens, SelectsOne query ∧ JoinsInner query)
    (left_ : rest ≠ []) : Spells query.print tokens rest := by
  obtain ⟨select, skipped, from_, source, joins, where_, group, count⟩ := read
  obtain ⟨one, inner⟩ := plain _ select
  have literal := one _ skipped
  -- What is selected, the table and its joins.
  have words := (passes_expect select).trans ((passes_expect literal).trans (passes_expect from_))
  have opening := words.seals (closed_text (by decide : endsClosed "SELECT 1 FROM ".toList) rfl)
  have tables := opening.then (name_spelled (opening.reprintable whole) source)
  have passes := ((passes_expect literal).trans (passes_expect from_)).trans (passes_expect source)
  obtain ⟨inner, noJoin⟩ := inner.behind passes (by simp [isInert]) (by simp [TokenKind.isName])
  obtain ⟨more, apart⟩ := joins.spelled (tables.reprintable whole) inner noJoin
  have tables := tables.append more apart
  -- Each part that may be missing starts where the one in front of it ends.
  have ok := tables.reprintable whole
  obtain ⟨filters, apart⟩ := @ReadsOptional.covered _ _ _ _ _ " WHERE " Expr.print _ (by decide)
    (fun after value keyword read => by
      have seals := (passes_expect keyword).seals
        (closed_text (by decide : endsClosed " WHERE ".toList) rfl)
      have whole := disjunction_reprinted conditions (seals.reprintable ok)
      rw [Reprinted, Option.some.inj read] at whole
      exact seals.cover whole) where_
  have ok := filters.reprintable ok
  obtain ⟨groups, apart'⟩ := @ReadsOptional.covered _ _ _ _ _ " GROUP BY " Column.print _
    (by decide) (fun after value keyword read => by
      obtain ⟨after', by_, read⟩ := Option.bind_eq_some_iff.mp read
      have seals := ((passes_expect keyword).trans (passes_expect by_)).seals
        (closed_text (by decide : endsClosed " GROUP BY ".toList) rfl)
      exact (seals.then ((column_found read).spelled (seals.reprintable ok))).covers) group
  have ok := groups.reprintable ok
  obtain ⟨counts, apart''⟩ := @ReadsOptional.covered _ _ _ _ _ " HAVING " Predicate.print _
    (by decide) (fun after value keyword read => by
      have seals := (passes_expect keyword).seals
        (closed_text (by decide : endsClosed " HAVING ".toList) rfl)
      exact (seals.then (predicates _ _ _ (seals.reprintable ok) read)).covers) count
  -- Something is left behind the last of them, so something is left behind each.
  have left' := counts.some_left left_
  have left'' := groups.some_left left'
  rw [subquery_print]
  exact ((tables.append (filters.spells left'') apart).append (groups.spells left') apart').append
    (counts.spells left_) apart''

/-- A sub-query between parentheses is spelled from where the words in front of it start. -/
theorem ReadsEnclosedQuery.spelled {query : Subquery} {start : List Token}
    (read : ReadsEnclosedQuery condition predicate middle query rest) (negated : Bool)
    (whole : Reprintable start) (before : Seals (negation negated) start tokens)
    (exists_ : expect (.keyword .EXISTS) tokens = some middle) :
    Spells (Expr.exist negated query).print start rest := by
  obtain ⟨opened, inner, closed⟩ := read
  have plain : ∀ query ∈ expect (.keyword .SELECT) _, SelectsOne query ∧ JoinsInner query :=
    fun query member => (before.reprintable whole).queries tokens
      ((List.mem_tails _ _).mpr List.suffix_rfl) query
        (by simpa [queryAt, exists_, opened] using member)
  have open_ := before.word "EXISTS (" ((passes_expect exists_).trans (passes_expect opened))
    (by decide) rfl
  -- The closing parenthesis is what is left behind the sub-query.
  have filled := open_.then (inner.spelled conditions predicates (open_.reprintable whole) plain
    (expect_some_left closed))
  exact (filled.word ")" (passes_expect closed) (by decide) rfl (by decide)).spells

theorem ReadsLevel.spelled {expr : Expr} (read : ReadsLevel condition predicate tokens expr rest)
    (whole : Reprintable tokens) : Spells expr.print tokens rest := by
  cases read with
  | exist word enclosed =>
      have nothing : Seals (negation false) tokens tokens :=
        (passes_none _).seals fun after => rfl
      exact enclosed.spelled conditions predicates false whole nothing word
  | notExist not_ word enclosed =>
      have words : Seals (negation true) tokens _ :=
        (passes_expect not_).seals (closed_text (by decide) rfl)
      exact enclosed.spelled conditions predicates true whole words word
  | negated not_ other read =>
      have words : Seals (negation true) tokens _ :=
        (passes_expect not_).seals (closed_text (by decide) rfl)
      exact words.then (conditions _ _ _ (words.reprintable whole) read)
  | grouped opened read closed =>
      have open_ : Seals "(" tokens _ :=
        (passes_expect opened).seals (closed_text (by decide) rfl)
      have inner := disjunction_reprinted conditions (open_.reprintable whole)
      rw [read] at inner
      have filled := open_.then (inner.spells (expect_some_left closed))
      exact (filled.word ")" (passes_expect closed) (by decide) rfl (by decide)).spells

end Queries

theorem reprints_condition (room : Nat) : Reprints Expr.print (readCondition room) := by
  -- With no levels left, what opens one is not read; the fragment around it is kept as it stands.
  induction room with
  | zero =>
      intro tokens expr rest whole found
      cases condition_found found with
      | predicate read => exact reprints_predicate (reprints_operand 0) _ _ _ whole read
  | succ room ih =>
      intro tokens expr rest whole found
      cases condition_found found with
      | predicate read => exact reprints_predicate (reprints_operand (room + 1)) _ _ _ whole read
      | level read => exact read.spelled ih (reprints_predicate (reprints_operand room)) whole

/-- Tokens that stand in a text one behind the other are reprintable as far as the text is. -/
theorem stretch_reprintable {text : String} (stretch : tokens <:+: tokenize text)
    (unquoted : ∀ token ∈ tokens, token.isQuotedName = false)
    (intervals : ∀ rest ∈ (kindsOf tokens).tails, plainInterval rest = true)
    (queries : ∀ rest ∈ tokens.tails, ∀ query ∈ queryAt rest,
      SelectsOne query ∧ JoinsInner query) : Reprintable tokens where
  stretch := by
    obtain ⟨front, back, shape⟩ := stretch
    have found : pieces text.toList = front.map Token.unplaced ++
        (tokens.map Token.unplaced ++ back.map Token.unplaced) := by
      rw [← List.map_append, ← List.map_append, ← List.append_assoc, shape]
      rfl
    obtain ⟨behind, -, last⟩ := last_pieces found
    exact ⟨behind, _, last⟩
  sound := fun token member => tokens_sound (stretch.mem member) (unquoted token member)
  intervals := intervals
  queries := queries

/-- The written form of what is read is scanned as the tokens in front of those that are left,
whatever the tokens are. It says that a sub-query selects `1`, writes every join as `INNER JOIN`
and puts the amount and the unit of an interval into one literal; so must the tokens. -/
theorem no_token_lost {text : String} {tokens : List Token} (stretch : tokens <:+: tokenize text)
    (some_ : tokens ≠ []) (unquoted : ∀ token ∈ tokens, token.isQuotedName = false)
    (intervals : ∀ rest ∈ (kindsOf tokens).tails, plainInterval rest = true)
    (queries : ∀ rest ∈ tokens.tails, ∀ query ∈ queryAt rest,
      SelectsOne query ∧ JoinsInner query) :
    ∃ expr rest, readExpr tokens = some (expr, rest) ∧
      kindsOf (tokenize expr.print) ++ kindsOf rest = kindsOf tokens := by
  have whole := stretch_reprintable stretch unquoted intervals queries
  have covers := disjunction_reprinted (reprints_condition maxNesting) whole
  cases tokens with
  | nil => exact absurd rfl some_
  | cons token behind => exact ⟨_, _, rfl, covers.kinds_eq⟩

def malformed : String :=
  "a AND (b ! 'x' -- and\n c) OR NOT EXISTS (SELECT 1 FROM p INNER JOIN q ON p.k = q.k " ++
    "WHERE t > INTERVAL '3 days' AND GROUP BY k)) y 'z"

theorem malformed_keeps_tokens :
    ∃ expr rest, readExpr (tokenize malformed) = some (expr, rest) ∧
      kindsOf (tokenize expr.print) ++ kindsOf rest = kindsOf (tokenize malformed) := by
  obtain ⟨some_, unquoted, intervals, queries⟩ :
      tokenize malformed ≠ [] ∧ (∀ token ∈ tokenize malformed, token.isQuotedName = false) ∧
        (∀ rest ∈ (kindsOf (tokenize malformed)).tails, plainInterval rest = true) ∧
        ∀ rest ∈ (tokenize malformed).tails, ∀ query ∈ queryAt rest,
          SelectsOne query ∧ JoinsInner query := by decide +kernel
  exact no_token_lost List.infix_rfl some_ unquoted intervals queries

end Cohort.Sql
