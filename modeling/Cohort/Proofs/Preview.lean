import Cohort.Proofs.Clause.Contained
import Cohort.Proofs.Recovery.Framing
import Cohort.Proofs.Recovery.Ledger

/-!
The preview and the count of a segment, read back. They select by the clause that its statement
selects by: of both, the same comes back as of the statement. The limit of a preview is reported as
a surplus, unless the last clause stops at an exponent; then it is taken for a part of that clause.
-/

namespace Cohort

open Sql
open Text (isBlank isBlankText)

/-- Behind a blank, the text is cut into the tokens, whatever separator follows. -/
def CutInto (text : String) (tokens : List Token) : Prop :=
  ∀ after, Separated after → pieces (' ' :: (text.toList ++ after)) = tokens ++ pieces after

theorem CutInto.kinds_eq {text : String} {tokens : List Token} {ks : List TokenKind}
    (cut : CutInto text tokens) (writes : Writes text ks) : kindsOf tokens = ks := by
  have alone := cut [] separated_nil
  have blank : isBlank ' ' = true := by decide
  rw [show pieces [] = [] from rfl, List.append_nil, List.append_nil] at alone
  rw [← alone, kinds_of_pieces, kinds_blank blank, ← kinds_of_tokenize, writes.kinds_eq]

def matchAllTokens : List Token :=
  [⟨.number "1", [' '], ['1'], 0⟩, ⟨.comparison .eq, [], ['='], 0⟩, ⟨.number "1", [], ['1'], 0⟩]

theorem match_all_cut : CutInto matchAll matchAllTokens := fun _ separated =>
  @pieces_behind (' ' :: matchAll.toList) _ matchAllTokens (by decide +kernel) (by decide) separated

theorem fold_cut (combinator : Combinator) {clauses : List String}
    (contained : ∀ clause ∈ clauses, SelfContained clause) (some_ : clauses ≠ []) :
    CutInto
      ((" " ++ combinator.keyword ++ " ").intercalate
        (clauses.map fun clause => "(" ++ clause ++ ")"))
      (chain combinator [' '] clauses) :=
  fun after _ => pieces_chain_before combinator contained (.inr rfl) some_ after

structure Selects (front dataset : String) : Prop where
  terminated : Terminated front.toList
  outside : endsWithinComment front.toList = false
  dataset : ∀ tokens after, kindsOf tokens = kinds front.toList →
    outerDataset 0 (tokens ++ after) = some dataset
  condition : ∀ tokens after, kindsOf tokens = kinds front.toList →
    whereBody 0 (tokens ++ after) = whereBody 0 after

/-- What is selected closes what it opens, and no word of the frame stands in it. -/
theorem selects_from {list name dataset : String} {ks : List TokenKind}
    (closed : Closed list (ks ++ [.keyword .FROM])) (written : Writes name [.identifier dataset])
    (sole : .keyword .FROM ∉ ks ∧ .keyword .WHERE ∉ ks) (level : depthBehind 0 ks = 0) :
    Selects (list ++ name) dataset := by
  have whole := closed.then written
  have kinds_ : kinds (list ++ name).toList = ks ++ [.keyword .FROM, .identifier dataset] := by
    rw [← kinds_of_tokenize, whole.kinds_eq, List.append_assoc, List.singleton_append]
  refine ⟨whole.ends.1, whole.ends.2, fun tokens after shape => ?_, fun tokens after shape => ?_⟩
  all_goals
    rw [kinds_] at shape
    obtain ⟨front, behind, rfl, front_, shape⟩ := List.map_eq_append_iff.mp shape
    obtain ⟨from_, behind, rfl, first, shape⟩ := kinds_of_cons shape
    obtain ⟨name, behind, rfl, second, shape⟩ := kinds_of_cons shape
    obtain rfl : behind = [] := List.map_eq_nil_iff.mp shape
    obtain rfl : kindsOf front = ks := front_
    rw [List.append_assoc]
  · rw [outer_dataset_behind front sole.1, level]
    simp [outerDataset, readName, first, second]
  · rw [where_body_behind front sole.2, level]
    simp [whereBody, depthAfter, first, second]

theorem selects_rows {name dataset : String} (written : Writes name [.identifier dataset]) :
    Selects ("SELECT * FROM " ++ name) dataset := by
  have list : Closed "SELECT * FROM " ([.keyword .SELECT, .mark .star] ++ [.keyword .FROM]) :=
    closed_text (by decide) (by decide +kernel)
  exact selects_from list written (by decide) rfl

theorem selects_count {name dataset : String} (written : Writes name [.identifier dataset]) :
    Selects ("SELECT COUNT(*) FROM " ++ name) dataset := by
  have list : Closed "SELECT COUNT(*) FROM " ([.keyword .SELECT, .identifier "COUNT", .mark .lparen,
      .mark .star, .mark .rparen] ++ [.keyword .FROM]) :=
    closed_text (by decide) (by decide +kernel)
  exact selects_from list written (by decide) rfl

/-- A plain name is the same name between the quotes of a dialect. -/
theorem quote_name_writes (dialect : Dialect) {name : String} (plain : IsPlain name) :
    Writes (dialect.quoteName name) [.identifier name] := by
  have quotes : dialect.quote = '\x22' ∨ dialect.quote = '\x60' := by
    cases dialect <;> simp [Dialect.quote]
  have word : ∀ c ∈ name.toList, isWordChar c = true := by
    obtain ⟨c, rest, shape, start, letters, _⟩ := plain_word plain
    rw [shape]
    exact List.forall_mem_cons.mpr ⟨word_start_is_word start, letters⟩
  have free : dialect.quote ∉ name.toList := fun inside => by
    have mark := word_no_mark (word _ inside)
    rcases quotes with same | same <;> exact mark (by rw [same]; decide)
  have same : name.toList.flatMap (fun c => if c = dialect.quote then [c, c] else [c]) =
      name.toList := by
    rw [List.flatMap_congr fun c inside => if_neg (ne_of_mem_of_not_mem inside free)]
    exact List.flatMap_singleton' name.toList
  rw [Dialect.quoteName, same]
  exact (closed_quoted quotes free).writes

theorem framed {front dataset text : String} (selects : Selects front dataset) {tokens : List Token}
    (cut : CutInto text tokens) {tail : List Char} (separated : Separated tail) :
    let cs := (front ++ " WHERE " ++ text).toList ++ tail
    outerDataset 0 (pieces cs) = some dataset ∧
      whereBody 0 (pieces cs) = some (untilSemicolon 0 (tokens ++ pieces tail)) := by
  intro cs
  have condition := @pieces_behind " WHERE".toList (' ' :: (text.toList ++ tail))
    [⟨.keyword .WHERE, [' '], "WHERE".toList, 0⟩] (by decide +kernel) (by decide)
    (separated_head rfl _)
  rw [cut tail separated] at condition
  have opens : Opens " WHERE" := opens_text (by decide)
  have whole := pieces_separated selects.terminated selects.outside
    (opens (' ' :: (text.toList ++ tail)))
  have shape : cs = front.toList ++ (" WHERE".toList ++ ' ' :: (text.toList ++ tail)) := by
    simp [cs]
  rw [shape, whole, condition]
  refine ⟨selects.dataset _ _ (kinds_of_pieces _), ?_⟩
  rw [selects.condition _ _ (kinds_of_pieces _)]
  simp [indent, whereBody]

/-! ### Recovery from pieces -/

/-- The places of the tokens do not matter. -/
theorem recovered_of_pieces {sql : String} {dataset : Option String} {body rest : List Token}
    {expr : Expr} (framed : outerDataset 0 (pieces (normalizeStatement sql).toList) = dataset)
    (found : whereBody 0 (pieces (normalizeStatement sql).toList) = some body)
    (read : readExpr body = some (expr, rest)) :
    Recovered.ofStatement sql = Recovered.ofCondition dataset expr rest := by
  have seen : pieces (normalizeStatement sql).toList =
      placeView.see (tokenize (normalizeStatement sql)) := rfl
  rw [seen] at framed found
  rw [outer_dataset_see] at framed
  rw [where_body_see] at found
  obtain ⟨body', found', rfl⟩ := Option.map_eq_some_iff.mp found
  have blind := @blind_expr placeView body'
  rw [read] at blind
  cases read' : readExpr body' with
  | none => simp [read'] at blind
  | some pair =>
      obtain ⟨expr', rest'⟩ := pair
      rw [read', seen_some] at blind
      obtain ⟨rfl, rfl⟩ := Prod.mk.inj (Option.some.inj blind)
      have empty (tokens : List Token) : (placeView.see tokens).isEmpty = tokens.isEmpty :=
        List.isEmpty_map
      have same : Recovered.ofCondition dataset (expr'.reword placeView.text)
          (placeView.see rest') = Recovered.ofCondition dataset expr' rest' := by
        rw [show placeView.text = id from rfl, expr_reword_id]
        simp only [Recovered.ofCondition, accept_see, source_see, empty]
        rfl
      rw [same]
      simp only [Recovered.ofStatement, found', read', framed]
      rfl

theorem recovered_selection {sql front dataset text : String} (selects : Selects front dataset)
    {tokens : List Token} (cut : CutInto text tokens) {height : Nat}
    (nested : Nested height (kindsOf tokens)) {tail : List Char} (separated : Separated tail)
    (shape : (normalizeStatement sql).toList = (front ++ " WHERE " ++ text).toList ++ tail)
    {expr : Expr} {rest : List Token}
    (read : readExpr (tokens ++ untilSemicolon 0 (pieces tail)) = some (expr, rest)) :
    Recovered.ofStatement sql = Recovered.ofCondition (some dataset) expr rest := by
  obtain ⟨outer, body⟩ := framed selects cut separated
  rw [until_semicolon_before nested] at body
  rw [← shape] at outer body
  exact recovered_of_pieces outer body read

def limitText (limit : Nat) : String :=
  "LIMIT " ++ Decimal.numberText limit

def limitTokens (limit : Nat) : List Token :=
  [⟨.identifier "LIMIT", [' '], "LIMIT".toList, 0⟩,
    ⟨.number (Decimal.numberText limit), [' '], (Decimal.numberText limit).toList, 0⟩]

theorem source_limit (limit : Nat) : sourceText (limitTokens limit) = limitText limit := by
  simp [sourceText, lexemes, limitTokens, limitText, ← String.toList_inj]

theorem characters_limit (limit : Nat) :
    String.ofList (characters (limitTokens limit)) = " " ++ limitText limit := by
  simp [characters, limitTokens, limitText, ← String.toList_inj]

theorem limit_cut (limit : Nat) :
    untilSemicolon 0 (pieces (" " ++ limitText limit ++ ";").toList) = limitTokens limit := by
  have semicolon : pieces [';'] = [⟨.mark .semicolon, [], [';'], 0⟩] := by decide +kernel
  have amount := pieces_number (number_text_numeral limit) (@separated_head ';' rfl [])
  have word := @pieces_behind " LIMIT".toList (' ' :: ((Decimal.numberText limit).toList ++ [';']))
    [⟨.identifier "LIMIT", [' '], "LIMIT".toList, 0⟩] (by decide +kernel) (by decide)
    (separated_head rfl _)
  have shape : (" " ++ limitText limit ++ ";").toList =
      " LIMIT".toList ++ ' ' :: ((Decimal.numberText limit).toList ++ [';']) := by
    simp [limitText]
  rw [shape, word, amount, semicolon, String.ofList_toList]
  simp [untilSemicolon, depthAfter, limitTokens]

def IsTail (tail : List Token) : Prop :=
  tail = [] ∨ ∃ limit, tail = limitTokens limit

theorem IsTail.no_word {tail : List Token} (limits : IsTail tail) (word : Keyword) :
    expect (.keyword word) tail = none := by
  rcases limits with rfl | ⟨limit, rfl⟩
  · rfl
  · simp [expect, limitTokens]

theorem IsTail.fragment {tail : List Token} (limits : IsTail tail) :
    splitFragment 0 tail = (tail, []) := by
  rcases limits with rfl | ⟨limit, rfl⟩
  · rfl
  · simp [splitFragment, limitTokens, endsFragment]

theorem match_all_reads {tail : List Token} (limits : IsTail tail) :
    readExpr (matchAllTokens ++ tail) = some (matchAllExpr, tail) := by
  rcases limits with rfl | ⟨limit, rfl⟩
  · rfl
  · rw [limitTokens]
    generalize Decimal.numberText limit = digits
    rfl

theorem source_enclosed (layout : List Char) (clause : String) (tail : List Token) :
    sourceText (enclosed layout clause ++ tail) =
      "(" ++ clause ++ ")" ++ String.ofList (characters tail) := by
  have whole := characters_remainder clause.toList
  simp only [characters] at whole
  have inner : clause.toList ++ ')' :: characters tail =
      (pieces clause.toList).flatMap (fun token => token.layout ++ token.lexeme) ++
        (remainder clause.toList ++ ')' :: characters tail) := by
    rw [← List.append_assoc, whole]
  rw [← String.toList_inj]
  simp [sourceText, lexemes, enclosed, inner]
  rfl

section Chains

variable (combinator : Combinator) {front : List String} {last : String}
  (contained : ∀ clause ∈ front, SelfContained clause)

include contained

theorem chain_goes_on (whole : ReadWhole last) :
    ∃ expr, ∀ tail, IsTail tail →
      readExpr (chain combinator [' '] (front ++ [last]) ++ tail) = some (expr, tail) := by
  obtain ⟨items, parts⟩ := clause_parts maxNesting contained
  obtain ⟨item, read⟩ := whole
  refine ⟨foldItems combinator.fold (items ++ [item]), fun tail limits => ?_⟩
  have some_ : chain combinator [' '] (front ++ [last]) ++ tail ≠ [] := fun none_ =>
    chain_some combinator [' '] (by simp) (List.append_eq_nil_iff.mp none_).1
  rw [reads_tokens some_]
  refine congrArg some (fold_chain combinator parts (fun layout => ?_) (limits.no_word .AND)
    (limits.no_word .OR) [' '])
  rw [recovering, read]

theorem chain_stops (lastContained : SelfContained last) (refused : Refused last) :
    ∃ items, ∀ tail, IsTail tail →
      readExpr (chain combinator [' '] (front ++ [last]) ++ tail) =
        some (foldItems combinator.fold (items ++
          [.predicate (.unparsed ("(" ++ last ++ ")" ++ String.ofList (characters tail)))]),
          []) := by
  obtain ⟨items, parts⟩ := clause_parts maxNesting contained
  refine ⟨items, fun tail limits => ?_⟩
  have some_ : chain combinator [' '] (front ++ [last]) ++ tail ≠ [] := fun none_ =>
    chain_some combinator [' '] (by simp) (List.append_eq_nil_iff.mp none_).1
  rw [reads_tokens some_]
  refine congrArg some (fold_chain combinator parts (fun layout => ?_) rfl rfl [' '])
  have fragment : splitFragment 0 (enclosed layout last ++ tail) =
      (enclosed layout last ++ tail, []) := by
    have whole := @fragment_behind (pieces last.toList) ⟨.mark .lparen, [], ['('], 0⟩
      ⟨.mark .rparen, remainder last.toList, [')'], 0⟩ rfl rfl (balanced_pieces lastContained)
      layout tail
    rw [limits.fragment] at whole
    simpa [enclosed] using whole
  simp only [recovering, refused.enclosed layout tail, fragment, source_enclosed]

end Chains

/-- A fragment at the end of a fold is the last that is dropped; nothing else depends on its text. -/
theorem recover_last (combinator : Combinator) (items : List Expr) :
    ∃ criteria lastId dropped, ∀ text,
      recoverCriteria (foldItems combinator.fold (items ++ [.predicate (.unparsed text)])) {} =
        (criteria, ⟨lastId, dropped ++ [⟨text, .unparseable⟩]⟩) := by
  have group (text : String) (ledger : Ledger) :
      recoverGroup (.predicate (.unparsed text)) ledger =
        (none, ⟨ledger.lastId, ledger.dropped ++ [⟨text, .unparseable⟩]⟩) := rfl
  have split : ∃ combinator', ∀ text,
      splitFold (foldItems combinator.fold (items ++ [.predicate (.unparsed text)])) =
        (combinator', items ++ [.predicate (.unparsed text)]) := by
    by_cases alone : items = []
    · subst alone
      exact ⟨.and, fun text => rfl⟩
    · refine ⟨combinator, fun text => ?_⟩
      have several : (items ++ [Expr.predicate (.unparsed text)]).length ≠ 1 := by simpa using alone
      rw [fold_several several]
      cases combinator <;> rfl
  obtain ⟨combinator', split⟩ := split
  refine ⟨⟨[], (recoverEach recoverGroup items {}).1, combinator'⟩,
    (recoverEach recoverGroup items {}).2.lastId, (recoverEach recoverGroup items {}).2.dropped,
    fun text => ?_⟩
  have whole := each_concat recoverGroup items (.predicate (.unparsed text)) {}
  rw [group, Option.toList_none, List.append_nil] at whole
  have shape (expr : Expr) : recoverCriteria expr {} =
      (⟨[], (recoverGroups (splitFold expr).2 {}).1, (splitFold expr).1⟩,
        (recoverGroups (splitFold expr).2 {}).2) := rfl
  rw [shape, split, recover_groups_each, whole]

def Criteria.parts (criteria : Criteria) : List Member :=
  criteria.conditions.map .condition ++ criteria.groups.map .group

def Criteria.shown (source : EventSource) (table : String) (criteria : Criteria) : List Member :=
  Member.shown source table criteria.parts

/-- The last of them is a filter of which the clause stops at an exponent. -/
def Criteria.StopsAtExponent (source : EventSource) (table : String) (criteria : Criteria) : Prop :=
  ∃ member ∈ (criteria.shown source table).getLast?, member.StopsAtExponent

instance (source : EventSource) (table : String) (criteria : Criteria) :
    Decidable (criteria.StopsAtExponent source table) :=
  inferInstanceAs (Decidable (∃ member ∈ (criteria.shown source table).getLast?,
    member.StopsAtExponent))

theorem part_leaves {criteria : Criteria} {member : Member} (part : member ∈ criteria.parts) :
    ∀ c ∈ member.leaves, c ∈ criteria.leaves := by
  intro c leaf
  rcases List.mem_append.mp part with found | found
  · obtain ⟨condition, inside, rfl⟩ := List.mem_map.mp found
    obtain rfl : c = condition := by simpa [Member.leaves] using leaf
    exact List.mem_append_left _ inside
  · obtain ⟨group, inside, rfl⟩ := List.mem_map.mp found
    exact List.mem_append_right _ (List.mem_flatMap.mpr ⟨group, inside, leaf⟩)

theorem fold_ends (combinator : Combinator) {clauses : List String} (some_ : clauses ≠ []) :
    ((" " ++ combinator.keyword ++ " ").intercalate
      (clauses.map fun clause => "(" ++ clause ++ ")")).toList.getLast? = some ')' := by
  induction clauses with
  | nil => exact absurd rfl some_
  | cons clause rest ih =>
      cases rest with
      | nil =>
          have shape : ("(" ++ clause ++ ")").toList = '(' :: clause.toList ++ [')'] := by simp
          rw [List.map_singleton, String.intercalate_singleton, shape, List.getLast?_concat]
      | cons next rest =>
          have others := ih (List.cons_ne_nil next rest)
          rw [List.map_cons, String.intercalate_cons_of_ne_nil (by simp), String.toList_append,
            List.getLast?_append, others]
          rfl

section Criteria

variable {source : EventSource} {table : String} {criteria : Criteria}

theorem where_clause_parts (source : EventSource) (table : String) (criteria : Criteria) :
    criteria.whereClause source table =
      let folded := (" " ++ criteria.combinator.keyword ++ " ").intercalate
        (((criteria.shown source table).map (Member.clause source table)).map
          fun clause => "(" ++ clause ++ ")")
      if folded.isEmpty then matchAll else folded := by
  have clauses : criteria.conditions.map (Condition.clause source table) ++
      criteria.groups.map (Group.clause source table) =
        criteria.parts.map (Member.clause source table) := by
    simp [Criteria.parts, Member.clause, Function.comp_def]
  rw [Criteria.whereClause, clauses, fold_shown]
  rfl

theorem where_clause_empty (none_ : criteria.shown source table = []) :
    criteria.whereClause source table = matchAll := by
  rw [where_clause_parts, none_]
  rfl

theorem where_clause_shown (some_ : criteria.shown source table ≠ []) :
    criteria.whereClause source table =
      (" " ++ criteria.combinator.keyword ++ " ").intercalate
        (((criteria.shown source table).map (Member.clause source table)).map
          fun clause => "(" ++ clause ++ ")") := by
  have last := fold_ends criteria.combinator
    (List.map_eq_nil_iff.not.mpr some_ : (criteria.shown source table).map (Member.clause source table) ≠ [])
  rw [where_clause_parts]
  refine if_neg fun empty => ?_
  rw [String.isEmpty_iff.mp empty] at last
  cases last

variable (plain : source.Plain) (tablePlain : IsPlain table)
  (named : ∀ c ∈ criteria.leaves, c.Named IsPlain)

include plain tablePlain named

theorem shown_write :
    ∀ clause ∈ (criteria.shown source table).map (Member.clause source table),
      WritesNested clause :=
  shown_each fun member part filled =>
    member_writes plain tablePlain member (fun c leaf => named c (part_leaves part c leaf)) filled

theorem where_clause_writes : WritesNested (criteria.whereClause source table) := by
  by_cases none_ : criteria.shown source table = []
  · rw [where_clause_empty none_]
    exact (match_all_denotes.as le_rfl).item.writes_nested
  · rw [where_clause_shown none_]
    exact fold_writes_nested criteria.combinator (shown_write plain tablePlain named)
      (by simpa using none_)

omit plain tablePlain named in
theorem where_clause_ends (source : EventSource) (table : String) (criteria : Criteria) :
    ∃ c, (criteria.whereClause source table).toList.getLast? = some c ∧ (c = ')' ∨ c = '1') := by
  by_cases none_ : criteria.shown source table = []
  · rw [where_clause_empty none_]
    exact ⟨'1', rfl, .inr rfl⟩
  · rw [where_clause_shown none_]
    exact ⟨')', fold_ends criteria.combinator (by simpa using none_), .inl rfl⟩

theorem shown_cut (some_ : criteria.shown source table ≠ []) :
    CutInto (criteria.whereClause source table)
      (chain criteria.combinator [' ']
        ((criteria.shown source table).map (Member.clause source table))) := by
  rw [where_clause_shown some_]
  exact fold_cut criteria.combinator
    (fun clause found => (shown_write plain tablePlain named clause found).contained)
    (by simpa using some_)

section Last

variable {front : List Member} {last : Member}
  (shape : criteria.shown source table = front ++ [last])

include shape

theorem front_contained :
    ∀ clause ∈ front.map (Member.clause source table), SelfContained clause := by
  intro clause found
  refine (shown_write plain tablePlain named clause ?_).contained
  rw [shape, List.map_append]
  exact List.mem_append_left _ found

omit plain tablePlain named in
theorem last_part : last ∈ criteria.parts ∧ isBlankText (last.clause source table) = false := by
  have found : last ∈ criteria.shown source table := by simp [shape]
  obtain ⟨part, filled⟩ := List.mem_filter.mp found
  exact ⟨part, by simpa using filled⟩

omit plain tablePlain named in
theorem stops_iff : criteria.StopsAtExponent source table ↔ last.StopsAtExponent := by
  simp [Criteria.StopsAtExponent, shape]

/-- Unless the last clause stops at an exponent, the condition is read to its end, whether a limit
stands behind it or not. -/
theorem last_goes_on (goesOn : ¬ last.StopsAtExponent) :
    ∃ expr, ∀ tail, IsTail tail →
      readExpr (chain criteria.combinator [' ']
        ((criteria.shown source table).map (Member.clause source table)) ++ tail) =
          some (expr, tail) := by
  obtain ⟨part, filled⟩ := last_part shape
  rw [shape, List.map_append, List.map_singleton]
  exact chain_goes_on criteria.combinator (front_contained plain tablePlain named shape)
    (member_reads plain tablePlain (fun c leaf => named c (part_leaves part c leaf)) filled goesOn)

/-- A limit behind a clause that stops at an exponent is taken with it. -/
theorem last_stops (stops : last.StopsAtExponent) :
    ∃ items, ∀ tail, IsTail tail →
      readExpr (chain criteria.combinator [' ']
        ((criteria.shown source table).map (Member.clause source table)) ++ tail) =
          some (foldItems criteria.combinator.fold (items ++ [.predicate (.unparsed
            ("(" ++ last.clause source table ++ ")" ++ String.ofList (characters tail)))]), []) := by
  obtain ⟨part, filled⟩ := last_part shape
  have leaf := fun c leaf => named c (part_leaves part c leaf)
  rw [shape, List.map_append, List.map_singleton]
  exact chain_stops criteria.combinator (front_contained plain tablePlain named shape)
    (member_writes plain tablePlain last leaf filled).contained
    (member_refused tablePlain leaf stops)

end Last

end Criteria

/-! ### Statements -/

theorem selection_normalized {front back : String} (start : front.toList.head? = some 'S') {c : Char}
    (last : back.toList.getLast? = some c) (solid : isBlank c = false) (open_ : c ≠ ';') :
    (normalizeStatement (front ++ back)).toList = (front ++ back).toList ++ [';'] := by
  have head : (front ++ back).toList.head? = some 'S' := by
    rw [String.toList_append, List.head?_append, start]
    rfl
  have whole : (front ++ back).toList.getLast? = some c := by
    rw [String.toList_append, List.getLast?_append, last]
    rfl
  have trimmed : Text.IsTrimmed (front ++ back) := by
    refine ⟨fun none_ => by simp [none_] at head, fun d first => ?_, fun d final => ?_⟩
    · obtain rfl : 'S' = d := Option.some.inj (head.symm.trans first)
      decide
    · obtain rfl : c = d := Option.some.inj (whole.symm.trans final)
      exact solid
  generalize front ++ back = sql at whole trimmed ⊢
  simp [normalizeStatement, Text.trim_trimmed trimmed, whole, open_]

theorem number_text_last (n : Nat) :
    ∃ d, (Decimal.numberText n).toList.getLast? = some d ∧ d.isDigit = true := by
  have text : (Decimal.numberText n).toList = Decimal.digitText n := String.toList_ofList
  rw [text]
  cases last : (Decimal.digitText n).getLast? with
  | none => exact absurd (List.getLast?_eq_none_iff.mp last) (Decimal.digit_text_some n)
  | some d => exact ⟨d, rfl, Decimal.digit_text_digits n d (List.mem_of_mem_getLast? last)⟩

theorem semicolon_cut : untilSemicolon 0 (pieces [';']) = [] := by
  decide +kernel

section Selections

variable {source : EventSource} (plain : source.Plain) {dataset : String}
  (datasetPlain : IsPlain dataset) {criteria : Criteria}
  (named : ∀ c ∈ criteria.leaves, c.Named IsPlain) (dialect : Dialect) (limit : Nat)

include plain datasetPlain named

/-- All three selections are taken apart into the dataset and the same condition. -/
theorem selections_recovered {tokens : List Token}
    (cut : CutInto (criteria.whereClause source dataset) tokens)
    (read : List Token → Expr × List Token)
    (reads : ∀ tail, IsTail tail → readExpr (tokens ++ tail) = some (read tail)) :
    Recovered.ofStatement (criteria.statement source dataset) =
        Recovered.ofCondition (some dataset) (read []).1 (read []).2 ∧
      Recovered.ofStatement (criteria.count source dialect dataset) =
        Recovered.ofCondition (some dataset) (read []).1 (read []).2 ∧
      Recovered.ofStatement (criteria.preview source dialect dataset limit) =
        Recovered.ofCondition (some dataset) (read (limitTokens limit)).1
          (read (limitTokens limit)).2 := by
  obtain ⟨ks, height, writes, nested, _⟩ := where_clause_writes plain datasetPlain named
  rw [← cut.kinds_eq writes] at nested
  have quoted := quote_name_writes dialect datasetPlain
  obtain ⟨c, last, ends⟩ := where_clause_ends source dataset criteria
  have alone : readExpr (tokens ++ untilSemicolon 0 (pieces [';'])) =
      some ((read []).1, (read []).2) := by
    rw [semicolon_cut]
    exact reads [] (.inl rfl)
  refine ⟨?_, ?_, ?_⟩
  · refine recovered_selection (selects_rows (writes_name datasetPlain)) cut nested
      (separated_head rfl []) ?_ alone
    rw [statement_normalized, statement_text]
    simp
  · refine recovered_selection (selects_count quoted) cut nested (separated_head rfl []) ?_ alone
    refine selection_normalized (by simp) last ?_ ?_
    · rcases ends with rfl | rfl <;> decide
    · rcases ends with rfl | rfl <;> decide
  · obtain ⟨d, last, digit⟩ := number_text_last limit
    have word := digit_is_word digit
    have separated : Separated (" " ++ limitText limit ++ ";").toList := by
      simp [Separated, isSeparator]
    have text := @selection_normalized ("SELECT * FROM " ++ dialect.quoteName dataset ++ " WHERE " ++
      criteria.whereClause source dataset ++ " LIMIT ") _ (by simp) _ last (word_not_blank word)
      fun same => word_no_mark word (by rw [same]; decide)
    have limited : readExpr (tokens ++
        untilSemicolon 0 (pieces (" " ++ limitText limit ++ ";").toList)) =
          some ((read (limitTokens limit)).1, (read (limitTokens limit)).2) := by
      rw [limit_cut]
      exact reads _ (.inr ⟨limit, rfl⟩)
    refine recovered_selection (selects_rows quoted) cut nested separated ?_ limited
    exact text.trans (by simp [limitText])

omit plain datasetPlain named in
theorem limit_surplus (dataset : Option String) (expr : Expr) (limit : Nat) :
    Recovered.ofCondition dataset expr (limitTokens limit) =
      { Recovered.ofCondition dataset expr [] with
        dropped := ⟨limitText limit, .trailingInput⟩ ::
          (Recovered.ofCondition dataset expr []).dropped } := by
  have surplus : (accept (.mark .semicolon) (limitTokens limit)).2 = limitTokens limit := by
    simp [accept, expect, limitTokens]
  have some_ : (limitTokens limit).isEmpty = false := rfl
  have nothing : (accept (.mark .semicolon) []).2 = [] := rfl
  simp [Recovered.ofCondition, surplus, some_, nothing, source_limit]

/-- Where the condition is read to its end, the limit is all that a preview adds. -/
theorem recovered_goes_on {tokens : List Token}
    (cut : CutInto (criteria.whereClause source dataset) tokens) {expr : Expr}
    (reads : ∀ tail, IsTail tail → readExpr (tokens ++ tail) = some (expr, tail)) :
    let whole := Recovered.ofStatement (criteria.statement source dataset)
    Recovered.ofStatement (criteria.count source dialect dataset) = whole ∧
      Recovered.ofStatement (criteria.preview source dialect dataset limit) =
        { whole with dropped := ⟨limitText limit, .trailingInput⟩ :: whole.dropped } := by
  obtain ⟨rows, counts, limited⟩ := selections_recovered plain datasetPlain named dialect limit cut
    (fun tail => (expr, tail)) reads
  intro whole
  refine ⟨counts.trans rows.symm, ?_⟩
  rw [limited, limit_surplus]
  simp only [whole, rows]

/-- Where it ends with a clause that stops at an exponent, the limit is taken for a part of it. -/
theorem recovered_stops {tokens : List Token}
    (cut : CutInto (criteria.whereClause source dataset) tokens) {items : List Expr} {text : String}
    (reads : ∀ tail, IsTail tail → readExpr (tokens ++ tail) =
      some (foldItems criteria.combinator.fold
        (items ++ [.predicate (.unparsed (text ++ String.ofList (characters tail)))]), [])) :
    let whole := Recovered.ofStatement (criteria.statement source dataset)
    Recovered.ofStatement (criteria.count source dialect dataset) = whole ∧
      ∃ dropped, whole.dropped = dropped ++ [⟨text, .unparseable⟩] ∧
        Recovered.ofStatement (criteria.preview source dialect dataset limit) =
          { whole with dropped := dropped ++ [⟨text ++ " " ++ limitText limit, .unparseable⟩] } := by
  obtain ⟨rows, counts, limited⟩ := selections_recovered plain datasetPlain named dialect limit cut
    (fun tail => (foldItems criteria.combinator.fold
      (items ++ [.predicate (.unparsed (text ++ String.ofList (characters tail)))]), [])) reads
  obtain ⟨back, lastId, dropped, found⟩ := recover_last criteria.combinator items
  have comes (text : String) : Recovered.ofCondition (some dataset)
      (foldItems criteria.combinator.fold (items ++ [.predicate (.unparsed text)])) [] =
        ⟨back, some dataset, dropped ++ [⟨text, .unparseable⟩]⟩ := by
    simp only [Recovered.ofCondition, found]
    rfl
  have nothing : String.ofList (characters []) = "" := rfl
  simp only [comes, nothing, String.append_empty, characters_limit, ← String.append_assoc]
    at rows counts limited
  intro whole
  refine ⟨counts.trans rows.symm, dropped, ?_, ?_⟩
  · simp only [whole, rows]
  · rw [limited]
    simp only [whole, rows]

end Selections

/-- The count of a segment is read back as its statement is: with the same tree, ids, dataset and
report. So is a preview, with its limit as a surplus in front of the report; only where the last
clause stops at an exponent, that clause is reported with the limit behind it instead. -/
theorem selections_alike {source : EventSource} (plain : source.Plain) {dataset : String}
    (datasetPlain : IsPlain dataset) {criteria : Criteria}
    (named : ∀ c ∈ criteria.leaves, c.Named IsPlain) (dialect : Dialect) (limit : Nat) :
    let whole := Recovered.ofStatement (criteria.statement source dataset)
    let preview := Recovered.ofStatement (criteria.preview source dialect dataset limit)
    Recovered.ofStatement (criteria.count source dialect dataset) = whole ∧
      (¬ criteria.StopsAtExponent source dataset →
        preview = { whole with
          dropped := ⟨limitText limit, .trailingInput⟩ :: whole.dropped }) ∧
      ∀ last ∈ (criteria.shown source dataset).getLast?, last.StopsAtExponent →
        ∃ dropped,
          whole.dropped = dropped ++ [⟨"(" ++ last.clause source dataset ++ ")", .unparseable⟩] ∧
          preview = { whole with
            dropped := dropped ++ [⟨"(" ++ last.clause source dataset ++ ")" ++ " " ++
              limitText limit, .unparseable⟩] } := by
  intro whole preview
  by_cases none_ : criteria.shown source dataset = []
  · -- Without clauses, the condition holds for every row.
    have cut : CutInto (criteria.whereClause source dataset) matchAllTokens := by
      rw [where_clause_empty none_]
      exact match_all_cut
    obtain ⟨counts, limited⟩ := recovered_goes_on plain datasetPlain named dialect limit cut
      fun _ limits => match_all_reads limits
    exact ⟨counts, fun _ => limited, by simp [none_]⟩
  · obtain ⟨front, last, shape⟩ :=
      (List.eq_nil_or_concat' (criteria.shown source dataset)).resolve_left none_
    have cut := shown_cut plain datasetPlain named none_
    by_cases stops : last.StopsAtExponent
    · obtain ⟨items, reads⟩ := last_stops plain datasetPlain named shape stops
      obtain ⟨counts, limited⟩ := recovered_stops plain datasetPlain named dialect limit cut reads
      refine ⟨counts, fun goesOn => absurd ((stops_iff shape).mpr stops) goesOn, ?_⟩
      intro last' found _
      obtain rfl : last = last' := by simpa [shape] using found
      exact limited
    · obtain ⟨expr, reads⟩ := last_goes_on plain datasetPlain named shape stops
      obtain ⟨counts, limited⟩ := recovered_goes_on plain datasetPlain named dialect limit cut reads
      refine ⟨counts, fun _ => limited, ?_⟩
      intro last' found stops'
      obtain rfl : last = last' := by simpa [shape] using found
      exact absurd stops' stops

def exponentFilter : Condition :=
  .filter ⟨1, "a", .equals, .number (.float 0x4341c37937e08000), none⟩

/-- It does not stop a clause in front of another. -/
theorem selections_alike_exponent :
    let within : Criteria :=
      { conditions := [exponentFilter, .filter ⟨2, "vip", .equals, .bool true, none⟩] }
    let last : Criteria := { conditions := [exponentFilter] }
    Recovered.ofStatement (within.preview {} .mysql "t" 20) =
        { Recovered.ofStatement (within.statement {} "t") with
          dropped := ⟨limitText 20, .trailingInput⟩ ::
            (Recovered.ofStatement (within.statement {} "t")).dropped } ∧
      Recovered.ofStatement (last.count {} .postgres "t") =
        Recovered.ofStatement (last.statement {} "t") ∧
      ∃ dropped, Recovered.ofStatement (last.preview {} .postgres "t" 100) =
        { Recovered.ofStatement (last.statement {} "t") with
          dropped := dropped ++ [⟨"(t.a = 1e+16) LIMIT 100", .unparseable⟩] } := by
  intro within last
  have plain : EventSource.Plain {} := ⟨by decide, by decide⟩
  have goesOn := @selections_alike {} plain "t" (by decide) within (by decide +kernel) .mysql 20
  have stops := @selections_alike {} plain "t" (by decide) last (by decide +kernel) .postgres 100
  have filled : isBlankText (Member.clause {} "t" (.condition exponentFilter)) = false := by
    decide +kernel
  have shown : last.shown {} "t" = [.condition exponentFilter] := by
    simp [last, Criteria.shown, Criteria.parts, Member.shown, filled]
  obtain ⟨dropped, _, preview⟩ := stops.2.2 (.condition exponentFilter) (by simp [shown])
    (by decide +kernel)
  have text : "(" ++ Member.clause {} "t" (.condition exponentFilter) ++ ")" ++ " " ++
      limitText 100 = "(t.a = 1e+16) LIMIT 100" := by decide +kernel
  exact ⟨goesOn.2.1 (by decide +kernel), stops.1, dropped, text ▸ preview⟩

/-- The limit is no surplus behind a clause that stops at an exponent. -/
theorem limit_behind_exponent :
    let criteria : Criteria := { conditions := [exponentFilter] }
    let whole := Recovered.ofStatement (criteria.statement {} "t")
    let preview := Recovered.ofStatement (criteria.preview {} .postgres "t" 100)
    EventSource.Plain {} ∧ IsPlain "t" ∧ (∀ c ∈ criteria.leaves, c.Named IsPlain) ∧
      criteria.preview {} .postgres "t" 100 =
        "SELECT * FROM \"t\" WHERE (t.a = 1e+16) LIMIT 100" ∧
      whole.dropped = [⟨"(t.a = 1e+16)", .unparseable⟩] ∧
      preview.dropped = [⟨"(t.a = 1e+16) LIMIT 100", .unparseable⟩] ∧
      preview.dropped ≠ ⟨limitText 100, .trailingInput⟩ :: whole.dropped := by
  dsimp only
  have refused : (Recovered.ofStatement (Criteria.statement {} "t"
      { conditions := [exponentFilter] })).dropped = [⟨"(t.a = 1e+16)", .unparseable⟩] := by
    rw [Recovered.ofStatement, tokenize_normalized]
    decide +kernel
  have taken : (Recovered.ofStatement (Criteria.preview {} .postgres "t" 100
      { conditions := [exponentFilter] })).dropped =
        [⟨"(t.a = 1e+16) LIMIT 100", .unparseable⟩] := by
    rw [Recovered.ofStatement, tokenize_normalized]
    decide +kernel
  refine ⟨⟨by decide, by decide⟩, by decide, by decide +kernel, by decide +kernel, refused, taken, ?_⟩
  intro same
  have lengths := congrArg List.length same
  simp [refused, taken] at lengths

end Cohort
