import Cohort.Proofs.Clause.Fold
import Cohort.Proofs.Sql.Cutting
import Cohort.Proofs.Sql.Enclosure
import Cohort.Proofs.Sql.Views

/-!
Clauses beside one another in a fold. Whatever a clause is, as long as its parentheses are balanced
and it ends outside of literals and comments, it is read in a fold as it is read alone, in the
parentheses that the fold puts around it. So a clause that cannot be read does not affect the
others.
-/

namespace Cohort

open Sql
open Text (isBlankText)

/-- The parentheses of the clause are balanced, and the clause ends outside of any literal or
comment. -/
structure SelfContained (clause : String) : Prop where
  balanced : Balanced (kindsOf (tokenize clause))
  terminated : Terminated clause.toList
  outside : endsWithinComment clause.toList = false

def enclosed (layout : List Char) (clause : String) : List Token :=
  ⟨.mark .lparen, layout, ['('], 0⟩ ::
    (pieces clause.toList ++ [⟨.mark .rparen, remainder clause.toList, [')'], 0⟩])

def Combinator.token (combinator : Combinator) : Token :=
  ⟨.keyword combinator.word, [' '], combinator.keyword.toList, 0⟩

def chain (combinator : Combinator) : List Char → List String → List Token
  | _, [] => []
  | layout, [clause] => enclosed layout clause
  | layout, clause :: rest =>
      enclosed layout clause ++ combinator.token :: chain combinator [' '] rest

theorem chain_cons (combinator : Combinator) (layout : List Char) (clause : String)
    {rest : List String} (more : rest ≠ []) :
    chain combinator layout (clause :: rest) =
      enclosed layout clause ++ combinator.token :: chain combinator [' '] rest := by
  cases rest with
  | nil => exact absurd rfl more
  | cons => rfl

theorem pieces_enclosed {clause : String} (contained : SelfContained clause) {lead : List Char}
    (blank : lead = [] ∨ lead = [' ']) (after : List Char) :
    pieces (lead ++ '(' :: (clause.toList ++ ')' :: after)) =
      enclosed lead clause ++ pieces after := by
  have opening (rest : List Char) :
      pieces (lead ++ '(' :: rest) = ⟨.mark .lparen, lead, ['('], 0⟩ :: pieces rest := by
    have split : splitLayout false (lead ++ '(' :: rest) = (lead, '(' :: rest) := by
      rcases blank with rfl | rfl <;> rfl
    exact pieces_of_token split rfl
  have closing : pieces (')' :: after) = ⟨.mark .rparen, [], [')'], 0⟩ :: pieces after :=
    pieces_of_token rfl rfl
  have separated : Separated (')' :: after) := by simp [Separated, isSeparator]
  rw [opening, pieces_separated contained.terminated contained.outside separated, closing]
  simp [indent, enclosed]

theorem pieces_word (combinator : Combinator) {after : List Char} (separated : Separated after) :
    pieces (' ' :: (combinator.keyword.toList ++ after)) = combinator.token :: pieces after := by
  have word : pieces (' ' :: combinator.keyword.toList) = [combinator.token] ∧
      characters [combinator.token] = ' ' :: combinator.keyword.toList := by
    cases combinator <;> decide +kernel
  have terminated : ∀ token ∈ [combinator.token], token.isUnterminated = false := by
    cases combinator <;> decide
  exact pieces_behind word terminated separated

theorem pieces_chain_before (combinator : Combinator) {clauses : List String}
    (contained : ∀ clause ∈ clauses, SelfContained clause) {lead : List Char}
    (blank : lead = [] ∨ lead = [' ']) (some_ : clauses ≠ []) (after : List Char) :
    pieces (lead ++ (((" " ++ combinator.keyword ++ " ").intercalate
      (clauses.map fun clause => "(" ++ clause ++ ")")).toList ++ after)) =
        chain combinator lead clauses ++ pieces after := by
  induction clauses generalizing lead with
  | nil => exact absurd rfl some_
  | cons clause rest ih =>
      have here := contained clause List.mem_cons_self
      cases rest with
      | nil => simpa [chain, String.intercalate_singleton] using pieces_enclosed here blank after
      | cons next rest =>
          -- The blank behind the word is the layout in front of the next clause.
          have behind := ih (fun other found => contained other (List.mem_cons_of_mem _ found))
            (.inr rfl) (List.cons_ne_nil next rest)
          have others : (next :: rest).map (fun clause => "(" ++ clause ++ ")") ≠ [] := by simp
          rw [List.map_cons, String.intercalate_cons_of_ne_nil others]
          generalize ((next :: rest).map fun clause => "(" ++ clause ++ ")") = texts at behind
          have word := pieces_word combinator (@separated_head ' ' (by decide)
            (((" " ++ combinator.keyword ++ " ").intercalate texts).toList ++ after))
          have first := pieces_enclosed here blank (' ' :: (combinator.keyword.toList ++
            ' ' :: (((" " ++ combinator.keyword ++ " ").intercalate texts).toList ++ after)))
          rw [List.singleton_append] at behind
          rw [word, behind] at first
          simpa [chain] using first

theorem pieces_chain (combinator : Combinator) {clauses : List String}
    (contained : ∀ clause ∈ clauses, SelfContained clause) {lead : List Char}
    (blank : lead = [] ∨ lead = [' ']) (some_ : clauses ≠ []) :
    pieces (lead ++ ((" " ++ combinator.keyword ++ " ").intercalate
      (clauses.map fun clause => "(" ++ clause ++ ")")).toList) =
        chain combinator lead clauses := by
  have alone := pieces_chain_before combinator contained blank some_ []
  rwa [List.append_nil, show pieces [] = [] from rfl, List.append_nil] at alone

/-- The part reads a clause in parentheses as the item, whatever the combinator puts behind it. -/
def IsItem (combinator : Combinator) (part : List Token → Expr × List Token) (clause : String)
    (item : Expr) : Prop :=
  ∀ layout after, (∀ token ∈ after.head?, token.kind = .keyword combinator.word) →
    part (enclosed layout clause ++ after) = (item, after)

theorem chain_length (combinator : Combinator) (layout : List Char) (clauses : List String) :
    clauses.length ≤ (chain combinator layout clauses).length := by
  fun_induction chain combinator layout clauses with
  | case1 => exact le_rfl
  | case2 layout clause => simp [enclosed]
  | case3 layout clause rest _ ih =>
      simp only [List.length_cons, List.length_append]
      omega

theorem items_alone {separator : Keyword} {part : List Token → Expr × List Token}
    {tokens after : List Token} {item : Expr} (read : part tokens = (item, after))
    (ends : expect (.keyword separator) after = none) (bound : List Token) :
    readItems separator part bound tokens = ([item], after) := by
  cases bound <;> simp [readItems, read, ends]

/-- A chain is read in front of what does not go on with it; its last clause may be read on. -/
theorem items_chain {combinator : Combinator} {part : List Token → Expr × List Token}
    {clauses : List String} {items : List Expr}
    (each : List.Forall₂ (IsItem combinator part) clauses items) {clause : String} {item : Expr}
    {after rest : List Token}
    (last : ∀ layout, part (enclosed layout clause ++ after) = (item, rest))
    (ends : expect (.keyword combinator.word) rest = none) {bound : List Token}
    (enough : clauses.length ≤ bound.length) (layout : List Char) :
    readItems combinator.word part bound (chain combinator layout (clauses ++ [clause]) ++ after) =
      (items ++ [item], rest) := by
  induction each generalizing bound layout with
  | nil => exact items_alone (last layout) ends bound
  | @cons first item' clauses items here _ ih =>
      cases bound with
      | nil => cases enough
      | cons _ bound =>
          have behind := ih (Nat.le_of_succ_le_succ enough) [' ']
          rw [List.cons_append, chain_cons combinator layout first (by simp), List.append_assoc,
            readItems, here layout _ (by simp [Combinator.token])]
          simp [expect, Combinator.token, behind]

/-- What is read of a clause in parentheses in front of the end of a condition, with some levels
left. -/
def IsPart (room : Nat) (clause : String) (item : Expr) : Prop :=
  ∀ layout after, (∀ token ∈ after.head?, endsFragment token.kind = true) →
    recovering (readCondition room) (enclosed layout clause ++ after) = (item, after)

def IsReading (clause : String) (item : Expr) : Prop :=
  readExpr (tokenize ("(" ++ clause ++ ")")) = some (item, [])

theorem balanced_pieces {clause : String} (contained : SelfContained clause) :
    Balanced (kindsOf (pieces clause.toList)) := by
  rw [kinds_of_pieces, ← kinds_of_tokenize]
  exact contained.balanced

theorem clause_part (room : Nat) {clause : String} (contained : SelfContained clause) :
    ∃ item, IsPart room clause item := by
  obtain ⟨item, read⟩ := @recovering_enclosed (pieces clause.toList) ⟨.mark .lparen, [], ['('], 0⟩
    ⟨.mark .rparen, remainder clause.toList, [')'], 0⟩ rfl rfl (balanced_pieces contained) room
  refine ⟨item, fun layout after ends => ?_⟩
  simpa [enclosed] using read layout after ends

theorem clause_parts (room : Nat) {clauses : List String}
    (contained : ∀ clause ∈ clauses, SelfContained clause) :
    ∃ items, List.Forall₂ (IsPart room) clauses items := by
  induction clauses with
  | nil => exact ⟨[], .nil⟩
  | cons clause rest ih =>
      obtain ⟨item, part⟩ := clause_part room (contained clause List.mem_cons_self)
      obtain ⟨items, parts⟩ := ih fun other found => contained other (List.mem_cons_of_mem _ found)
      exact ⟨item :: items, .cons part parts⟩

section Parts

variable {room : Nat} {clause : String} {item : Expr}

theorem IsPart.conjunct (part : IsPart room clause item) :
    IsItem .and (recovering (readCondition room)) clause item :=
  fun layout after word => part layout after fun token first => by rw [word token first]; rfl

theorem IsPart.disjunct (part : IsPart room clause item) :
    IsItem .or (readConjunction (readCondition room)) clause item := by
  intro layout after word
  have read := part layout after fun token first => by rw [word token first]; rfl
  -- The clause is a conjunction of one item, since an `OR` or nothing stands behind it.
  have ends : expect (.keyword .AND) after = none := expect_other fun more => by
    cases after with
    | nil => cases more
    | cons token rest =>
        have same := word token rfl
        simp_all [kindsOf, Combinator.word]
  rw [readConjunction, items_alone read ends]
  rfl

/-- A chain of clauses is read as their fold. What its last clause leaves is left of the chain. -/
theorem fold_chain (combinator : Combinator) {clauses : List String} {items : List Expr}
    (parts : List.Forall₂ (IsPart room) clauses items) {after rest : List Token}
    (last : ∀ layout,
      recovering (readCondition room) (enclosed layout clause ++ after) = (item, rest))
    (noAnd : expect (.keyword .AND) rest = none) (noOr : expect (.keyword .OR) rest = none)
    (layout : List Char) :
    readDisjunction (readCondition room) (chain combinator layout (clauses ++ [clause]) ++ after) =
      (foldItems combinator.fold (items ++ [item]), rest) := by
  have enough : clauses.length ≤ (chain combinator layout (clauses ++ [clause]) ++ after).length := by
    have whole := chain_length combinator layout (clauses ++ [clause])
    rw [List.length_append] at whole ⊢
    omega
  cases combinator with
  | and =>
      have conjuncts := @items_chain .and _ _ _ (parts.imp fun _ _ part => part.conjunct) _ _ _ _
        last noAnd _ enough layout
      have whole : readConjunction (readCondition room)
          (chain .and layout (clauses ++ [clause]) ++ after) =
          (foldItems .and (items ++ [item]), rest) := by
        rw [readConjunction, show Keyword.AND = Combinator.and.word from rfl, conjuncts]
      rw [readDisjunction, items_alone whole noOr]
      rfl
  | or =>
      -- Each clause is a disjunct, though the reader looks for conjunctions first.
      have alone (layout : List Char) : readConjunction (readCondition room)
          (enclosed layout clause ++ after) = (item, rest) := by
        rw [readConjunction, items_alone (last layout) noAnd]
        rfl
      have disjuncts := @items_chain .or _ _ _ (parts.imp fun _ _ part => part.disjunct) _ _ _ _
        alone noOr _ enough layout
      rw [readDisjunction, show Keyword.OR = Combinator.or.word from rfl, disjuncts]
      rfl

end Parts

theorem forall₂_concat {α β : Type} {known : α → β → Prop} {front : List α} {last : α}
    {values : List β} (each : List.Forall₂ known (front ++ [last]) values) :
    ∃ front' last', values = front' ++ [last'] ∧ List.Forall₂ known front front' ∧
      known last last' := by
  induction front generalizing values with
  | nil =>
      cases each with
      | cons here others =>
          cases others
          exact ⟨[], _, rfl, .nil, here⟩
  | cons first front ih =>
      cases each with
      | cons here others =>
          obtain ⟨front', last', rfl, behind, known'⟩ := ih others
          exact ⟨_ :: front', last', rfl, .cons here behind, known'⟩

theorem reads_tokens {tokens : List Token} (some_ : tokens ≠ []) :
    readExpr tokens = some (readDisjunction (readCondition maxNesting) tokens) := by
  cases tokens with
  | nil => exact absurd rfl some_
  | cons token rest => rfl

theorem chain_some (combinator : Combinator) (layout : List Char) {clauses : List String}
    (some_ : clauses ≠ []) : chain combinator layout clauses ≠ [] := by
  intro none_
  have enough := chain_length combinator layout clauses
  rw [none_, List.length_nil, Nat.le_zero, List.length_eq_zero_iff] at enough
  exact some_ enough

/-- A chain of clauses is read as their fold in front of what ends a disjunction. -/
theorem chain_read (combinator : Combinator) (layout : List Char) {room : Nat}
    {clauses : List String} {items : List Expr}
    (parts : List.Forall₂ (IsPart room) clauses items) (some_ : clauses ≠ []) {after : List Token}
    (ends : ∀ token ∈ after.head?, endsDisjunction token.kind = true) :
    readDisjunction (readCondition room) (chain combinator layout clauses ++ after) =
      (foldItems combinator.fold items, after) := by
  obtain ⟨front, last, rfl⟩ := (List.eq_nil_or_concat' clauses).resolve_left some_
  obtain ⟨items, item, rfl, others, part⟩ := forall₂_concat parts
  have goesOn (word : Keyword) (other : endsDisjunction (.keyword word) = false) :
      expect (.keyword word) after = none := by
    cases after with
    | nil => rfl
    | cons token rest =>
        have stop := ends token rfl
        by_cases same : token.kind = .keyword word
        · rw [same, other] at stop
          cases stop
        · simp [expect, same]
  refine fold_chain combinator others (fun layout => part layout after fun token first => ?_)
    (goesOn .AND rfl) (goesOn .OR rfl) layout
  have stop := ends token first
  simp only [endsDisjunction, endsConjunction, Bool.and_eq_true] at stop
  exact stop.1.1

theorem reads_chain (combinator : Combinator) (layout : List Char) {clauses : List String}
    {items : List Expr} (parts : List.Forall₂ (IsPart maxNesting) clauses items)
    (some_ : clauses ≠ []) :
    readExpr (chain combinator layout clauses) = some (foldItems combinator.fold items, []) := by
  have whole := @chain_read combinator layout _ _ _ parts some_ [] (by simp)
  rw [List.append_nil] at whole
  rw [reads_tokens (chain_some combinator layout some_), whole]

def placeView : View where
  token := Token.unplaced
  text := id
  kind _ := rfl
  source tokens := by rw [sourceText, lexemes_unplaced]; rfl

theorem expr_of_pieces {text : String} {expr : Expr}
    (found : readExpr (pieces text.toList) = some (expr, [])) :
    readExpr (tokenize text) = some (expr, []) := by
  -- The pieces are the tokens without their places, which the reader does not look at.
  have same : readExpr (pieces text.toList) =
      placeView.seen (Expr.reword placeView.text) (readExpr (tokenize text)) :=
    @blind_expr placeView (tokenize text)
  rw [found] at same
  cases read : readExpr (tokenize text) with
  | none => simp [read] at same
  | some pair =>
      obtain ⟨expr', rest⟩ := pair
      rw [read, seen_some] at same
      obtain ⟨reworded, behind⟩ := Prod.mk.inj (Option.some.inj same)
      have nothing : rest = [] := List.map_eq_nil_iff.mp behind.symm
      rw [nothing, reworded, show placeView.text = id from rfl, expr_reword_id]

theorem IsPart.reading {clause : String} {item : Expr} (contained : SelfContained clause)
    (part : IsPart maxNesting clause item) : IsReading clause item := by
  refine expr_of_pieces ?_
  have alone := pieces_enclosed contained (.inl rfl) []
  have whole := reads_chain .and [] (.cons part .nil) (List.cons_ne_nil clause [])
  rw [show pieces [] = [] from rfl, List.append_nil] at alone
  have text : ("(" ++ clause ++ ")").toList = [] ++ '(' :: (clause.toList ++ [')']) := by simp
  rw [text, alone]
  exact whole

/-- Clauses in a fold are read apart from one another, each as it is read on its own. -/
theorem clauses_apart (combinator : Combinator) {clauses : List String}
    (contained : ∀ clause ∈ clauses, isBlankText clause = false → SelfContained clause)
    (several : 2 ≤ (clauses.filter fun clause => !isBlankText clause).length) :
    ∃ items,
      readExpr (tokenize (foldClauses combinator clauses)) = some (combinator.fold items, []) ∧
      List.Forall₂ IsReading (clauses.filter fun clause => !isBlankText clause) items := by
  have kept : ∀ clause ∈ clauses.filter (fun clause => !isBlankText clause),
      SelfContained clause := by
    intro clause found
    obtain ⟨member, shown⟩ := List.mem_filter.mp found
    exact contained clause member (by simpa using shown)
  rw [foldClauses]
  generalize (clauses.filter fun clause => !isBlankText clause) = clauses at several kept
  have some_ : clauses ≠ [] := by
    rintro rfl
    cases several
  obtain ⟨items, parts⟩ := clause_parts maxNesting kept
  have read := reads_chain combinator [] parts some_
  have length := parts.length_eq
  have fold : foldItems combinator.fold items = combinator.fold items := fold_several (by omega)
  refine ⟨items, expr_of_pieces ?_, ?_⟩
  · have text := pieces_chain combinator kept (.inl rfl) some_
    rw [List.nil_append] at text
    rw [text, read, fold]
  · exact ((List.forall₂_and_left _ _).mpr ⟨kept, parts⟩).imp fun _ _ known =>
      known.2.reading known.1

/-- Neither what cannot be read nor a comment that a line feed ends reaches into another clause. -/
theorem broken_clauses_apart :
    ∃ items,
      readExpr (tokenize (foldClauses .or
        ["age > ; 'it''s' ()", " ", "a = 1 -- )\n", "NOT IN (1 OR 2) AND"])) =
        some (.or items, []) ∧
      List.Forall₂ IsReading ["age > ; 'it''s' ()", "a = 1 -- )\n", "NOT IN (1 OR 2) AND"]
        items := by
  have contained : ∀ clause ∈ ["age > ; 'it''s' ()", " ", "a = 1 -- )\n", "NOT IN (1 OR 2) AND"],
      isBlankText clause = false → SelfContained clause := by
    intro clause member _
    have which : clause = "age > ; 'it''s' ()" ∨ clause = " " ∨ clause = "a = 1 -- )\n" ∨
        clause = "NOT IN (1 OR 2) AND" := by simpa using member
    rcases which with rfl | rfl | rfl | rfl
    all_goals
      exact ⟨by unfold Sql.Balanced; decide +kernel, by unfold Terminated; decide +kernel,
        by decide +kernel⟩
  exact clauses_apart .or contained (by decide +kernel)

end Cohort
