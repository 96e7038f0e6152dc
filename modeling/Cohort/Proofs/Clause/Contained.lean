import Cohort.Proofs.Clause.Neighbours
import Cohort.Proofs.Clause.Selection
import Cohort.Proofs.Condition

/-!
The clauses of trees with plain names. Whatever the values in it are, a clause closes what it opens
and ends outside of literals and comments. In parentheses of its own it is read to its end, and then
it does not matter what stands behind; only the clause of a filter that stops at an exponent is
refused there, and what stands behind is taken with it.
-/

namespace Cohort

open Sql
open Text (isBlankText)

def WritesNested (text : String) : Prop :=
  ∃ ks height, Writes text ks ∧ Nested height ks ∧ ks ≠ []

theorem DenotesItem.writes_nested {limit : Nat} {text : String} {post : Expr → Prop}
    (item : DenotesItem limit text post) : WritesNested text := by
  obtain ⟨ks, writes, ⟨height, _, nested⟩, some_, _⟩ := item
  exact ⟨ks, height, writes, nested, some_⟩

theorem Sql.Nested.balanced {height : Nat} {ks : List TokenKind} (nested : Nested height ks) :
    Balanced ks := by
  induction nested with
  | nil => rfl
  | @flat height kind rest plain _ ih =>
      have inert : isInert kind = true := by
        fun_cases isInert kind <;> simp_all [isFlat]
      exact (balanced_single inert).append ih
  | paren _ _ within behind => simpa using within.around.append behind

theorem WritesNested.contained {text : String} (written : WritesNested text) :
    SelfContained text := by
  obtain ⟨ks, height, writes, nested, _⟩ := written
  obtain ⟨terminated, outside⟩ := writes.ends
  exact ⟨writes.kinds_eq.symm ▸ nested.balanced, terminated, outside⟩

theorem nested_parts (word : Keyword) {parts : List (List TokenKind)}
    (each : ∀ ks ∈ parts, ∃ height, Nested height ks) :
    ∃ height, Nested height (separated (.keyword word) parts) := by
  induction parts with
  | nil => exact ⟨0, .nil⟩
  | cons ks parts ih =>
      obtain ⟨height, nested⟩ := each ks List.mem_cons_self
      obtain ⟨height', others⟩ := ih fun other member => each other (List.mem_cons_of_mem ks member)
      by_cases last : parts = []
      · exact ⟨height, by simpa [last, separated] using nested⟩
      · rw [separated_cons _ _ last]
        exact ⟨_, nested.append (.flat rfl others)⟩

theorem fold_writes_nested (combinator : Combinator) {clauses : List String}
    (each : ∀ clause ∈ clauses, WritesNested clause) (some_ : clauses ≠ []) :
    WritesNested ((" " ++ combinator.keyword ++ " ").intercalate
      (clauses.map fun clause => "(" ++ clause ++ ")")) := by
  let known (ks : List TokenKind) (_ : String) : Prop := (∃ height, Nested height ks) ∧ True
  have parts : List.Forall₂ (fun text value => ∃ ks, Writes text ks ∧ ks ≠ [] ∧ known ks value)
      (clauses.map fun clause => "(" ++ clause ++ ")") clauses := by
    rw [List.forall₂_map_left_iff, List.forall₂_same]
    intro clause member
    obtain ⟨ks, height, writes, nested, _⟩ := each clause member
    exact ⟨_, writes_around writes, by simp, ⟨height + 1, nested_around nested⟩, trivial⟩
  obtain ⟨parts, writes, _, filled, all⟩ := parts_written combinator parts (by simpa using some_)
  obtain ⟨height, nested⟩ := nested_parts combinator.word ((List.forall₂_and_left _ _).mp all).1
  exact ⟨_, height, writes, nested, filled⟩

/-- In parentheses, the clause is read to its end, whatever stands behind. -/
def ReadWhole (clause : String) : Prop :=
  ∃ expr, ∀ layout after,
    readCondition maxNesting (enclosed layout clause ++ after) = some (expr, after)

theorem kinds_enclosed {clause : String} {ks : List TokenKind} (writes : Writes clause ks)
    (layout : List Char) (after : List Token) :
    kindsOf (enclosed layout clause ++ after) =
      .mark .lparen :: (ks ++ [.mark .rparen]) ++ kindsOf after := by
  have inner := writes.kinds_eq
  rw [kinds_of_tokenize, ← kinds_of_pieces] at inner
  simpa [enclosed, kindsOf] using inner

theorem Refused.enclosed {clause : String} (refused : Refused clause) (layout : List Char)
    (after : List Token) : readCondition maxNesting (Cohort.enclosed layout clause ++ after) = none := by
  obtain ⟨ks, writes, _, _, refuses⟩ := refused
  exact refuses _ _ _ (kinds_enclosed writes layout after)

/-- The result does not depend on what stands around, so one reading of the clause is enough. -/
theorem read_whole_once {clause : String} (contained : SelfContained clause)
    (once : ∃ expr after rest,
      readCondition maxNesting (enclosed [] clause ++ after) = some (expr, rest)) :
    ReadWhole clause := by
  obtain ⟨expr, after, rest, read⟩ := once
  obtain ⟨result, found⟩ := @condition_enclosed (pieces clause.toList)
    ⟨.mark .lparen, [], ['('], 0⟩ ⟨.mark .rparen, remainder clause.toList, [')'], 0⟩ rfl rfl
    (balanced_pieces contained) maxNesting
  have same (layout : List Char) (after : List Token) :
      readCondition maxNesting (enclosed layout clause ++ after) =
        result.map fun expr => (expr, after) := by
    simpa [enclosed] using found layout after
  cases result with
  | none => simp [same] at read
  | some expr => exact ⟨expr, fun layout after => same layout after⟩

theorem DenotesAs.read_whole {limit : Nat} {clause : String} {post : Expr → Prop}
    (denotes : DenotesAs limit clause post) (low : limit < maxNesting) : ReadWhole clause := by
  refine read_whole_once denotes.item.writes_nested.contained ?_
  obtain ⟨ks, writes, _, _, reads⟩ := denotes
  have condition := condition_grouped_as (reads (maxNesting - 1) (by omega)) rfl
  obtain ⟨expr, rest, read, _⟩ := condition _ _ (kinds_enclosed writes [] []) fun _ _ => rfl
  exact ⟨expr, [], rest, read⟩

/-- However deep its clauses nest, a fold is read to its end: what is refused in it is passed over. -/
theorem fold_read_whole (combinator : Combinator) {clauses : List String}
    (each : ∀ clause ∈ clauses, WritesNested clause) (some_ : clauses ≠ []) :
    ReadWhole ((" " ++ combinator.keyword ++ " ").intercalate
      (clauses.map fun clause => "(" ++ clause ++ ")")) := by
  have contained := fun clause member => (each clause member).contained
  refine read_whole_once (fold_writes_nested combinator each some_).contained ?_
  obtain ⟨items, parts⟩ := clause_parts (maxNesting - 1) contained
  have text := pieces_chain combinator contained (.inl rfl) some_
  rw [List.nil_append] at text
  generalize (" " ++ combinator.keyword ++ " ").intercalate _ = fold at text ⊢
  let closing : Token := ⟨.mark .rparen, remainder fold.toList, [')'], 0⟩
  have inner := @chain_read combinator [] _ _ _ parts some_ [closing] fun token first => by
    obtain rfl : closing = token := Option.some.inj first
    rfl
  refine ⟨.grouped (foldItems combinator.fold items), [], [], ?_⟩
  rw [← text] at inner
  simp only [enclosed, List.append_nil]
  rw [show maxNesting = maxNesting - 1 + 1 from rfl, readCondition]
  simp [opensLevel, readLevel, inner, closing, expect]

section Trees

variable {source : EventSource} {table : String}

def Member.shown (source : EventSource) (table : String) (members : List Member) : List Member :=
  members.filter fun member => !isBlankText (member.clause source table)

theorem fold_shown (combinator : Combinator) (members : List Member) :
    foldClauses combinator (members.map (Member.clause source table)) =
      (" " ++ combinator.keyword ++ " ").intercalate
        (((Member.shown source table members).map (Member.clause source table)).map
          fun clause => "(" ++ clause ++ ")") := by
  rw [foldClauses, Member.shown, List.filter_map]
  rfl

theorem shown_each {good : String → Prop} {members : List Member}
    (each : ∀ member ∈ members, isBlankText (member.clause source table) = false →
      good (member.clause source table)) :
    ∀ clause ∈ (Member.shown source table members).map (Member.clause source table),
      good clause := by
  intro clause found
  obtain ⟨member, inside, rfl⟩ := List.mem_map.mp found
  obtain ⟨inside, filled⟩ := List.mem_filter.mp inside
  exact each member inside (by simpa using filled)

theorem fold_shown_some {combinator : Combinator} {members : List Member}
    (shown : isBlankText (foldClauses combinator (members.map (Member.clause source table))) =
      false) : (Member.shown source table members).map (Member.clause source table) ≠ [] := by
  intro none_
  rw [fold_shown, none_] at shown
  cases shown

theorem event_known {event : Event} (shown : isBlankText (event.clause source table) = false) :
    event.eventType ≠ .unknown := by
  intro unknown
  simp [Event.clause, unknown, isBlankText] at shown

/-- The member is a filter of which the clause stops at an exponent. -/
def Member.StopsAtExponent : Member → Prop
  | .condition (.filter f) => f.StopsAtExponent
  | _ => False

instance : DecidablePred Member.StopsAtExponent
  | .condition (.filter f) => inferInstanceAs (Decidable f.StopsAtExponent)
  | .condition (.event _) | .group _ => .isFalse id

variable (plain : source.Plain) (tablePlain : IsPlain table)

include plain tablePlain

/-- The clauses of members that are not left out close what they open. -/
theorem member_writes (member : Member) (named : ∀ c ∈ member.leaves, c.Named IsPlain)
    (shown : isBlankText (member.clause source table) = false) :
    WritesNested (member.clause source table) := by
  induction member using Member.induction with
  | condition c =>
      have named := named c List.mem_cons_self
      cases c with
      | filter f => exact (filter_item tablePlain named shown).writes_nested
      | event e =>
          obtain ⟨post, whole⟩ := event_whole plain tablePlain named (event_known shown)
          exact whole.item.writes_nested
  | group id combinator members ih =>
      rw [Member.clause, Group.clause, clauses_map] at shown ⊢
      have some_ := fold_shown_some shown
      rw [fold_shown]
      exact fold_writes_nested combinator (shown_each fun member inside => ih member inside
        fun c leaf => named c (Member.mem_leaves_of.mpr ⟨member, inside, leaf⟩)) some_

theorem member_reads {member : Member} (named : ∀ c ∈ member.leaves, c.Named IsPlain)
    (shown : isBlankText (member.clause source table) = false)
    (goesOn : ¬ member.StopsAtExponent) : ReadWhole (member.clause source table) := by
  cases member with
  | condition c =>
      have named := named c List.mem_cons_self
      cases c with
      | filter f =>
          obtain ⟨post, whole⟩ := filter_whole tablePlain named shown goesOn
          exact whole.read_whole (by decide)
      | event e =>
          obtain ⟨post, whole⟩ := event_whole plain tablePlain named (event_known shown)
          exact whole.read_whole (by decide)
  | group g =>
      obtain ⟨id, combinator, members⟩ := g
      rw [Member.clause, Group.clause, clauses_map] at shown ⊢
      have some_ := fold_shown_some shown
      rw [fold_shown]
      exact fold_read_whole combinator (shown_each fun member inside =>
        member_writes plain tablePlain member fun c leaf => named c
          (Member.mem_leaves_of.mpr ⟨member, inside, leaf⟩)) some_

omit plain in
theorem member_refused {member : Member} (named : ∀ c ∈ member.leaves, c.Named IsPlain)
    (stops : member.StopsAtExponent) : Refused (member.clause source table) := by
  cases member with
  | condition c =>
      cases c with
      | filter f => exact filter_refused tablePlain (named _ List.mem_cons_self) stops
      | event e => exact stops.elim
  | group g => exact stops.elim

end Trees

end Cohort
