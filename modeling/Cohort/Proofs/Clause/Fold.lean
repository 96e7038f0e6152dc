import Cohort.Clause.Fold
import Cohort.Proofs.Sql.Levels
import Cohort.Proofs.Sql.Predicates
import Cohort.Proofs.Sql.Reading
import Cohort.Proofs.Sql.Writing

/-!
What clauses denote. A clause denotes an expression if it is written as tokens that are read as that
expression, with as many levels of nesting as the parentheses of the tokens have. A fold of clauses
denotes the fold of what the clauses denote, each in parentheses of its own.

Of clauses that are not read back as a whole, less is known: `DenotesAs limit text post` says that
the text is read as something that meets `post`, and nests at most `limit` levels.
-/

namespace Cohort

open Sql
open Text (isBlank isBlankText)

def Combinator.fold : Combinator → List Expr → Expr
  | .and => .and
  | .or => .or

def foldExprs (combinator : Combinator) (clauses : List (Option Expr)) : Option Expr :=
  if clauses.reduceOption.isEmpty then none
  else some (foldItems combinator.fold (clauses.reduceOption.map .grouped))

/-- The text is written as tokens that are read as the expression. -/
def Denotes (text : String) (expr : Expr) : Prop :=
  expr.IsParsed ∧ ∃ ks, Writes text ks ∧ Nested expr.levels ks ∧ ks ≠ [] ∧
    ∀ room, expr.levels ≤ room →
      Reads (always (readDisjunction (readCondition room))) ks expr endsDisjunction

/-- The text denotes the expression also where `AND` or `OR` follow. -/
def DenotesCondition (text : String) (expr : Expr) : Prop :=
  expr.IsParsed ∧ ∃ ks, Writes text ks ∧ Nested expr.levels ks ∧ ks ≠ [] ∧
    ∀ room, expr.levels ≤ room → Reads (readCondition room) ks expr endsFragment

theorem DenotesCondition.denotes {text : String} {expr : Expr}
    (condition : DenotesCondition text expr) : Denotes text expr := by
  obtain ⟨parsed, ks, writes, nested, some_, reads⟩ := condition
  exact ⟨parsed, ks, writes, nested, some_, fun room enough =>
    reads_single_disjunction (reads_single_conjunction (reads room enough))⟩

/-- The clause is empty if it stands for nothing, or else denotes what it stands for. -/
def Mirrors (text : String) : Option Expr → Prop
  | none => text = ""
  | some expr => Denotes text expr

theorem blank_kinds {cs : List Char} (blank : ∀ c ∈ cs, isBlank c = true) : kinds cs = [] := by
  induction cs with
  | nil => rfl
  | cons c cs ih =>
      rw [kinds_blank (blank c List.mem_cons_self)]
      exact ih fun d member => blank d (List.mem_cons_of_mem c member)

theorem written_not_blank {text : String} {ks : List TokenKind} (writes : Writes text ks)
    (some_ : ks ≠ []) : isBlankText text = false := by
  by_contra blank
  have all : ∀ c ∈ text.toList, isBlank c = true := by simpa [isBlankText] using blank
  have none_ := writes.kinds_eq
  rw [kinds_of_tokenize, blank_kinds all] at none_
  exact some_ none_.symm

theorem Denotes.not_blank {text : String} {expr : Expr} (denotes : Denotes text expr) :
    isBlankText text = false := by
  obtain ⟨_, ks, writes, _, some_, _⟩ := denotes
  exact written_not_blank writes some_

theorem kept_denote {texts : List String} {exprs : List (Option Expr)}
    (each : List.Forall₂ Mirrors texts exprs) :
    List.Forall₂ Denotes (texts.filter fun text => !isBlankText text) exprs.reduceOption := by
  induction each with
  | nil => exact .nil
  | @cons text expr texts exprs first _ ih =>
      cases expr with
      | none =>
          have empty : text = "" := first
          subst empty
          simpa [isBlankText] using ih
      | some expr =>
          have denotes : Denotes text expr := first
          rw [List.filter_cons_of_pos (by simp [denotes.not_blank]), List.reduceOption_cons_of_some]
          exact .cons denotes ih

theorem writes_around {text : String} {ks : List TokenKind} (writes : Writes text ks) :
    Writes ("(" ++ text ++ ")") (.mark .lparen :: (ks ++ [.mark .rparen])) := by
  have opening : Closed "(" [.mark .lparen] := closed_text (by decide) rfl
  have closing : Closed ")" [.mark .rparen] := closed_text (by decide) rfl
  have written := (opening.then writes).append closing.writes (opens_text (by decide)).separates
  simpa using written

theorem around_denotes {text : String} {expr : Expr} (denotes : Denotes text expr) :
    DenotesCondition ("(" ++ text ++ ")") (.grouped expr) := by
  obtain ⟨parsed, ks, writes, nested, _, reads⟩ := denotes
  have around : Nested (Expr.grouped expr).levels (.mark .lparen :: (ks ++ [.mark .rparen])) :=
    nested_around nested
  refine ⟨parsed, _, writes_around writes, around, by simp, fun room enough => ?_⟩
  simp only [Expr.levels] at enough
  obtain ⟨room, rfl⟩ : ∃ less, room = less + 1 := ⟨room - 1, by omega⟩
  exact (reads_condition_grouped (reads room (by omega))).weaken fun _ _ => rfl

def Combinator.word : Combinator → Keyword
  | .and => .AND
  | .or => .OR

theorem closed_combinator (combinator : Combinator) :
    Closed (" " ++ combinator.keyword ++ " ") [.keyword combinator.word] ∧
      Opens (" " ++ combinator.keyword ++ " ") := by
  cases combinator
  · exact ⟨closed_text (by decide) rfl, opens_text (by decide)⟩
  · exact ⟨closed_text (by decide) rfl, opens_text (by decide)⟩

theorem separated_filled {separator : TokenKind} {parts : List (List TokenKind)} (some_ : parts ≠ [])
    (each : ∀ ks ∈ parts, ks ≠ []) : separated separator parts ≠ [] := by
  match parts, some_ with
  | [ks], _ => exact each ks List.mem_cons_self
  | ks :: next :: rest, _ => simp [separated]

theorem parts_written {α : Type} (combinator : Combinator) {known : List TokenKind → α → Prop}
    {texts : List String} {values : List α}
    (each : List.Forall₂ (fun text value => ∃ ks, Writes text ks ∧ ks ≠ [] ∧ known ks value)
      texts values) (some_ : texts ≠ []) :
    ∃ parts,
      Writes ((" " ++ combinator.keyword ++ " ").intercalate texts)
        (separated (.keyword combinator.word) parts) ∧
      parts ≠ [] ∧ separated (.keyword combinator.word) parts ≠ [] ∧
      List.Forall₂ known parts values := by
  have found : ∃ parts, List.Forall₂ Writes texts parts ∧ (∀ ks ∈ parts, ks ≠ []) ∧
      List.Forall₂ known parts values := by
    clear some_
    induction each with
    | nil => exact ⟨[], .nil, by simp, .nil⟩
    | cons first _ ih =>
        obtain ⟨ks, writes, tokens, holds⟩ := first
        obtain ⟨parts, written, filled, all⟩ := ih
        exact ⟨ks :: parts, .cons writes written, List.forall_mem_cons.mpr ⟨tokens, filled⟩,
          .cons holds all⟩
  obtain ⟨parts, written, filled, all⟩ := found
  obtain ⟨closed, opens⟩ := closed_combinator combinator
  have more : parts ≠ [] := by
    rintro rfl
    cases written
    exact some_ rfl
  exact ⟨parts, writes_separated closed opens written, more, separated_filled more filled, all⟩

theorem nested_separated (word : Keyword) {parts : List (List TokenKind)} {exprs : List Expr}
    (each : List.Forall₂ (fun ks expr => Nested (Expr.levels expr) ks) parts exprs) :
    Nested (Expr.levelsOf exprs) (separated (.keyword word) parts) := by
  induction each with
  | nil => exact .nil
  | @cons ks expr parts exprs first others ih =>
      by_cases last : parts = []
      · subst last
        cases others
        simpa [Expr.levelsOf, separated] using first
      · rw [separated_cons _ _ last]
        exact first.append (.flat rfl ih)

/-- Enough levels for a fold are enough for its items. -/
theorem levels_enough {reads : Nat → List TokenKind → Expr → Prop} {parts : List (List TokenKind)}
    {exprs : List Expr} {room : Nat}
    (each : List.Forall₂ (fun ks expr => ∀ room, Expr.levels expr ≤ room → reads room ks expr)
      parts exprs) (enough : Expr.levelsOf exprs ≤ room) :
    List.Forall₂ (reads room) parts exprs := by
  induction each with
  | nil => exact .nil
  | cons first _ ih =>
      obtain ⟨here, behind⟩ := max_le_iff.mp enough
      exact .cons (first room here) (ih behind)

theorem Combinator.fold_parsed (combinator : Combinator) {exprs : List Expr}
    (parsed : ∀ expr ∈ exprs, expr.IsParsed) : (foldItems combinator.fold exprs).IsParsed := by
  cases combinator
  · exact Sql.fold_parsed rfl parsed
  · exact Sql.fold_parsed rfl parsed

theorem conditions_parsed {texts : List String} {exprs : List Expr}
    (each : List.Forall₂ DenotesCondition texts exprs) : ∀ expr ∈ exprs, expr.IsParsed := by
  induction each with
  | nil => simp
  | cons first _ ih =>
      intro expr member
      rcases List.mem_cons.mp member with rfl | member
      · exact first.1
      · exact ih expr member

theorem Combinator.fold_levels (combinator : Combinator) (exprs : List Expr) :
    (foldItems combinator.fold exprs).levels = Expr.levelsOf exprs := by
  cases combinator <;> exact Sql.fold_levels (fun _ => rfl) exprs

theorem conditions_denote (combinator : Combinator) {texts : List String} {exprs : List Expr}
    (each : List.Forall₂ DenotesCondition texts exprs) (some_ : texts ≠ []) :
    Denotes ((" " ++ combinator.keyword ++ " ").intercalate texts)
      (foldItems combinator.fold exprs) := by
  obtain ⟨parts, writes, more, tokens, all⟩ := parts_written combinator
    (each.imp fun _ _ whole => by
      obtain ⟨_, ks, writes, nested, tokens, reads⟩ := whole
      exact ⟨ks, writes, tokens, And.intro nested reads⟩) some_
  have nested := nested_separated combinator.word (all.imp fun _ _ known => known.1)
  rw [← combinator.fold_levels] at nested
  refine ⟨combinator.fold_parsed (conditions_parsed each), _, writes, nested, tokens,
    fun room enough => ?_⟩
  rw [combinator.fold_levels] at enough
  have reads := levels_enough (all.imp fun _ _ known => known.2) enough
  -- The reader always reads a disjunction of conjunctions; one of the two has a single part.
  cases combinator with
  | and => exact reads_single_disjunction (reads_conjunction more reads)
  | or =>
      exact reads_disjunction more (reads.imp fun _ _ whole => reads_single_conjunction whole)

theorem fold_mirrors (combinator : Combinator) {texts : List String} {exprs : List (Option Expr)}
    (each : List.Forall₂ Mirrors texts exprs) :
    Mirrors (foldClauses combinator texts) (foldExprs combinator exprs) := by
  have kept := kept_denote each
  simp only [foldClauses, foldExprs]
  generalize texts.filter (fun text => !isBlankText text) = texts at kept ⊢
  generalize exprs.reduceOption = exprs at kept ⊢
  by_cases none_ : exprs = []
  · subst none_
    cases kept
    rfl
  · have some_ : texts.map (fun text => "(" ++ text ++ ")") ≠ [] := by
      intro empty
      rw [List.map_eq_nil_iff] at empty
      subst empty
      cases kept
      exact none_ rfl
    simp only [List.isEmpty_iff, none_, ↓reduceIte]
    refine conditions_denote combinator ?_ some_
    rw [List.forall₂_map_left_iff, List.forall₂_map_right_iff]
    exact kept.imp fun _ _ denotes => around_denotes denotes

/-- Between fewer than two clauses there is no combinator. -/
theorem fold_few {texts : List String} (few : texts.length < 2) (first second : Combinator) :
    foldClauses first texts = foldClauses second texts := by
  match texts, few with
  | [], _ => rfl
  | [text], _ => by_cases blank : isBlankText text = true <;> simp [foldClauses, blank]

/-! ### Clauses of which less is known -/

def DenotesAs (limit : Nat) (text : String) (post : Expr → Prop) : Prop :=
  ∃ ks, Writes text ks ∧ NestedWithin limit ks ∧ ks ≠ [] ∧
    ∀ room, limit ≤ room →
      ReadsAs (always (readDisjunction (readCondition room))) ks post endsDisjunction

def DenotesItem (limit : Nat) (text : String) (post : Expr → Prop) : Prop :=
  ∃ ks, Writes text ks ∧ NestedWithin limit ks ∧ ks ≠ [] ∧
    ∀ room, limit ≤ room →
      ReadsAs (always (recovering (readCondition (room + 1))))
        (.mark .lparen :: (ks ++ [.mark .rparen])) post endsFragment

theorem DenotesItem.weaken {limit : Nat} {text : String} {post post' : Expr → Prop}
    (item : DenotesItem limit text post) (less : ∀ expr, post expr → post' expr) :
    DenotesItem limit text post' := by
  obtain ⟨ks, writes, nested, some_, reads⟩ := item
  exact ⟨ks, writes, nested, some_, fun room enough => (reads room enough).weaken less⟩

theorem DenotesItem.not_blank {limit : Nat} {text : String} {post : Expr → Prop}
    (item : DenotesItem limit text post) : isBlankText text = false := by
  obtain ⟨ks, writes, _, some_, _⟩ := item
  exact written_not_blank writes some_

theorem Denotes.as {limit : Nat} {text : String} {expr : Expr} (denotes : Denotes text expr)
    (low : expr.levels ≤ limit) : DenotesAs limit text (· = expr) := by
  obtain ⟨_, ks, writes, nested, some_, reads⟩ := denotes
  exact ⟨ks, writes, nested.within low, some_, fun room enough => (reads room (by omega)).as⟩

/-- What is read as a whole is an item in parentheses. -/
theorem DenotesAs.item {limit : Nat} {text : String} {post : Expr → Prop}
    (denotes : DenotesAs limit text post) :
    DenotesItem limit text fun expr => ∃ inner, post inner ∧ expr = .grouped inner := by
  obtain ⟨ks, writes, nested, some_, reads⟩ := denotes
  refine ⟨ks, writes, nested, some_, fun room enough => ?_⟩
  exact (recovering_as (condition_grouped_as (reads room enough) rfl)).before fun _ _ => rfl

theorem within_separated {limit : Nat} {word : Keyword} {parts : List (List TokenKind)}
    (each : ∀ ks ∈ parts, NestedWithin limit ks) :
    NestedWithin limit (separated (.keyword word) parts) := by
  induction parts with
  | nil => exact Nested.nil.within (Nat.zero_le limit)
  | cons ks parts ih =>
      have others := ih fun other member => each other (List.mem_cons_of_mem ks member)
      by_cases last : parts = []
      · simpa [last, separated] using each ks List.mem_cons_self
      · rw [separated_cons _ _ last]
        exact (each ks List.mem_cons_self).append (.flat rfl others)

theorem items_denote (combinator : Combinator) {limit : Nat} {texts : List String}
    {posts : List (Expr → Prop)} (each : List.Forall₂ (DenotesItem limit) texts posts)
    (some_ : texts ≠ []) :
    DenotesAs (limit + 1)
      ((" " ++ combinator.keyword ++ " ").intercalate (texts.map fun text => "(" ++ text ++ ")"))
      (IsFold combinator.fold posts) := by
  -- What is known of a part does not say which room it is read in: one lemma serves all rooms.
  let known (ks : List TokenKind) (post : Expr → Prop) : Prop :=
    NestedWithin (limit + 1) ks ∧ ∀ room, limit + 1 ≤ room →
      ReadsAs (always (recovering (readCondition room))) ks post endsFragment
  have parts : List.Forall₂ (fun text post => ∃ ks, Writes text ks ∧ ks ≠ [] ∧ known ks post)
      (texts.map fun text => "(" ++ text ++ ")") posts := by
    rw [List.forall₂_map_left_iff]
    refine each.imp ?_
    rintro text post ⟨ks, writes, nested, _, reads⟩
    refine ⟨_, writes_around writes, by simp, nested.around, fun room enough => ?_⟩
    obtain ⟨room, rfl⟩ : ∃ less, room = less + 1 := ⟨room - 1, by omega⟩
    exact reads room (by omega)
  obtain ⟨parts, writes, more, tokens, all⟩ := parts_written combinator parts (by simpa using some_)
  have nested : ∀ ks ∈ parts, NestedWithin (limit + 1) ks :=
    ((List.forall₂_and_left _ _).mp all).1
  refine ⟨_, writes, within_separated nested, tokens, fun room enough => ?_⟩
  have reads := all.imp fun _ _ holds => holds.2 room enough
  cases combinator with
  | and => exact disjunction_single_as rfl (conjunction_as rfl more reads)
  | or =>
      exact disjunction_as rfl more (reads.imp fun _ _ whole => conjunction_single_as rfl whole)

end Cohort
