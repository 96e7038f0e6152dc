import Cohort.Proofs.Sql.Found
import Cohort.Proofs.Sql.Scanning

/-!
Which tokens readers take. Whatever the tokens are, what a reader takes off them closes every
parenthesis that it opens and none that was open before; only where the tokens end within an
unreadable fragment a parenthesis may stay open, and then nothing is left behind it.
-/

namespace Cohort.Sql

/-- How many parentheses are open behind tokens of these kinds, of `depth` that are open in front of
them; there is no number if more are closed than are open. -/
def levelAfter (depth : Nat) : List TokenKind → Option Nat
  | [] => some depth
  | .mark .lparen :: rest => levelAfter (depth + 1) rest
  | .mark .rparen :: rest =>
      match depth with
      | 0 => none
      | depth + 1 => levelAfter depth rest
  | _ :: rest => levelAfter depth rest

def Balanced (ks : List TokenKind) : Prop :=
  levelAfter 0 ks = some 0

def isInert : TokenKind → Bool
  | .mark .lparen | .mark .rparen => false
  | _ => true

theorem level_inert {kind : TokenKind} (inert : isInert kind = true) (depth : Nat)
    (rest : List TokenKind) : levelAfter depth (kind :: rest) = levelAfter depth rest := by
  cases kind with
  | mark sign => cases sign <;> simp_all [isInert, levelAfter]
  | _ => rfl

theorem inert_other {kind : TokenKind} (opening : kind ≠ .mark .lparen)
    (closing : kind ≠ .mark .rparen) : isInert kind = true := by
  cases kind with
  | mark sign => cases sign <;> simp_all [isInert]
  | _ => rfl

theorem level_append (depth : Nat) (front back : List TokenKind) :
    levelAfter depth (front ++ back) =
      (levelAfter depth front).bind fun depth => levelAfter depth back := by
  fun_induction levelAfter depth front with
  | case1 depth => rfl
  | case2 depth rest ih => rw [List.cons_append, levelAfter, ih]
  | case3 rest => rfl
  | case4 rest depth ih => rw [List.cons_append, levelAfter, ih]
  | case5 depth kind rest opening closing ih =>
      rw [List.cons_append, level_inert (inert_other opening closing), ih]

/-- More open parentheses in front stay open behind. -/
theorem level_more {depth after : Nat} {ks : List TokenKind}
    (level : levelAfter depth ks = some after) (more : Nat) :
    levelAfter (depth + more) ks = some (after + more) := by
  fun_induction levelAfter depth ks with
  | case1 depth => simpa [levelAfter] using level
  | case2 depth rest ih =>
      have shifted := ih level
      rw [Nat.add_right_comm] at shifted
      exact shifted
  | case3 rest => cases level
  | case4 rest depth ih =>
      rw [Nat.succ_add]
      exact ih level
  | case5 depth kind rest opening closing ih =>
      rw [level_inert (inert_other opening closing)]
      exact ih level

theorem Balanced.level {ks : List TokenKind} (balanced : Balanced ks) (depth : Nat) :
    levelAfter depth ks = some depth := by
  simpa using level_more balanced depth

theorem Balanced.append {front back : List TokenKind} (first : Balanced front)
    (second : Balanced back) : Balanced (front ++ back) := by
  rw [Balanced, level_append, first.level]
  exact second

theorem Balanced.around {ks : List TokenKind} (within : Balanced ks) :
    Balanced (.mark .lparen :: (ks ++ [.mark .rparen])) := by
  rw [Balanced, levelAfter, level_append, within.level]
  rfl

theorem balanced_single {kind : TokenKind} (inert : isInert kind = true) : Balanced [kind] := by
  rw [Balanced, level_inert inert]
  rfl

/-- The tokens that are left are the last ones, and those in front of them are balanced, if any are
left. -/
def Consumes (tokens rest : List Token) : Prop :=
  ∃ front, tokens = front ++ rest ∧ (rest = [] ∨ Balanced (kindsOf front))

def Takes {α : Type} (tokens : List Token) (result : Option (α × List Token)) : Prop :=
  ∀ value rest, result = some (value, rest) → Consumes tokens rest

variable {α : Type} {tokens middle rest : List Token}

theorem consumes_none (tokens : List Token) : Consumes tokens tokens :=
  ⟨[], rfl, .inr rfl⟩

theorem Consumes.trans (first : Consumes tokens middle) (second : Consumes middle rest) :
    Consumes tokens rest := by
  obtain ⟨front, rfl, ends⟩ := first
  obtain ⟨back, rfl, ends'⟩ := second
  refine ⟨front ++ back, by simp, ?_⟩
  rcases ends with empty | balanced
  · exact .inl (List.append_eq_nil_iff.mp empty).2
  · refine ends'.imp id fun balanced' => ?_
    rw [kindsOf, List.map_append]
    exact balanced.append balanced'

theorem Consumes.shorter (consumes : Consumes tokens rest) : rest.length ≤ tokens.length := by
  obtain ⟨front, rfl, _⟩ := consumes
  simp

theorem expect_shorter {kind : TokenKind} (found : expect kind tokens = some rest) :
    rest.length < tokens.length := by
  obtain ⟨token, rfl, _⟩ := expect_some found
  simp

theorem consumes_expect {kind : TokenKind} (inert : isInert kind = true)
    (found : expect kind tokens = some rest) : Consumes tokens rest := by
  obtain ⟨token, rfl, rfl⟩ := expect_some found
  exact ⟨[token], rfl, .inr (balanced_single inert)⟩

theorem consumes_accept {kind : TokenKind} {found : Bool} (inert : isInert kind = true)
    (accepted : accept kind tokens = (found, rest)) : Consumes tokens rest := by
  simp only [accept] at accepted
  split at accepted
  · next behind here =>
      cases accepted
      exact consumes_expect inert here
  · cases accepted
    exact consumes_none tokens

theorem consumes_around {inner after : List Token}
    (opening : expect (.mark .lparen) tokens = some inner) (within : Consumes inner rest)
    (closing : expect (.mark .rparen) rest = some after) : Consumes tokens after := by
  obtain ⟨left, rfl, first⟩ := expect_some opening
  obtain ⟨right, rfl, last⟩ := expect_some closing
  obtain ⟨front, rfl, ends⟩ := within
  refine ⟨left :: (front ++ [right]), by simp, .inr ?_⟩
  have balanced := (ends.resolve_left (List.cons_ne_nil _ _)).around
  simpa [kindsOf, first, last] using balanced

def Starts (tokens rest : List Token) : Prop :=
  ∃ kind behind, isInert kind = true ∧ expect kind tokens = some behind ∧ Consumes behind rest

theorem starts_token {kind : TokenKind} (inert : isInert kind = true)
    (found : expect kind tokens = some rest) : Starts tokens rest :=
  ⟨kind, rest, inert, found, consumes_none rest⟩

theorem Starts.then (starts : Starts tokens middle) (consumes : Consumes middle rest) :
    Starts tokens rest := by
  obtain ⟨kind, behind, inert, found, first⟩ := starts
  exact ⟨kind, behind, inert, found, first.trans consumes⟩

theorem Starts.consumes (starts : Starts tokens rest) : Consumes tokens rest := by
  obtain ⟨kind, behind, inert, found, consumes⟩ := starts
  exact (consumes_expect inert found).trans consumes

theorem Starts.shorter (starts : Starts tokens rest) : rest.length < tokens.length := by
  obtain ⟨kind, behind, inert, found, consumes⟩ := starts
  exact consumes.shorter.trans_lt (expect_shorter found)

theorem takes_always {read : List Token → α × List Token}
    (each : ∀ tokens, Consumes tokens (read tokens).2) (tokens : List Token) :
    Takes tokens (always read tokens) := by
  intro value rest found
  have consumes := each tokens
  rwa [Option.some.inj found] at consumes

theorem ReadsSeparated.consumes {separator : TokenKind} {item : Read α} {values : List α}
    (inert : isInert separator = true) (each : ∀ tokens, Takes tokens (item tokens))
    (read : ReadsSeparated separator item tokens values rest) : Consumes tokens rest := by
  induction read with
  | last here => exact each _ _ _ here
  | more here found next ih =>
      exact ((each _ _ _ here).trans (consumes_expect inert found)).trans ih

theorem ReadsOperands.consumes {operand : Read Operand} {values : List Operand}
    (each : ∀ tokens, Takes tokens (operand tokens))
    (read : ReadsOperands operand tokens values rest) : Consumes tokens rest := by
  cases read with
  | nothing => exact consumes_none tokens
  | listed read => exact read.consumes rfl each

theorem ReadsColumn.starts {column : Column} (read : ReadsColumn tokens column rest) :
    Starts tokens rest := by
  cases read with
  | plain named => exact starts_token rfl named
  | qualified qualifier point named =>
      exact ((starts_token rfl qualifier).then (consumes_expect rfl point)).then
        (consumes_expect rfl named)

theorem ReadsAmount.consumes {amount : String} (read : ReadsAmount tokens amount rest) :
    Consumes tokens rest := by
  cases read with
  | literal found => exact consumes_expect rfl found
  | number found => exact consumes_expect rfl found

theorem ReadsInterval.consumes {operand : Operand} (read : ReadsInterval tokens operand rest) :
    Consumes tokens rest := by
  cases read with
  | amount found => exact found.consumes
  | unit found named => exact found.consumes.trans (consumes_expect rfl named)

theorem ReadsTerm.starts {args : Read (List Operand)} {operand : Operand}
    (inner : ∀ tokens, Takes tokens (args tokens)) (read : ReadsTerm args tokens operand rest) :
    Starts tokens rest := by
  cases read with
  | call named opened filled closed =>
      exact (starts_token rfl named).then (consumes_around opened (inner _ _ _ filled) closed)
  | column read => exact read.starts
  | string found => exact starts_token rfl found
  | number found => exact starts_token rfl found
  | negative minus found => exact (starts_token rfl minus).then (consumes_expect rfl found)
  | null found => exact starts_token rfl found
  | star found => exact starts_token rfl found
  | interval keyword read => exact (starts_token rfl keyword).then read.consumes

theorem ReadsSum.starts {term : Read Operand} {operand : Operand}
    (each : ∀ tokens operand rest, term tokens = some (operand, rest) → Starts tokens rest)
    (read : ReadsSum term tokens operand rest) : Starts tokens rest := by
  induction read with
  | term found => exact each _ _ _ found
  | @sum left right sign middle behind rest before signed found ih =>
      have inert : isInert (.mark sign.mark) = true := by cases sign <;> rfl
      exact (ih.then (consumes_expect inert signed)).then (each _ _ _ found).consumes

theorem starts_operand {room : Nat} {operand : Operand}
    (found : readOperand room tokens = some (operand, rest)) : Starts tokens rest := by
  induction room generalizing tokens operand rest with
  | zero =>
      refine (operand_found found).starts fun _ _ _ found => ?_
      exact (term_found found).starts fun _ _ _ none_ => by cases none_
  | succ room ih =>
      refine (operand_found found).starts fun _ _ _ found => ?_
      exact (term_found found).starts fun _ _ _ filled =>
        (operands_found filled).consumes fun _ _ _ found => (ih found).consumes

theorem takes_operand (room : Nat) (tokens : List Token) :
    Takes tokens (readOperand room tokens) :=
  fun _ _ found => (starts_operand found).consumes

theorem ReadsRelation.consumes {operand : Read Operand} {target : Operand} {negated : Bool}
    {predicate : Predicate} (each : ∀ tokens, Takes tokens (operand tokens))
    (read : ReadsRelation operand target tokens negated predicate rest) : Consumes tokens rest := by
  cases read with
  | bare => exact consumes_none tokens
  | compare sign second => exact (consumes_expect rfl sign).trans (each _ _ _ second)
  | between keyword second and_ third =>
      have low := (consumes_expect rfl keyword).trans (each _ _ _ second)
      exact (low.trans (consumes_expect rfl and_)).trans (each _ _ _ third)
  | like keyword second => exact (consumes_expect rfl keyword).trans (each _ _ _ second)
  | oneOf keyword opened filled closed =>
      exact (consumes_expect rfl keyword).trans
        (consumes_around opened (filled.consumes each) closed)
  | isNull keyword not_ null =>
      exact ((consumes_expect rfl keyword).trans (consumes_accept rfl not_)).trans
        (consumes_expect rfl null)

theorem takes_predicate {operand : Read Operand} (each : ∀ tokens, Takes tokens (operand tokens))
    (tokens : List Token) : Takes tokens (readPredicate operand tokens) := by
  intro predicate rest found
  obtain ⟨first, not_, relation⟩ := predicate_found found
  exact ((each _ _ _ first).trans (consumes_accept rfl not_)).trans (relation.consumes each)

/-- A fragment ends in front of a token, or it takes the token and counts it if it is a parenthesis.
Nothing but the kind of the token matters. -/
theorem fragment_step (depth : Nat) (kind : TokenKind) :
    (depth = 0 ∧ ∀ token rest, token.kind = kind →
      splitFragment depth (token :: rest) = ([], token :: rest)) ∨
    ∃ after, (∀ ks, levelAfter depth (kind :: ks) = levelAfter after ks) ∧
      ∀ token rest, token.kind = kind → splitFragment depth (token :: rest) =
        (token :: (splitFragment after rest).1, (splitFragment after rest).2) := by
  by_cases opening : kind = .mark .lparen
  · subst opening
    exact .inr ⟨depth + 1, fun _ => rfl, fun token rest same => by simp [splitFragment, same]⟩
  by_cases closing : kind = .mark .rparen
  · subst closing
    cases depth with
    | zero =>
        exact .inl ⟨rfl, fun token rest same => by simp [splitFragment, endsFragment, same]⟩
    | succ depth =>
        exact .inr ⟨depth, fun _ => rfl, fun token rest same => by simp [splitFragment, same]⟩
  have inert := inert_other opening closing
  cases depth with
  | succ depth =>
      refine .inr ⟨depth + 1, level_inert inert _, fun token rest same => ?_⟩
      subst same
      simp only [splitFragment]
      split <;> simp_all
  | zero =>
      by_cases ends : endsFragment kind = true
      · refine .inl ⟨rfl, fun token rest same => ?_⟩
        subst same
        simp only [splitFragment]
        split <;> simp_all
      · refine .inr ⟨0, level_inert inert _, fun token rest same => ?_⟩
        subst same
        simp only [splitFragment]
        split <;> simp_all

/-- A fragment within `depth` open parentheses closes them, unless it ends with the tokens. -/
theorem fragment_level (depth : Nat) (tokens : List Token) :
    (splitFragment depth tokens).1 ++ (splitFragment depth tokens).2 = tokens ∧
      ((splitFragment depth tokens).2 = [] ∨
        levelAfter depth (kindsOf (splitFragment depth tokens).1) = some 0) := by
  induction tokens generalizing depth with
  | nil => exact ⟨rfl, .inl rfl⟩
  | cons token rest ih =>
      rcases fragment_step depth token.kind with ⟨rfl, ends⟩ | ⟨after, step, takes⟩
      · rw [ends token rest rfl]
        exact ⟨rfl, .inr rfl⟩
      · rw [takes token rest rfl]
        obtain ⟨whole, level⟩ := ih after
        exact ⟨by simpa using whole, level.imp id (step _).trans⟩

theorem consumes_fragment (tokens : List Token) :
    Consumes tokens (splitFragment 0 tokens).2 := by
  obtain ⟨whole, ends⟩ := fragment_level 0 tokens
  exact ⟨_, whole.symm, ends⟩

theorem consumes_recovering {condition : Read Expr}
    (each : ∀ tokens, Takes tokens (condition tokens)) (tokens : List Token) :
    Consumes tokens (recovering condition tokens).2 := by
  simp only [recovering]
  split
  · next result found => exact each tokens result.1 result.2 found
  · exact consumes_fragment tokens

theorem consumes_items {separator : Keyword} {item : List Token → Expr × List Token}
    (each : ∀ tokens, Consumes tokens (item tokens).2) (bound tokens : List Token) :
    Consumes tokens (readItems separator item bound tokens).2 :=
  (items_found separator item bound tokens).consumes rfl (takes_always each)

section Levels

variable {condition : Read Expr} (conditions : ∀ tokens, Takes tokens (condition tokens))

include conditions

theorem consumes_conjunction (tokens : List Token) :
    Consumes tokens (readConjunction condition tokens).2 :=
  consumes_items (consumes_recovering conditions) tokens tokens

theorem consumes_disjunction (tokens : List Token) :
    Consumes tokens (readDisjunction condition tokens).2 :=
  consumes_items (consumes_conjunction conditions) tokens tokens

end Levels

/-- A list of selected things ends in front of `FROM`, breaks off at a parenthesis that it does not
open, or goes on behind the token. -/
theorem selection_step (depth : Nat) (kind : TokenKind) :
    (depth = 0 ∧ ∀ token rest, token.kind = kind →
      skipSelection depth (token :: rest) = some (token :: rest)) ∨
    (depth = 0 ∧ kind = .mark .rparen ∧ ∀ token rest, token.kind = kind →
      skipSelection depth (token :: rest) = none) ∨
    ∃ after, (∀ ks, levelAfter depth (kind :: ks) = levelAfter after ks) ∧
      ∀ token rest, token.kind = kind →
        skipSelection depth (token :: rest) = skipSelection after rest := by
  by_cases opening : kind = .mark .lparen
  · subst opening
    exact .inr (.inr ⟨depth + 1, fun _ => rfl, fun token rest same => by
      simp [skipSelection, same]⟩)
  by_cases closing : kind = .mark .rparen
  · subst closing
    cases depth with
    | zero =>
        exact .inr (.inl ⟨rfl, rfl, fun token rest same => by simp [skipSelection, same]⟩)
    | succ depth =>
        exact .inr (.inr ⟨depth, fun _ => rfl, fun token rest same => by
          simp [skipSelection, same]⟩)
  have inert := inert_other opening closing
  by_cases ends : depth = 0 ∧ kind = .keyword .FROM
  · obtain ⟨rfl, rfl⟩ := ends
    exact .inl ⟨rfl, fun token rest same => by simp [skipSelection, same]⟩
  · refine .inr (.inr ⟨depth, level_inert inert _, fun token rest same => ?_⟩)
    subst same
    simp only [skipSelection]
    split <;> simp_all

/-- Up to the `FROM` behind a list, `depth` parentheses are closed. -/
theorem selection_level {depth : Nat}
    (found : skipSelection depth tokens = some rest) :
    ∃ front, tokens = front ++ rest ∧ levelAfter depth (kindsOf front) = some 0 := by
  induction tokens generalizing depth with
  | nil => cases found
  | cons token tokens ih =>
      rcases selection_step depth token.kind with
        ⟨rfl, ends⟩ | ⟨rfl, -, breaks⟩ | ⟨after, step, goesOn⟩
      · rw [ends token tokens rfl] at found
        exact ⟨[], Option.some.inj found, rfl⟩
      · rw [breaks token tokens rfl] at found
        cases found
      · rw [goesOn token tokens rfl] at found
        obtain ⟨front, rfl, level⟩ := ih found
        exact ⟨token :: front, rfl, (step _).trans level⟩

theorem consumes_selection (rest : List Token) (found : skipSelection 0 tokens = some rest) :
    Consumes tokens rest := by
  obtain ⟨front, same, level⟩ := selection_level found
  exact ⟨front, same, .inr level⟩

theorem ReadsJoinWords.starts (read : ReadsJoinWords tokens rest) : Starts tokens rest := by
  cases read with
  | plain join => exact starts_token rfl join
  | inner inner join => exact (starts_token rfl inner).then (consumes_expect rfl join)

theorem ReadsJoin.consumes {join : Join} (read : ReadsJoin tokens join rest) :
    Consumes tokens rest := by
  obtain ⟨source, on, first, equal, second⟩ := read
  have left := ((consumes_expect rfl source).trans (consumes_expect rfl on)).trans
    first.starts.consumes
  exact (left.trans (consumes_expect rfl equal)).trans second.starts.consumes

theorem ReadsJoins.consumes {joins : List Join} (read : ReadsJoins tokens joins rest) :
    Consumes tokens rest := by
  induction read with
  | nothing => exact consumes_none _
  | more words here next ih => exact (words.starts.consumes.trans here.consumes).trans ih

theorem ReadsOptional.consumes {keyword : Keyword} {part : Read α} {value : Option α}
    (each : ∀ tokens, Takes tokens (part tokens))
    (read : ReadsOptional keyword part tokens value rest) : Consumes tokens rest := by
  cases read with
  | absent => exact consumes_none tokens
  | present word read => exact (consumes_expect rfl word).trans (each _ _ _ read)

theorem takes_group_by (tokens : List Token) : Takes tokens (readGroupBy tokens) := by
  intro column rest found
  obtain ⟨behind, by_, read⟩ := Option.bind_eq_some_iff.mp found
  exact (consumes_expect rfl by_).trans (column_found read).starts.consumes

section Queries

variable {condition : Read Expr} {predicate : Read Predicate}
  (conditions : ∀ tokens, Takes tokens (condition tokens))
  (predicates : ∀ tokens, Takes tokens (predicate tokens))

include conditions predicates

theorem ReadsSubquery.consumes {query : Subquery}
    (read : ReadsSubquery condition predicate tokens query rest) : Consumes tokens rest := by
  obtain ⟨select, skipped, from_, source, joins, where_, group, count⟩ := read
  have filters := takes_always (consumes_disjunction conditions)
  have selects := (consumes_expect rfl select).trans (consumes_selection _ skipped)
  have tables := ((selects.trans (consumes_expect rfl from_)).trans
    (consumes_expect rfl source)).trans joins.consumes
  exact ((tables.trans (where_.consumes filters)).trans (group.consumes takes_group_by)).trans
    (count.consumes predicates)

theorem ReadsEnclosedQuery.consumes {query : Subquery}
    (read : ReadsEnclosedQuery condition predicate tokens query rest) : Consumes tokens rest := by
  obtain ⟨opened, inner, closed⟩ := read
  exact consumes_around opened (inner.consumes conditions predicates) closed

/-- What opens a level closes it. -/
theorem ReadsLevel.consumes {expr : Expr} (read : ReadsLevel condition predicate tokens expr rest) :
    Consumes tokens rest := by
  cases read with
  | exist word enclosed =>
      exact (consumes_expect rfl word).trans (enclosed.consumes conditions predicates)
  | notExist not_ word enclosed =>
      exact ((consumes_expect rfl not_).trans (consumes_expect rfl word)).trans
        (enclosed.consumes conditions predicates)
  | negated not_ other read => exact (consumes_expect rfl not_).trans (conditions _ _ _ read)
  | @grouped inner behind after rest opened read closed =>
      have within := consumes_disjunction conditions behind
      rw [read] at within
      exact consumes_around opened within closed

end Queries

theorem takes_condition (room : Nat) (tokens : List Token) :
    Takes tokens (readCondition room tokens) := by
  intro expr rest found
  induction room generalizing tokens expr rest with
  | zero =>
      cases condition_found found with
      | predicate read => exact takes_predicate (takes_operand 0) _ _ _ read
  | succ room ih =>
      cases condition_found found with
      | predicate read => exact takes_predicate (takes_operand (room + 1)) _ _ _ read
      | level read => exact read.consumes ih (takes_predicate (takes_operand room))

/-- The tokens of an expression are balanced, unless they are all that there are. -/
theorem takes_expr (tokens : List Token) : Takes tokens (readExpr tokens) := by
  cases tokens with
  | nil => simp [Takes, readExpr]
  | cons token rest => exact takes_always (consumes_disjunction (takes_condition maxNesting)) _

end Cohort.Sql
