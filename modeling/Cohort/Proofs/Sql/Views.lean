import Cohort.Proofs.Sql.Predicates

/-!
Changes of tokens that readers do not see. Readers see only the kinds of tokens; the characters show
where a fragment is kept as source text because it could not be read. A `View` changes tokens in
what is not their kind, and through it the same is read, apart from source text that it changes.
-/

namespace Cohort.Sql

structure View where
  token : Token → Token
  text : String → String
  kind : ∀ t, (token t).kind = t.kind
  source : ∀ tokens : List Token, sourceText (tokens.map token) = text (sourceText tokens)

def View.see (view : View) (tokens : List Token) : List Token :=
  tokens.map view.token

section See

variable (view : View)

@[simp] theorem see_nil : view.see [] = [] := rfl

@[simp] theorem see_cons (t : Token) (rest : List Token) :
    view.see (t :: rest) = view.token t :: view.see rest := rfl

@[simp] theorem see_kind (t : Token) : (view.token t).kind = t.kind := view.kind t

theorem source_see (tokens : List Token) :
    sourceText (view.see tokens) = view.text (sourceText tokens) :=
  view.source tokens

end See

def Predicate.reword (word : String → String) : Predicate → Predicate
  | .unparsed text => .unparsed (word text)
  | other => other

mutual

def Expr.reword (word : String → String) : Expr → Expr
  | .and items => .and (Expr.rewordAll word items)
  | .or items => .or (Expr.rewordAll word items)
  | .grouped inner => .grouped (inner.reword word)
  | .not inner => .not (inner.reword word)
  | .exist negated query => .exist negated (query.reword word)
  | .predicate p => .predicate (p.reword word)

def Expr.rewordAll (word : String → String) : List Expr → List Expr
  | [] => []
  | item :: rest => item.reword word :: Expr.rewordAll word rest

def Subquery.reword (word : String → String) : Subquery → Subquery
  | ⟨table, joins, filter, groupBy, having⟩ =>
      ⟨table, joins, match filter with
        | some filter => some (filter.reword word)
        | none => none, groupBy, having.map (Predicate.reword word)⟩

end

section Reword

variable (word : String → String)

theorem reword_all (items : List Expr) :
    Expr.rewordAll word items = items.map (Expr.reword word) := by
  induction items with
  | nil => rfl
  | cons item rest ih => rw [Expr.rewordAll, ih, List.map_cons]

theorem subquery_reword (table : String) (joins : List Join) (filter : Option Expr)
    (groupBy : Option Column) (having : Option Predicate) :
    Subquery.reword word ⟨table, joins, filter, groupBy, having⟩ =
      ⟨table, joins, filter.map (Expr.reword word), groupBy,
        having.map (Predicate.reword word)⟩ := by
  cases filter <;> rfl

end Reword

theorem predicate_reword_id (p : Predicate) : p.reword id = p := by
  cases p <;> rfl

theorem expr_reword_id (expr : Expr) : expr.reword id = expr := by
  have all {items : List Expr} (each : ∀ item ∈ items, item.reword id = item) :
      Expr.rewordAll id items = items := by
    rw [reword_all, List.map_congr_left each, List.map_id']
  induction expr using Expr.induction_within with
  | and items ih => rw [Expr.reword, all ih]
  | or items ih => rw [Expr.reword, all ih]
  | grouped inner ih => rw [Expr.reword, ih]
  | not inner ih => rw [Expr.reword, ih]
  | exist negated query ih =>
      obtain ⟨table, joins, filter, groupBy, having⟩ := query
      have within : filter.map (Expr.reword id) = filter := by
        cases filter with
        | none => rfl
        | some filter => rw [Option.map_some, ih filter rfl]
      have count : having.map (Predicate.reword id) = having := by
        cases having with
        | none => rfl
        | some having => rw [Option.map_some, predicate_reword_id]
      rw [Expr.reword, subquery_reword, within, count]
  | predicate p => rw [Expr.reword, predicate_reword_id]

variable {α β : Type} {view : View} {erase : α → α} {erase' : β → β}

def View.seen (view : View) (erase : α → α) (result : Option (α × List Token)) :
    Option (α × List Token) :=
  result.map fun (value, rest) => (erase value, view.see rest)

@[simp] theorem seen_none : view.seen erase none = none := rfl

@[simp] theorem seen_some (value : α) (rest : List Token) :
    view.seen erase (some (value, rest)) = some (erase value, view.see rest) := rfl

/-- From changed tokens the same is read, up to `erase`. -/
def Blind (view : View) (erase : α → α) (read : Read α) : Prop :=
  ∀ tokens, read (view.see tokens) = view.seen erase (read tokens)

theorem seen_bind {result result' : Option (α × List Token)}
    {next next' : α × List Token → Option (β × List Token)}
    (same : result' = view.seen erase result)
    (step : ∀ value rest,
      next' (erase value, view.see rest) = view.seen erase' (next (value, rest))) :
    (result' >>= next') = view.seen erase' (result >>= next) := by
  subst same
  cases result with
  | none => rfl
  | some pair => exact step pair.1 pair.2

theorem expect_see (kind : TokenKind) (tokens : List Token) :
    expect kind (view.see tokens) = (expect kind tokens).map view.see := by
  cases tokens with
  | nil => rfl
  | cons token rest =>
      by_cases same : token.kind = kind <;> simp [expect, same]

theorem seen_expect {kind : TokenKind} {tokens : List Token}
    {next next' : List Token → Option (β × List Token)}
    (step : ∀ rest, next' (view.see rest) = view.seen erase' (next rest)) :
    (expect kind (view.see tokens) >>= next') = view.seen erase' (expect kind tokens >>= next) := by
  rw [expect_see]
  cases expect kind tokens with
  | none => rfl
  | some rest => exact step rest

theorem accept_see (kind : TokenKind) (tokens : List Token) :
    accept kind (view.see tokens) = ((accept kind tokens).1, view.see (accept kind tokens).2) := by
  rw [accept, accept, expect_see]
  cases expect kind tokens <;> rfl

theorem starts_see (kind : TokenKind) (tokens : List Token) :
    startsWith kind (view.see tokens) = startsWith kind tokens := by
  rw [startsWith, startsWith, expect_see, Option.isSome_map]

theorem blind_name : Blind view id readName := by
  intro tokens
  cases tokens with
  | nil => rfl
  | cons token rest =>
      simp only [see_cons, readName, see_kind]
      cases token.kind <;> rfl

theorem blind_column : Blind view id readColumn := by
  intro tokens
  refine seen_bind (blind_name tokens) fun first rest => ?_
  simp only [expect_see]
  cases expect (.mark .dot) rest with
  | none => rfl
  | some rest =>
      exact seen_bind (blind_name rest) fun name rest => rfl

theorem blind_separated {item : Read α} (blind : Blind view erase item) (separator : TokenKind)
    (bound tokens : List Token) :
    readSeparated separator item (view.see bound) (view.see tokens) =
      view.seen (List.map erase) (readSeparated separator item bound tokens) := by
  -- The bound is as long when it is changed, so both readers stop after as many items.
  induction bound generalizing tokens with
  | nil =>
      simp only [see_nil, readSeparated, blind tokens]
      cases item tokens <;> rfl
  | cons token bound ih =>
      simp only [see_cons, readSeparated]
      refine seen_bind (blind tokens) fun first rest => ?_
      simp only [expect_see]
      cases expect separator rest with
      | none => rfl
      | some rest =>
          exact seen_bind (ih rest) fun others rest => rfl

theorem blind_operands {operand : Read Operand} (blind : Blind view id operand) :
    Blind view id (readOperands operand) := by
  intro tokens
  have separated := blind_separated blind (.mark .comma) tokens tokens
  rw [List.map_id_fun] at separated
  simp only [readOperands, starts_see, separated]
  split_ifs <;> rfl

theorem blind_interval : Blind view id readInterval := by
  intro tokens
  cases tokens with
  | nil => rfl
  | cons token rest =>
      simp only [see_cons, readInterval, see_kind, blind_name rest]
      cases token.kind with
      | string raw => cases readName rest <;> rfl
      | number digits => cases readName rest <;> rfl
      | _ => rfl

theorem blind_term {args : Read (List Operand)} (blind : Blind view id args) :
    Blind view id (readTerm args) := by
  intro tokens
  cases tokens with
  | nil => rfl
  | cons token rest =>
      simp only [see_cons, readTerm, see_kind]
      cases token.kind with
      | identifier name =>
          simp only [expect_see]
          cases expect (.mark .lparen) rest with
          | some rest =>
              exact seen_bind (blind rest) fun values rest => seen_expect fun rest => rfl
          | none =>
              cases expect (.mark .dot) rest with
              | some rest =>
                  exact seen_bind (blind_name rest) fun name rest => rfl
              | none => rfl
      | keyword word => cases word <;> first | rfl | exact blind_interval rest
      | mark sign =>
          cases sign with
          | minus =>
              cases rest with
              | nil => rfl
              | cons second rest =>
                  have same := view.kind second
                  rw [see_cons]
                  generalize view.token second = changed at same ⊢
                  obtain ⟨kind, _, _, _⟩ := second
                  obtain ⟨_, _, _, _⟩ := changed
                  cases same
                  cases kind <;> rfl
          | _ => rfl
      | _ => rfl

theorem blind_sign : Blind view id readSign := by
  intro tokens
  cases tokens with
  | nil => rfl
  | cons token rest =>
      simp only [see_cons, readSign, see_kind]
      cases token.kind with
      | mark sign => cases sign <;> rfl
      | _ => rfl

theorem blind_sum {term : Read Operand} (blind : Blind view id term) (left : Operand)
    (bound tokens : List Token) :
    readSum term left (view.see bound) (view.see tokens) =
      view.seen id (readSum term left bound tokens) := by
  induction bound generalizing left tokens with
  | nil => rfl
  | cons token bound ih =>
      simp only [see_cons, readSum, blind_sign tokens]
      cases readSign tokens with
      | none => rfl
      | some pair =>
          obtain ⟨sign, rest⟩ := pair
          exact seen_bind (blind rest) fun right rest => ih _ rest

theorem blind_sums {args : Read (List Operand)} (blind : Blind view id args) :
    Blind view id (fun tokens => do
      let (first, rest) ← readTerm args tokens
      readSum (readTerm args) first rest rest) := by
  intro tokens
  have term := blind_term blind
  exact seen_bind (term tokens) fun first rest => blind_sum term first rest rest

theorem blind_operand (room : Nat) : Blind view id (readOperand room) := by
  induction room with
  | zero =>
      intro tokens
      rw [readOperand, readOperand]
      exact blind_sums (fun _ => rfl) tokens
  | succ room ih =>
      intro tokens
      rw [readOperand, readOperand]
      exact blind_sums (blind_operands ih) tokens

theorem blind_relation {operand : Read Operand} (blind : Blind view id operand) (target : Operand)
    (negated : Bool) :
    Blind view (Predicate.reword view.text) (readRelation operand target negated) := by
  intro tokens
  cases tokens with
  | nil => cases negated <;> rfl
  | cons token rest =>
      simp only [see_cons, readRelation, see_kind]
      cases token.kind with
      | comparison op =>
          cases negated with
          | true => rfl
          | false =>
              exact seen_bind (blind rest) fun right rest => rfl
      | keyword word =>
          cases word with
          | BETWEEN =>
              refine seen_bind (blind rest) fun low rest => seen_expect fun rest => ?_
              exact seen_bind (blind rest) fun high rest => rfl
          | LIKE =>
              exact seen_bind (blind rest) fun pattern rest => rfl
          | IN =>
              refine seen_expect fun rest => ?_
              exact seen_bind (blind_operands blind rest) fun values rest =>
                seen_expect fun rest => rfl
          | IS =>
              cases negated with
              | true => rfl
              | false =>
                  simp only [Bool.false_eq_true, ↓reduceIte, accept_see]
                  exact seen_expect fun rest => rfl
          | _ => cases negated <;> rfl
      | mark sign => cases sign <;> cases negated <;> rfl
      | _ => cases negated <;> rfl

theorem blind_predicate {operand : Read Operand} (blind : Blind view id operand) :
    Blind view (Predicate.reword view.text) (readPredicate operand) := by
  intro tokens
  refine seen_bind (blind tokens) fun target rest => ?_
  simp only [accept_see]
  exact blind_relation blind target _ _

theorem fragment_see (depth : Nat) (tokens : List Token) :
    splitFragment depth (view.see tokens) =
      (view.see (splitFragment depth tokens).1, view.see (splitFragment depth tokens).2) := by
  induction tokens generalizing depth with
  | nil => rfl
  | cons token rest ih =>
      simp only [see_cons, splitFragment, see_kind]
      cases token.kind with
      -- Whether the fragment ends here depends on the kind and on the depth, zero or not.
      | mark sign =>
          cases sign <;> cases depth <;> simp [ih, endsFragment]
      | keyword word =>
          cases word <;> cases depth <;> simp [ih, endsFragment]
      | _ => cases depth <;> simp [ih, endsFragment]

theorem recovering_see {condition : Read Expr}
    (blind : Blind view (Expr.reword view.text) condition) (tokens : List Token) :
    recovering condition (view.see tokens) =
      ((recovering condition tokens).1.reword view.text,
        view.see (recovering condition tokens).2) := by
  rw [recovering, recovering, blind tokens, fragment_see]
  -- The fragment is as long, and only its text is another.
  cases condition tokens with
  | some pair => rfl
  | none => simp [source_see, Expr.reword, Predicate.reword]

theorem items_see {separator : Keyword} {item : List Token → Expr × List Token}
    (blind : ∀ tokens,
      item (view.see tokens) = ((item tokens).1.reword view.text, view.see (item tokens).2))
    (bound tokens : List Token) :
    readItems separator item (view.see bound) (view.see tokens) =
      ((readItems separator item bound tokens).1.map (Expr.reword view.text),
        view.see (readItems separator item bound tokens).2) := by
  induction bound generalizing tokens with
  | nil => simp [readItems, blind]
  | cons token bound ih =>
      simp only [see_cons, readItems, blind tokens, expect_see]
      cases expect (.keyword separator) (item tokens).2 with
      | none => rfl
      | some rest => simp [ih]

theorem fold_see {combine : List Expr → Expr}
    (inside : ∀ items,
      combine (items.map (Expr.reword view.text)) = (combine items).reword view.text)
    (items : List Expr) :
    foldItems combine (items.map (Expr.reword view.text)) =
      (foldItems combine items).reword view.text := by
  by_cases single : items.length = 1
  · obtain ⟨item, rfl⟩ := List.length_eq_one_iff.mp single
    rfl
  · rw [fold_several single, fold_several (by rwa [List.length_map]), inside]

section Levels

variable {condition : Read Expr} (blind : Blind view (Expr.reword view.text) condition)

include blind

theorem conjunction_see (tokens : List Token) :
    readConjunction condition (view.see tokens) =
      ((readConjunction condition tokens).1.reword view.text,
        view.see (readConjunction condition tokens).2) := by
  simp only [readConjunction, items_see (recovering_see blind) tokens tokens]
  rw [fold_see fun items => by rw [Expr.reword, reword_all]]

theorem disjunction_see (tokens : List Token) :
    readDisjunction condition (view.see tokens) =
      ((readDisjunction condition tokens).1.reword view.text,
        view.see (readDisjunction condition tokens).2) := by
  simp only [readDisjunction, items_see (conjunction_see blind) tokens tokens]
  rw [fold_see fun items => by rw [Expr.reword, reword_all]]

end Levels

theorem selection_see (depth : Nat) (tokens : List Token) :
    skipSelection depth (view.see tokens) = (skipSelection depth tokens).map view.see := by
  induction tokens generalizing depth with
  | nil => rfl
  | cons token rest ih =>
      simp only [see_cons, skipSelection, see_kind]
      cases token.kind with
      | mark sign => cases sign <;> cases depth <;> simp [ih]
      | keyword word => cases word <;> cases depth <;> simp [ih]
      | _ => simp [ih]

theorem blind_join : Blind view id readJoin := by
  intro tokens
  refine seen_bind (blind_name tokens) fun table rest => seen_expect fun rest => ?_
  refine seen_bind (blind_column rest) fun left rest => seen_expect fun rest => ?_
  exact seen_bind (blind_column rest) fun right rest => rfl

theorem join_words_see (tokens : List Token) :
    expectJoin (view.see tokens) = (expectJoin tokens).map (Option.map view.see) := by
  simp only [expectJoin, expect_see]
  cases expect (.keyword .INNER) tokens with
  | some rest => simp [expect_see]
  | none => cases expect (.keyword .JOIN) tokens <;> rfl

theorem blind_joins (bound tokens : List Token) :
    readJoins (view.see bound) (view.see tokens) = view.seen id (readJoins bound tokens) := by
  induction bound generalizing tokens with
  | nil => rfl
  | cons token bound ih =>
      simp only [see_cons, readJoins, join_words_see]
      cases expectJoin tokens with
      | none => rfl
      | some found =>
          cases found with
          | none => rfl
          | some rest =>
              refine seen_bind (blind_join rest) fun first rest => ?_
              exact seen_bind (ih rest) fun others rest => rfl

theorem blind_optional {keyword : Keyword} {part : Read α} (blind : Blind view erase part) :
    Blind view (Option.map erase) (readOptional keyword part) := by
  intro tokens
  simp only [readOptional, expect_see]
  cases expect (.keyword keyword) tokens with
  | none => rfl
  | some rest =>
      simp only [Option.map_some, blind rest]
      cases part rest <;> rfl

section Queries

variable {condition : Read Expr} {predicate : Read Predicate}
  (blind : Blind view (Expr.reword view.text) condition)
  (blind' : Blind view (Predicate.reword view.text) predicate)

include blind blind'

theorem blind_subquery :
    Blind view (Subquery.reword view.text) (readSubquery condition predicate) := by
  have filters : Blind view (Expr.reword view.text) fun tokens =>
      some (readDisjunction condition tokens) :=
    fun tokens => congrArg some (disjunction_see blind tokens)
  have groups : Blind view id (fun tokens => do readColumn (← expect (.keyword .BY) tokens)) :=
    fun tokens => seen_expect blind_column
  intro tokens
  refine seen_expect fun rest => ?_
  rw [selection_see]
  cases skipSelection 0 rest with
  | none => rfl
  | some rest =>
      refine seen_expect fun rest => ?_
      refine seen_bind (blind_name rest) fun table rest => ?_
      refine seen_bind (blind_joins rest rest) fun joins rest => ?_
      refine seen_bind (blind_optional filters rest) fun filter rest => ?_
      refine seen_bind (blind_optional groups rest) fun groupBy rest => ?_
      refine seen_bind (blind_optional blind' rest) fun having rest => ?_
      rw [seen_some, subquery_reword]
      cases groupBy <;> rfl

theorem blind_exists (negated : Bool) :
    Blind view (Expr.reword view.text) (readExists negated condition predicate) := by
  intro tokens
  refine seen_expect fun rest => ?_
  exact seen_bind (blind_subquery blind blind' rest) fun query rest =>
    seen_expect fun rest => rfl

theorem blind_level (kind : TokenKind) :
    Blind view (Expr.reword view.text) (readLevel kind condition predicate) := by
  intro tokens
  simp only [readLevel]
  split
  · exact blind_exists blind blind' false tokens
  · simp only [expect_see]
    cases expect (.keyword .EXISTS) tokens with
    | some rest => exact blind_exists blind blind' true rest
    | none =>
        simp only [Option.map_none, blind tokens]
        cases condition tokens <;> rfl
  · rw [disjunction_see blind tokens]
    exact seen_expect fun rest => rfl

end Queries

theorem blind_alone (room : Nat) :
    Blind view (Expr.reword view.text) fun tokens =>
      (readPredicate (readOperand room) tokens).map fun (predicate, rest) =>
        (Expr.predicate predicate, rest) := by
  intro tokens
  dsimp only
  rw [blind_predicate (blind_operand room) tokens]
  cases readPredicate (readOperand room) tokens <;> rfl

theorem blind_condition (room : Nat) : Blind view (Expr.reword view.text) (readCondition room) := by
  induction room with
  | zero =>
      intro tokens
      cases tokens with
      | nil => rfl
      | cons token rest =>
          rw [see_cons, readCondition, readCondition, see_kind]
          split_ifs
          · rfl
          · exact blind_alone 0 (token :: rest)
  | succ room ih =>
      intro tokens
      cases tokens with
      | nil => rfl
      | cons token rest =>
          rw [see_cons, readCondition, readCondition, see_kind]
          split_ifs
          · exact blind_level ih (blind_predicate (blind_operand room)) token.kind rest
          · exact blind_alone (room + 1) (token :: rest)

/-- An expression is read off the kinds of the tokens alone, apart from the text of what could not
be read. -/
theorem blind_expr : Blind view (Expr.reword view.text) readExpr := by
  intro tokens
  cases tokens with
  | nil => rfl
  | cons token rest =>
      exact congrArg some (disjunction_see (blind_condition maxNesting) (token :: rest))

end Cohort.Sql
