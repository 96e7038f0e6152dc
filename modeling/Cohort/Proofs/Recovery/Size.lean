import Cohort.Proofs.Recovery.Ids
import Cohort.Proofs.Recovery.Meaning
import Cohort.Proofs.Sql.Consuming

/-!
How large the tree of a statement can be. Every node of it is paid for by tokens: what an expression
weighs is at most the number of tokens that it is read from, and at least the number of ids that its
tree takes. So a tree has no more nodes than its statement has characters.
-/

namespace Cohort

open Sql

variable {α β : Type}

namespace Sql

/-- A filter takes an id, and it may be all that its group is made for. -/
def Predicate.weight (predicate : Predicate) : Nat :=
  if predicate.atom?.isSome then 2 else 0

mutual

def Expr.weight : Expr → Nat
  | .and items => Expr.weightOf items + 1
  | .or items => Expr.weightOf items + 1
  | .grouped inner => inner.weight
  | .not _ => 0
  | .exist _ query => query.weight
  | .predicate p => p.weight

def Expr.weightOf : List Expr → Nat
  | [] => 0
  | item :: rest => item.weight + Expr.weightOf rest

def Subquery.weight : Subquery → Nat
  | ⟨_, joins, some filter, _, _⟩ => filter.weight + joins.length + 2
  | ⟨_, _, none, _, _⟩ => 0

end

def Weighs (weight : α → Nat) (tokens : List Token) (result : Option (α × List Token)) : Prop :=
  ∀ value rest, result = some (value, rest) → weight value + rest.length ≤ tokens.length

variable {tokens rest : List Token}

/-- A comparison that is recovered takes the token of its relation, beside two operands. -/
theorem ReadsRelation.shorter {operand : Read Operand} {target : Operand} {negated : Bool}
    {p : Predicate} (each : ∀ tokens, Takes tokens (operand tokens))
    (read : ReadsRelation operand target tokens negated p rest) (atom : p.atom?.isSome = true) :
    rest.length < tokens.length := by
  cases read with
  | compare sign second => exact (each _ _ _ second).shorter.trans_lt (expect_shorter sign)
  | between keyword second and_ third =>
      have between := (each _ _ _ second).trans (consumes_expect rfl and_)
      exact (between.trans (each _ _ _ third)).shorter.trans_lt (expect_shorter keyword)
  | _ => cases atom

theorem weighs_predicate (room : Nat) (tokens : List Token) :
    Weighs Predicate.weight tokens (readPredicate (readOperand room) tokens) := by
  intro p rest found
  have shorter := (takes_predicate (takes_operand room) tokens p rest found).shorter
  simp only [Predicate.weight]
  split_ifs with atom
  · obtain ⟨first, not_, relation⟩ := predicate_found found
    have target := (starts_operand first).shorter
    have second := relation.shorter (takes_operand room) atom
    have negation := (consumes_accept rfl not_).shorter
    omega
  · omega

section Folds

variable {condition : Read Expr}

theorem weighs_recovering (each : ∀ tokens, Weighs Expr.weight tokens (condition tokens))
    (tokens : List Token) :
    (recovering condition tokens).1.weight + (recovering condition tokens).2.length ≤
      tokens.length := by
  simp only [recovering]
  split
  · next result found => exact each tokens result.1 result.2 found
  · simpa [Expr.weight, Predicate.weight, Predicate.atom?] using
      (consumes_fragment tokens).shorter

/-- The separators between the items are tokens too, one less than there are items. -/
theorem ReadsSeparated.weighs {separator : TokenKind} {item : List Token → Expr × List Token}
    {items : List Expr}
    (each : ∀ tokens, (item tokens).1.weight + (item tokens).2.length ≤ tokens.length)
    (read : ReadsSeparated separator (always item) tokens items rest) :
    Expr.weightOf items + items.length + rest.length ≤ tokens.length + 1 := by
  induction read with
  | @last tokens rest first here =>
      have weighs := each tokens
      simp only [Option.some.inj here] at weighs
      simp only [Expr.weightOf, List.length_cons, List.length_nil]
      omega
  | @more tokens middle behind rest first others here found next ih =>
      have weighs := each tokens
      simp only [Option.some.inj here] at weighs
      have separates := expect_shorter found
      simp only [Expr.weightOf, List.length_cons]
      omega

/-- A fold of several items weighs one more than they do. -/
theorem fold_weight {combine : List Expr → Expr}
    (whole : ∀ items, (combine items).weight = Expr.weightOf items + 1) {items : List Expr}
    (some_ : items ≠ []) :
    (foldItems combine items).weight + 1 ≤ Expr.weightOf items + items.length := by
  by_cases single : items.length = 1
  · obtain ⟨item, rfl⟩ := List.length_eq_one_iff.mp single
    simp [foldItems, Expr.weightOf]
  · have filled := List.length_pos_iff.mpr some_
    rw [fold_several single, whole]
    omega

theorem weighs_fold {combine : List Expr → Expr}
    (whole : ∀ items, (combine items).weight = Expr.weightOf items + 1) (separator : Keyword)
    {item : List Token → Expr × List Token}
    (each : ∀ tokens, (item tokens).1.weight + (item tokens).2.length ≤ tokens.length)
    (tokens : List Token) :
    (foldItems combine (readItems separator item tokens tokens).1).weight +
      (readItems separator item tokens tokens).2.length ≤ tokens.length := by
  have read := items_found separator item tokens tokens
  have items := read.weighs each
  have fold := fold_weight whole read.ne_nil
  omega

theorem weighs_conjunction (each : ∀ tokens, Weighs Expr.weight tokens (condition tokens))
    (tokens : List Token) :
    (readConjunction condition tokens).1.weight + (readConjunction condition tokens).2.length ≤
      tokens.length :=
  weighs_fold (fun items => by rw [Expr.weight]) .AND (weighs_recovering each) tokens

theorem weighs_disjunction (each : ∀ tokens, Weighs Expr.weight tokens (condition tokens))
    (tokens : List Token) :
    (readDisjunction condition tokens).1.weight + (readDisjunction condition tokens).2.length ≤
      tokens.length :=
  weighs_fold (fun items => by rw [Expr.weight]) .OR (weighs_conjunction each) tokens

end Folds

theorem ReadsJoins.weighs {joins : List Join} (read : ReadsJoins tokens joins rest) :
    joins.length + rest.length ≤ tokens.length := by
  induction read with
  | nothing => simp
  | more words here next ih =>
      have word := words.starts.shorter
      have first := here.consumes.shorter
      rw [List.length_cons]
      omega

theorem ReadsOptional.weighs {keyword : Keyword} {part : Read α} {weight : α → Nat}
    {value : Option α} (each : ∀ tokens, Weighs weight tokens (part tokens))
    (read : ReadsOptional keyword part tokens value rest) :
    value.elim 0 weight + rest.length ≤ tokens.length := by
  cases read with
  | absent => simp
  | present word read =>
      exact (each _ _ _ read).trans (expect_shorter word).le

section Queries

variable {condition : Read Expr} (each : ∀ tokens, Weighs Expr.weight tokens (condition tokens))
  {room : Nat}

include each

theorem ReadsSubquery.weighs {query : Subquery}
    (read : ReadsSubquery condition (readPredicate (readOperand room)) tokens query rest) :
    query.weight + rest.length ≤ tokens.length := by
  obtain @⟨table, joins, filter, _, _, _, _, _, _, _, _, _, _,
    select, skipped, from_, source, joined, where_, group, count⟩ := read
  have filters (tokens : List Token) :
      Weighs Expr.weight tokens (always (readDisjunction condition) tokens) := by
    intro filter rest found
    have weighs := weighs_disjunction each tokens
    rwa [Option.some.inj found] at weighs
  -- The words `SELECT` and `FROM` pay for the event itself.
  have first := expect_shorter select
  have second := expect_shorter from_
  have front := (consumes_selection _ skipped).shorter
  have table_ := expect_shorter source
  have joins_ := joined.weighs
  have filter_ := where_.weighs filters
  have groups := (group.consumes takes_group_by).shorter
  have counts := (count.consumes (takes_predicate (takes_operand room))).shorter
  cases filter with
  | none =>
      simp only [Subquery.weight, Option.elim_none] at filter_ ⊢
      omega
  | some filter =>
      simp only [Subquery.weight, Option.elim_some] at filter_ ⊢
      omega

theorem ReadsEnclosedQuery.weighs {query : Subquery}
    (read : ReadsEnclosedQuery condition (readPredicate (readOperand room)) tokens query rest) :
    query.weight + rest.length ≤ tokens.length := by
  obtain ⟨opened, inner, closed⟩ := read
  have within := inner.weighs each
  have opening := expect_shorter opened
  have closing := expect_shorter closed
  omega

theorem ReadsLevel.weighs (conditions : ∀ tokens, Takes tokens (condition tokens)) {expr : Expr}
    (read : ReadsLevel condition (readPredicate (readOperand room)) tokens expr rest) :
    expr.weight + rest.length ≤ tokens.length := by
  cases read with
  | exist word enclosed =>
      rw [Expr.weight]
      exact (enclosed.weighs each).trans (expect_shorter word).le
  | notExist not_ word enclosed =>
      rw [Expr.weight]
      exact ((enclosed.weighs each).trans (expect_shorter word).le).trans (expect_shorter not_).le
  | negated not_ other read =>
      rw [Expr.weight, Nat.zero_add]
      exact (conditions _ _ _ read).shorter.trans (expect_shorter not_).le
  | @grouped inner behind after rest opened read closed =>
      have within := weighs_disjunction each behind
      simp only [read] at within
      have opening := expect_shorter opened
      have closing := expect_shorter closed
      rw [Expr.weight]
      omega

end Queries

theorem weighs_condition (room : Nat) (tokens : List Token) :
    Weighs Expr.weight tokens (readCondition room tokens) := by
  intro expr rest found
  induction room generalizing tokens expr rest with
  | zero =>
      cases condition_found found with
      | predicate read => exact weighs_predicate 0 _ _ _ read
  | succ room ih =>
      cases condition_found found with
      | predicate read => exact weighs_predicate (room + 1) _ _ _ read
      | level read => exact read.weighs ih (takes_condition room)

/-- An expression weighs no more than the tokens that it is read from. -/
theorem weighs_expr (tokens : List Token) : Weighs Expr.weight tokens (readExpr tokens) := by
  cases tokens with
  | nil => simp [Weighs, readExpr]
  | cons token rest =>
      have light := weighs_disjunction (weighs_condition maxNesting) (token :: rest)
      rintro expr behind found
      rwa [show readDisjunction _ _ = (expr, behind) from Option.some.inj found] at light

end Sql

/-! ### Ids -/

/-- The action takes so few ids that there would be some of `cost` left for what comes back. -/
def Spends (action : Recovery α) (cost : Nat) (left : α → Nat) : Prop :=
  ∀ ledger : Ledger, (action ledger).2.lastId + left (action ledger).1 ≤ ledger.lastId + cost

theorem spends_pure {value : α} {cost : Nat} {left : α → Nat} (enough : left value ≤ cost) :
    Spends (pure value) cost left :=
  fun ledger => Nat.add_le_add_left enough ledger.lastId

theorem spends_fresh : Spends freshId 1 fun _ => 0 :=
  fun _ => le_rfl

theorem spends_drop (text : String) (reason : DropReason) {value : α} {cost : Nat}
    {left : α → Nat} (enough : left value ≤ cost) :
    Spends (do drop text reason; pure value) cost left :=
  fun ledger => Nat.add_le_add_left enough ledger.lastId

/-- What is left of the first action may be spent by the second. -/
theorem Spends.bind {first : Recovery α} {second : α → Recovery β} {cost cost' : Nat}
    {left : α → Nat} {left' : β → Nat} (head : Spends first cost left)
    (tail : ∀ value, Spends (second value) (left value + cost') left') :
    Spends (first >>= second) (cost + cost') left' := by
  intro ledger
  have here := head ledger
  have behind := tail (first ledger).1 (first ledger).2
  calc ((first >>= second) ledger).2.lastId + left' ((first >>= second) ledger).1
      ≤ (first ledger).2.lastId + (left (first ledger).1 + cost') := behind
    _ ≤ ledger.lastId + (cost + cost') := by omega

theorem Spends.then {first : Recovery α} {second : α → Recovery β} {cost : Nat} {left : α → Nat}
    {left' : β → Nat} (head : Spends first cost left)
    (tail : ∀ value, Spends (second value) (left value) left') :
    Spends (first >>= second) cost left' :=
  @Spends.bind _ _ _ _ _ 0 _ _ head tail

theorem Spends.weaken {action : Recovery α} {cost cost' : Nat} {left left' : α → Nat}
    (spends : Spends action cost left) (more : cost ≤ cost')
    (less : ∀ value, left' value ≤ left value) : Spends action cost' left' := by
  intro ledger
  have here := spends ledger
  have := less (action ledger).1
  omega

/-- What the action does not need is left. -/
theorem Spends.frame {action : Recovery α} {cost : Nat} {left : α → Nat}
    (spends : Spends action cost left) (spare : Nat) :
    Spends action (spare + cost) fun value => spare + left value := by
  intro ledger
  have here := spends ledger
  simp only
  omega

/-- As many of the ids are left over as there are results. -/
theorem each_spends {recover : α → Recovery (Option β)} {cost : α → Nat} {items : List α}
    (step : ∀ item ∈ items, Spends (recover item) (cost item) fun back => back.toList.length) :
    Spends (recoverEach recover items) (items.map cost).sum List.length := by
  induction items with
  | nil => exact spends_pure le_rfl
  | cons item rest ih =>
      rw [List.map_cons, List.sum_cons]
      refine (step item List.mem_cons_self).bind fun first => ?_
      have behind := ih fun other found => step other (List.mem_cons_of_mem item found)
      refine (behind.frame first.toList.length).then fun others => spends_pure ?_
      rw [List.length_append]

theorem weight_of (items : List Expr) : Expr.weightOf items = (items.map Expr.weight).sum := by
  induction items with
  | nil => rfl
  | cons item rest ih => rw [Expr.weightOf, ih, List.map_cons, List.sum_cons]

theorem split_weight (expr : Expr) :
    ((splitFold expr).2.map Expr.weight).sum ≤ expr.weight := by
  rw [← weight_of]
  fun_cases splitFold expr with
  | case1 items => exact Nat.le_succ _
  | case2 items => exact Nat.le_succ _
  | case3 => simp [Expr.weightOf]

theorem unwrap_weight (expr : Expr) : expr.unwrap.weight = expr.weight := by
  cases expr <;> simp [Expr.unwrap, Expr.weight]

theorem innermost_weight (expr : Expr) : expr.innermost.weight = expr.weight := by
  fun_induction Expr.innermost expr with
  | case1 inner ih => rw [ih, Expr.weight]
  | case2 => rfl

theorem filter_spends (predicate : Predicate) :
    Spends (recoverFilter predicate) predicate.weight fun back => back.toList.length := by
  simp only [recoverFilter]
  split
  · exact spends_fresh.bind fun id => spends_pure le_rfl
  · exact spends_fresh.bind fun id => spends_pure le_rfl
  · exact spends_drop _ _ (Nat.zero_le _)
  · split_ifs
    · exact spends_pure (Nat.zero_le _)
    · exact spends_drop _ _ (Nat.zero_le _)

theorem filters_spend (members : List Expr) :
    Spends (recoverFilters members) (members.map Expr.weight).sum List.length := by
  rw [recover_filters_each]
  refine each_spends fun member _ => ?_
  rw [← innermost_weight]
  simp only [recoverNested]
  split
  · next p same =>
      rw [same, Expr.weight]
      exact filter_spends p
  · exact spends_drop _ _ (Nat.zero_le _)

theorem add_related_length (table : String) (combinator : Combinator) (filters : List Filter)
    (joins : List Related) : (addRelated table combinator filters joins).length = joins.length := by
  induction joins with
  | nil => rfl
  | cons related rest ih =>
      rw [addRelated]
      split_ifs <;> simp [ih]

theorem conjunct_spends (table : String) (draft : EventDraft) (conjunct : Expr) :
    Spends (addConjunct table draft conjunct) (draft.related.length + conjunct.weight) fun draft =>
      draft.related.length := by
  have enough := split_weight conjunct.unwrap
  rw [unwrap_weight] at enough
  have filters := ((filters_spend (splitFold conjunct.unwrap).2).weaken enough
    fun _ => Nat.zero_le _).frame draft.related.length
  simp only [addConjunct]
  split_ifs
  · exact spends_pure (Nat.le_add_right _ _)
  · exact filters.then fun found => spends_pure le_rfl
  · exact filters.then fun found => spends_pure (add_related_length _ _ _ _).le
  · exact spends_drop _ _ (Nat.le_add_right _ _)

theorem conjuncts_spend (table : String) (draft : EventDraft) (conjuncts : List Expr) :
    Spends (addConjuncts table draft conjuncts)
      (draft.related.length + (conjuncts.map Expr.weight).sum) fun draft => draft.related.length := by
  induction conjuncts generalizing draft with
  | nil => exact spends_pure le_rfl
  | cons conjunct rest ih =>
      rw [List.map_cons, List.sum_cons, ← Nat.add_assoc]
      exact (conjunct_spends table draft conjunct).bind ih

theorem joins_spend (joins : List Related) :
    Spends (numberRelated joins) joins.length fun _ => 0 := by
  induction joins with
  | nil => exact spends_pure le_rfl
  | cons related rest ih =>
      rw [List.length_cons, Nat.add_comm]
      refine spends_fresh.bind fun id => ?_
      rw [Nat.zero_add]
      exact ih.then fun found => spends_pure le_rfl

theorem count_spends (having : Option Predicate) :
    Spends (recoverCount having) 0 fun _ => 0 := by
  simp only [recoverCount]
  split
  · exact spends_pure le_rfl
  · split
    · exact spends_pure le_rfl
    · split_ifs
      · exact spends_pure le_rfl
      · exact spends_drop _ _ le_rfl

theorem conjuncts_weight (filter : Expr) :
    ((conjunctsOf filter).map Expr.weight).sum ≤ filter.weight := by
  rw [← weight_of]
  cases filter with
  | and items => exact Nat.le_succ _
  | _ => simp [conjunctsOf, Expr.weightOf]

theorem event_spends (query : Subquery) (whole : Expr) :
    Spends (recoverEvent query whole) query.weight fun back => back.toList.length := by
  obtain ⟨table, joins, filter, groupBy, having⟩ := query
  cases filter with
  | none => exact spends_drop _ _ le_rfl
  | some filter =>
      rw [recover_event_some rfl]
      let start : EventDraft :=
        { related := joins.map fun join => ⟨0, join.table, join.left.name, [], .and, []⟩ }
      have conjuncts : Spends (addConjuncts table start (conjunctsOf filter))
          (filter.weight + joins.length) fun draft => draft.related.length := by
        refine (conjuncts_spend table start (conjunctsOf filter)).weaken ?_ fun _ => le_rfl
        have light := conjuncts_weight filter
        simp only [start, List.length_map]
        omega
      refine ((count_spends having).frame (filter.weight + joins.length + 2)).then fun count => ?_
      show Spends _ (filter.weight + joins.length + 2) _
      refine conjuncts.bind fun draft => (joins_spend draft.related).bind fun related => ?_
      exact (spends_fresh.frame 1).then fun id => spends_pure le_rfl

/-- A group takes an id if it has members, and so much may be left of each of them. -/
theorem closed_spends (combinator : Combinator) (members : List Member) (spare : Nat) :
    Spends (closeGroup combinator members) (members.length + spare) fun back =>
      back.toList.length * spare := by
  simp only [closeGroup]
  split_ifs with none_
  · exact spends_pure (by simp)
  · have some_ : 0 < members.length := List.length_pos_iff.mpr (by simpa using none_)
    refine (spends_fresh.frame spare).weaken ?_ (fun _ => le_rfl) |>.then fun id => spends_pure ?_
    · omega
    · simp

theorem fold_spends (combinator : Combinator) {items : List Expr}
    (each : ∀ item ∈ items,
      Spends (recoverMember item) item.weight fun back => back.toList.length) (spare : Nat) :
    Spends (do closeGroup combinator (← recoverMembers items))
      ((items.map Expr.weight).sum + spare) fun back => back.toList.length * spare := by
  rw [recover_members_each]
  exact (each_spends each).bind fun members => closed_spends combinator members spare

theorem folded_spends (combinator : Combinator) {items : List Expr}
    (each : ∀ item ∈ items,
      Spends (recoverMember item) item.weight fun back => back.toList.length) :
    Spends (do
      let group ← closeGroup combinator (← recoverMembers items)
      pure (group.map Member.group)) (Expr.weightOf items + 1) fun back => back.toList.length := by
  rw [← bind_assoc, weight_of]
  refine (fold_spends combinator each 1).then fun group => spends_pure ?_
  cases group <;> simp

theorem member_spends (expr : Expr) :
    Spends (recoverMember expr) expr.weight fun back => back.toList.length := by
  induction expr using Expr.induction with
  | and items ih =>
      rw [recoverMember, Expr.weight]
      exact folded_spends .and ih
  | or items ih =>
      rw [recoverMember, Expr.weight]
      exact folded_spends .or ih
  | grouped inner ih =>
      rw [recoverMember, Expr.weight]
      exact ih
  | not inner ih =>
      rw [recoverMember]
      exact spends_drop _ _ le_rfl
  | exist negated query =>
      rw [recoverMember, Expr.weight]
      refine (event_spends query _).then fun event => spends_pure ?_
      cases event <;> simp
  | predicate predicate =>
      rw [recoverMember, Expr.weight]
      refine (filter_spends predicate).then fun filter => spends_pure ?_
      cases filter <;> simp

/-- Nothing has to be left of a part of the outermost fold. -/
theorem group_spends (fragment : Expr) :
    Spends (recoverGroup fragment) fragment.weight fun _ => 0 := by
  rw [← unwrap_weight]
  have fold := fold_spends (splitFold fragment.unwrap).1
    (fun item (_ : item ∈ (splitFold fragment.unwrap).2) => member_spends item) 0
  exact fold.weaken (split_weight _) fun _ => Nat.zero_le _

theorem groups_spend (fragments : List Expr) :
    Spends (recoverGroups fragments) (fragments.map Expr.weight).sum fun _ => 0 := by
  induction fragments with
  | nil => exact spends_pure le_rfl
  | cons fragment rest ih =>
      rw [List.map_cons, List.sum_cons]
      refine (group_spends fragment).bind fun first => ?_
      rw [Nat.zero_add]
      exact ih.then fun others => spends_pure le_rfl

theorem criteria_spends (expr : Expr) :
    Spends (recoverCriteria expr) expr.weight fun _ => 0 :=
  ((groups_spend (splitFold expr).2).weaken (split_weight expr) fun _ => le_rfl).then
    fun _ => spends_pure le_rfl

/-- The tree of an expression has no more nodes than the expression weighs. -/
theorem criteria_size (expr : Expr) : (recoverCriteria expr {}).1.ids.length ≤ expr.weight := by
  obtain ⟨fresh, numbered, same⟩ := criteria_assigns expr {}
  have spent := criteria_spends expr {}
  have length := numbered.length
  rw [same.length_eq, List.nil_append]
  simp only at spent length
  omega

theorem scan_length (bound offset : Nat) (text : List Char) :
    (scan bound offset text).length ≤ bound := by
  induction bound generalizing offset text with
  | zero => exact le_rfl
  | succ bound ih =>
      simp only [scan]
      split
      · exact Nat.zero_le _
      · exact Nat.succ_le_succ (ih _ _)

theorem until_semicolon_length (depth : Nat) (tokens : List Token) :
    (untilSemicolon depth tokens).length ≤ tokens.length := by
  induction tokens generalizing depth with
  | nil => exact le_rfl
  | cons token rest ih =>
      rw [untilSemicolon]
      split_ifs
      · exact Nat.zero_le _
      · exact Nat.succ_le_succ (ih _)

/-- The word in front of a condition is a token too. -/
theorem where_body_shorter {depth : Nat} {tokens body : List Token}
    (found : whereBody depth tokens = some body) : body.length < tokens.length := by
  induction tokens generalizing depth with
  | nil => cases found
  | cons token rest ih =>
      rw [whereBody] at found
      split_ifs at found
      · cases found
        exact Nat.lt_succ_of_le (until_semicolon_length 0 rest)
      · exact (ih found).trans (Nat.lt_succ_self _)

theorem normalized_length (sql : String) :
    (normalizeStatement sql).toList.length ≤ sql.toList.length + 1 := by
  obtain ⟨lead, front, _⟩ := trim_start_parts sql.toList
  obtain ⟨trail, back, _⟩ := trim_end_parts (Text.trimStart sql.toList)
  have whole := congrArg List.length (front.trans (congrArg (lead ++ ·) back))
  simp only [List.length_append] at whole
  simp only [normalizeStatement, Text.trim, String.toList_ofList]
  split_ifs
  · omega
  · rw [List.length_append, List.length_singleton]
    omega

/-- The tree of a statement has no more nodes than the statement has characters. -/
theorem recovered_size (sql : String) :
    (Recovered.ofStatement sql).criteria.ids.length ≤ sql.toList.length := by
  simp only [Recovered.ofStatement]
  split
  · exact Nat.zero_le _
  · next body found =>
      split
      · exact Nat.zero_le _
      · next expr rest read =>
          have size := criteria_size expr
          have light := weighs_expr body expr rest read
          have shorter := where_body_shorter found
          have tokens : (tokenize (normalizeStatement sql)).length ≤
            (normalizeStatement sql).toList.length := scan_length _ _ _
          have text := normalized_length sql
          exact size.trans (by omega)

end Cohort
