import Cohort.Proofs.Recovery.NormalForm
import Cohort.Proofs.Sql.Stripping
import Cohort.Session

/-!
What comes back of statements with the same tokens: the same tree with the same ids, and as much is
dropped for the same reasons. Only the texts of what is dropped may differ. So a statement of a
session that counts as unchanged may be typed in without a change.
-/

namespace Cohort

open Sql

variable {α β : Type}

@[simp] theorem strip_unwrap (expr : Expr) : expr.strip.unwrap = expr.unwrap.strip := by
  cases expr <;> simp [Expr.strip, Expr.unwrap]

@[simp] theorem strip_innermost (expr : Expr) : expr.strip.innermost = expr.innermost.strip := by
  induction expr using Expr.induction with
  | grouped inner ih => simpa [Expr.strip, Expr.innermost] using ih
  | _ => simp [Expr.strip, Expr.innermost]

theorem strip_predicates (expr : Expr) :
    expr.strip.predicates = expr.predicates.map Predicate.strip := by
  have all {items : List Expr}
      (each : ∀ item ∈ items, item.strip.predicates = item.predicates.map Predicate.strip) :
      (items.map Expr.strip).flatMap Expr.predicates =
        (items.flatMap Expr.predicates).map Predicate.strip := by
    rw [List.flatMap_map, List.map_flatMap]
    exact List.flatMap_congr each
  induction expr using Expr.induction with
  | and items ih => simpa [Expr.strip, Expr.predicates, strip_all, predicates_of] using all ih
  | or items ih => simpa [Expr.strip, Expr.predicates, strip_all, predicates_of] using all ih
  | grouped inner ih => simpa [Expr.strip, Expr.predicates] using ih
  | not inner ih => simpa [Expr.strip, Expr.predicates] using ih
  | exist negated query => simp [Expr.strip, Expr.predicates]
  | predicate p => simp [Expr.strip, Expr.predicates]

theorem strip_fold (expr : Expr) :
    splitFold expr.strip = ((splitFold expr).1, (splitFold expr).2.map Expr.strip) := by
  cases expr <;> simp [Expr.strip, splitFold, strip_all]

@[simp] theorem strip_interval (predicate : Predicate) :
    predicate.strip.interval? = predicate.interval? := by
  cases predicate <;> rfl

@[simp] theorem strip_tie (predicate : Predicate) : isTie predicate.strip = isTie predicate := by
  cases predicate <;> rfl

@[simp] theorem strip_table (predicate : Predicate) :
    predicateTable? predicate.strip = predicateTable? predicate := by
  cases predicate <;> rfl

theorem strip_correlation (expr : Expr) : isCorrelation expr.strip = isCorrelation expr := by
  simp only [isCorrelation, strip_predicates, List.isEmpty_map, List.all_map]
  congr 2
  funext predicate
  exact strip_tie predicate

theorem strip_fold_table (members : List Expr) :
    foldTable? (members.map Expr.strip) = foldTable? members := by
  simp only [foldTable?, List.findSome?_map]
  congr 1
  funext member
  simp only [Function.comp_apply, strip_innermost]
  cases member.innermost <;> simp [Expr.strip]

theorem strip_window (filter : Expr) (having : Option Predicate) :
    recoverWindow filter.strip (having.map Predicate.strip) = recoverWindow filter having := by
  have window : (Predicate.interval? ∘ Predicate.strip) = Predicate.interval? :=
    funext strip_interval
  rw [recoverWindow, recoverWindow, strip_predicates, List.findSome?_map, window]
  cases having <;> simp

structure Ledger.Alike (ledger ledger' : Ledger) : Prop where
  lastId : ledger.lastId = ledger'.lastId
  reasons : ledger.dropped.map Dropped.reason = ledger'.dropped.map Dropped.reason

/-- From alike ledgers, the two actions give the same result and leave alike ledgers. -/
def Matches (action action' : Recovery α) : Prop :=
  ∀ ledger ledger' : Ledger, ledger.Alike ledger' →
    (action ledger).1 = (action' ledger').1 ∧ (action ledger).2.Alike (action' ledger').2

theorem matches_pure (value : α) : Matches (pure value) (pure value) :=
  fun _ _ alike => ⟨rfl, alike⟩

theorem matches_fresh : Matches freshId freshId := by
  intro ledger ledger' alike
  refine ⟨?_, ?_, alike.reasons⟩
  · exact congrArg (· + 1) alike.lastId
  · exact congrArg (· + 1) alike.lastId

theorem Matches.bind {first first' : Recovery α} {second second' : α → Recovery β}
    (head : Matches first first') (tail : ∀ value, Matches (second value) (second' value)) :
    Matches (first >>= second) (first' >>= second') := by
  intro ledger ledger' alike
  obtain ⟨same, alike'⟩ := head ledger ledger' alike
  have behind := tail (first ledger).1 _ _ alike'
  change (second (first ledger).1 _).1 = (second' (first' ledger').1 _).1 ∧
    (second (first ledger).1 _).2.Alike (second' (first' ledger').1 _).2
  rw [← same]
  exact behind

/-- The texts of what is dropped may differ. -/
theorem matches_drop (text text' : String) (reason : DropReason) (value : α) :
    Matches (do drop text reason; pure value) (do drop text' reason; pure value) := by
  intro ledger ledger' alike
  refine ⟨rfl, alike.lastId, ?_⟩
  change (ledger.dropped ++ [Dropped.mk text reason]).map Dropped.reason =
    (ledger'.dropped ++ [Dropped.mk text' reason]).map Dropped.reason
  rw [List.map_append, List.map_append, alike.reasons, List.map_singleton, List.map_singleton]

theorem each_matches {recover : α → Recovery (Option β)} {change : α → α} {items : List α}
    (step : ∀ item ∈ items, Matches (recover item) (recover (change item))) :
    Matches (recoverEach recover items) (recoverEach recover (items.map change)) := by
  induction items with
  | nil => exact matches_pure []
  | cons item rest ih =>
      refine (step item List.mem_cons_self).bind fun first => ?_
      exact (ih fun other found => step other (List.mem_cons_of_mem item found)).bind
        fun others => matches_pure _

theorem filter_matches (predicate : Predicate) :
    Matches (recoverFilter predicate) (recoverFilter predicate.strip) := by
  have alone (predicate : Predicate) :
      Matches (recoverFilter predicate) (recoverFilter predicate) := by
    simp only [recoverFilter]
    split
    · exact matches_fresh.bind fun id => matches_pure _
    · exact matches_fresh.bind fun id => matches_pure _
    · exact matches_drop _ _ _ _
    · split_ifs
      · exact matches_pure none
      · exact matches_drop _ _ _ _
  -- Only an unparsed predicate is not what it was, and that is dropped in both runs.
  cases predicate with
  | unparsed text => exact matches_drop text "" .unparseable none
  | _ => exact alone _

theorem nested_matches (member : Expr) :
    Matches (recoverNested member) (recoverNested member.strip) := by
  simp only [recoverNested, strip_innermost]
  cases member.innermost with
  | predicate predicate => exact filter_matches predicate
  | _ => exact matches_drop _ _ _ _

theorem filters_match (members : List Expr) :
    Matches (recoverFilters members) (recoverFilters (members.map Expr.strip)) := by
  rw [recover_filters_each, recover_filters_each]
  exact each_matches fun member _ => nested_matches member

theorem conjunct_matches (table : String) (draft : EventDraft) (conjunct : Expr) :
    Matches (addConjunct table draft conjunct) (addConjunct table draft conjunct.strip) := by
  simp only [addConjunct, strip_unwrap, strip_correlation, strip_fold, strip_fold_table]
  split_ifs
  · exact matches_pure draft
  · exact (filters_match _).bind fun filters => matches_pure _
  · exact (filters_match _).bind fun filters => matches_pure _
  · exact matches_drop _ _ _ _

theorem conjuncts_match (table : String) (draft : EventDraft) (conjuncts : List Expr) :
    Matches (addConjuncts table draft conjuncts)
      (addConjuncts table draft (conjuncts.map Expr.strip)) := by
  induction conjuncts generalizing draft with
  | nil => exact matches_pure draft
  | cons conjunct rest ih => exact (conjunct_matches table draft conjunct).bind ih

theorem count_matches (having : Option Predicate) :
    Matches (recoverCount having) (recoverCount (having.map Predicate.strip)) := by
  cases having with
  | none => exact matches_pure defaultCount
  | some predicate =>
      have threshold : countThreshold? predicate.strip = countThreshold? predicate := by
        cases predicate <;> rfl
      simp only [recoverCount, Option.map_some, threshold, strip_interval]
      split
      · exact matches_pure _
      · split_ifs
        · exact matches_pure defaultCount
        · exact matches_drop _ _ _ _

theorem joins_match (joins : List Related) :
    Matches (numberRelated joins) (numberRelated joins) := by
  induction joins with
  | nil => exact matches_pure []
  | cons related rest ih =>
      exact matches_fresh.bind fun id => ih.bind fun others => matches_pure _

theorem strip_conjuncts (expr : Expr) :
    conjunctsOf expr.strip = (conjunctsOf expr).map Expr.strip := by
  cases expr <;> simp [Expr.strip, conjunctsOf, strip_all]

theorem event_matches (query : Subquery) (whole whole' : Expr) :
    Matches (recoverEvent query whole) (recoverEvent query.strip whole') := by
  obtain ⟨table, joins, filter, groupBy, having⟩ := query
  rw [subquery_strip]
  cases filter with
  | none => exact matches_drop _ _ .unsupportedEvent none
  | some filter =>
      rw [recover_event_some rfl, recover_event_some rfl]
      refine (count_matches having).bind fun count => ?_
      rw [strip_conjuncts]
      refine (conjuncts_match table _ _).bind fun draft => ?_
      refine (joins_match draft.related).bind fun related => matches_fresh.bind fun id => ?_
      rw [strip_window]
      exact matches_pure _

theorem closed_matches (combinator : Combinator) (members : List Member) :
    Matches (closeGroup combinator members) (closeGroup combinator members) := by
  rw [closeGroup]
  split_ifs
  · exact matches_pure none
  · exact matches_fresh.bind fun id => matches_pure _

theorem members_match {items : List Expr}
    (each : ∀ item ∈ items, Matches (recoverMember item) (recoverMember item.strip)) :
    Matches (recoverMembers items) (recoverMembers (items.map Expr.strip)) := by
  rw [recover_members_each, recover_members_each]
  exact each_matches each

theorem member_matches (expr : Expr) :
    Matches (recoverMember expr) (recoverMember expr.strip) := by
  induction expr using Expr.induction with
  | and items ih =>
      rw [Expr.strip, strip_all, recoverMember, recoverMember]
      refine (members_match ih).bind fun members => ?_
      exact (closed_matches .and members).bind fun group => matches_pure _
  | or items ih =>
      rw [Expr.strip, strip_all, recoverMember, recoverMember]
      refine (members_match ih).bind fun members => ?_
      exact (closed_matches .or members).bind fun group => matches_pure _
  | grouped inner ih =>
      rw [Expr.strip, recoverMember, recoverMember]
      exact ih
  | not inner ih =>
      rw [Expr.strip, recoverMember, recoverMember]
      exact matches_drop _ _ .negation none
  | exist negated query =>
      rw [Expr.strip, recoverMember, recoverMember]
      exact (event_matches query _ _).bind fun event => matches_pure _
  | predicate predicate =>
      rw [Expr.strip, recoverMember, recoverMember]
      exact (filter_matches predicate).bind fun filter => matches_pure _

theorem group_matches (fragment : Expr) :
    Matches (recoverGroup fragment) (recoverGroup fragment.strip) := by
  simp only [recoverGroup, strip_unwrap, strip_fold]
  exact (members_match fun item _ => member_matches item).bind (closed_matches _)

theorem criteria_matches (expr : Expr) :
    Matches (recoverCriteria expr) (recoverCriteria expr.strip) := by
  simp only [recoverCriteria, strip_fold, recover_groups_each]
  exact (each_matches fun fragment _ => group_matches fragment).bind fun groups => matches_pure _

theorem outer_dataset_strip (depth : Nat) (tokens : List Token) :
    outerDataset depth (strip tokens) = outerDataset depth tokens :=
  outer_dataset_see kindView depth tokens

theorem where_body_strip (depth : Nat) (tokens : List Token) :
    whereBody depth (strip tokens) = (whereBody depth tokens).map strip :=
  where_body_see kindView depth tokens

structure Recovered.Alike (first second : Recovered) : Prop where
  criteria : first.criteria = second.criteria
  dataset : first.dataset = second.dataset
  reasons : first.dropped.map Dropped.reason = second.dropped.map Dropped.reason

theorem nothing_alike (dataset : Option String) (text text' : List Char) (reason : DropReason) :
    (nothingRecovered dataset text reason).Alike (nothingRecovered dataset text' reason) :=
  ⟨rfl, rfl, rfl⟩

theorem read_condition_alike (dataset : Option String) {expr expr' : Expr} {rest rest' : List Token}
    (same : expr.strip = expr'.strip) (same' : strip rest = strip rest') :
    (Recovered.ofCondition dataset expr rest).Alike
      (Recovered.ofCondition dataset expr' rest') := by
  have empty : (accept (.mark .semicolon) rest).2.isEmpty =
      (accept (.mark .semicolon) rest').2.isEmpty := by
    have surplus := congrArg (fun result => result.2.isEmpty) (accept_strip (.mark .semicolon) rest)
    have surplus' :=
      congrArg (fun result => result.2.isEmpty) (accept_strip (.mark .semicolon) rest')
    rw [same'] at surplus
    simpa [strip] using surplus.symm.trans surplus'
  -- Both runs go along with the one on the View.seen expression, which is the same for both.
  have whole := criteria_matches expr {} {} ⟨rfl, rfl⟩
  have whole' := criteria_matches expr' {} {} ⟨rfl, rfl⟩
  rw [same] at whole
  refine ⟨whole.1.trans whole'.1.symm, rfl, ?_⟩
  have reasons := whole.2.reasons.trans whole'.2.reasons.symm
  simp only [Recovered.ofCondition, empty, List.map_append]
  refine congrArg₂ _ ?_ reasons
  split_ifs <;> rfl

theorem recovered_alike {a b : String} (same : sameStatement a b = true) :
    (Recovered.ofStatement a).Alike (Recovered.ofStatement b) := by
  have tokens : strip (tokenize (normalizeStatement a)) = strip (tokenize (normalizeStatement b)) :=
    (strip_eq_iff _ _).mpr (beq_iff_eq.mp same)
  simp only [Recovered.ofStatement]
  generalize withoutSemicolons (normalizeStatement a) = text
  generalize withoutSemicolons (normalizeStatement b) = text'
  generalize tokenize (normalizeStatement a) = first at tokens ⊢
  generalize tokenize (normalizeStatement b) = second at tokens ⊢
  have dataset : outerDataset 0 first = outerDataset 0 second := by
    rw [← outer_dataset_strip, tokens, outer_dataset_strip]
  have body : (whereBody 0 first).map strip = (whereBody 0 second).map strip := by
    rw [← where_body_strip, tokens, where_body_strip]
  rw [dataset]
  cases found : whereBody 0 first with
  | none =>
      rw [found, Option.map_none, eq_comm, Option.map_eq_none_iff] at body
      rw [body]
      exact nothing_alike _ _ _ _
  | some inner =>
      rw [found, Option.map_some, eq_comm, Option.map_eq_some_iff] at body
      obtain ⟨inner', found', alike⟩ := body
      have read : kindView.seen Expr.strip (readExpr inner) =
          kindView.seen Expr.strip (readExpr inner') := by
        rw [← expr_strip, ← alike, expr_strip]
      rw [found']
      simp only
      cases result : readExpr inner with
      | none =>
          rw [result, seen_none, eq_comm, View.seen, Option.map_eq_none_iff] at read
          rw [read]
          exact nothing_alike _ _ _ _
      | some pair =>
          rw [result, View.seen, Option.map_some, eq_comm, View.seen, Option.map_eq_some_iff] at read
          obtain ⟨pair', result', same⟩ := read
          rw [result']
          exact read_condition_alike _ (Prod.mk.inj same).1.symm (Prod.mk.inj same).2.symm

def Session.contents (session : Session) : String × Criteria × IdSource :=
  (session.dataset, session.criteria, session.ids)

theorem apply_contents (session : Session) {typed typed' : String}
    (alike : (Recovered.ofStatement typed).Alike (Recovered.ofStatement typed')) :
    (session.apply typed).map Session.contents = (session.apply typed').map Session.contents := by
  unfold Session.apply
  generalize Recovered.ofStatement typed = first at alike ⊢
  generalize Recovered.ofStatement typed' = second at alike ⊢
  obtain ⟨criteria, dataset, _⟩ := alike
  simp only [criteria, dataset]
  cases IdSource.behind? second.criteria <;> rfl

/-- Statements that count as the same give the same tree with the same ids and the same dataset, and
as much of them is dropped for the same reasons. So a text without changes leaves a session that it
is typed into with what the session's own statement would leave it with. -/
theorem same_statements_recover_alike :
    (∀ a b : String, sameStatement a b = true →
      (Recovered.ofStatement a).Alike (Recovered.ofStatement b)) ∧
    ∀ (session : Session) (typed : String), session.hasChanges typed = false →
      (session.apply typed).map Session.contents =
        (session.apply session.statement).map Session.contents := by
  refine ⟨fun a b same => recovered_alike same, fun session typed unchanged => ?_⟩
  have same : sameStatement typed session.statement = true := by
    simpa [Session.hasChanges] using unchanged
  exact apply_contents session (recovered_alike same)

/-- A part that cannot be read, in two layouts, and an empty tree. -/
theorem unreadable_part_recovers_alike :
    let a := "select * from t where t.a = 'x' and b ! -- which\n 'y'"
    let b := "SELECT * FROM t WHERE t.a='x' AND b ! 'y'"
    let session : Session := ⟨"t", {}, {}, {}, []⟩
    let typed := "select *\nfrom t where 1 = 1 ;"
    (sameStatement a b = true ∧ (Recovered.ofStatement a).Alike (Recovered.ofStatement b)) ∧
      session.hasChanges typed = false ∧
        (session.apply typed).map Session.contents =
          (session.apply session.statement).map Session.contents := by
  intro a b session typed
  have same : sameStatement a b = true := by decide +kernel
  have unchanged : session.hasChanges typed = false := by decide +kernel
  exact ⟨⟨same, same_statements_recover_alike.1 a b same⟩, unchanged,
    same_statements_recover_alike.2 session typed unchanged⟩

end Cohort
