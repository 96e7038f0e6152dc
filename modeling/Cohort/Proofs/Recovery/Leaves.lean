import Cohort.Proofs.Recovery.Meaning

/-!
What becomes of the parts of a condition without sub-queries. Its leaves are the outermost negations
and the predicates outside of them. Read from left to right, each of them is a filter of the tree, is
reported, or compares a number with itself; the tree and the report hold nothing else.
-/

namespace Cohort

open Sql

variable {α β γ : Type}

def Atom.filter : Atom → Filter
  | .equals field text => ⟨0, field, .equals, .string text, none⟩
  | .between field low high => ⟨0, field, .between, .string low, some (.string high)⟩

namespace Sql.Expr

mutual

/-- The outermost negations and the predicates outside of them, from left to right. -/
def leaves : Expr → List Expr
  | and items => leavesOf items
  | or items => leavesOf items
  | grouped inner => inner.leaves
  | not inner => [not inner]
  | exist _ _ => []
  | predicate p => [predicate p]

def leavesOf : List Expr → List Expr
  | [] => []
  | item :: rest => item.leaves ++ leavesOf rest

end

def atom? : Expr → Option Atom
  | predicate p => p.atom?
  | _ => none

def dropReason? : Expr → Option DropReason
  | not _ => some .negation
  | predicate (.unparsed _) => some .unparseable
  | predicate p => if p.atom?.isSome || isMatchAll p then none else some .unsupportedPredicate
  | _ => none

def kept? (leaf : Expr) : Option Condition :=
  leaf.atom?.map fun atom => .filter atom.filter

def report? (leaf : Expr) : Option Dropped :=
  leaf.dropReason?.map fun reason => ⟨leaf.print, reason⟩

def kept (expr : Expr) : List Condition :=
  expr.leaves.filterMap kept?

def reports (expr : Expr) : List Dropped :=
  expr.leaves.filterMap report?

theorem leaves_of_items (items : List Expr) : leavesOf items = items.flatMap leaves := by
  induction items with
  | nil => rfl
  | cons item rest ih => rw [leavesOf, ih, List.flatMap_cons]

/-- The leaves of the parts that recovery splits an expression into. -/
theorem leaves_split (expr : Expr) : expr.leaves = (splitFold expr).2.flatMap leaves := by
  fun_cases splitFold expr with
  | case1 items => exact leaves_of_items items
  | case2 items => exact leaves_of_items items
  | case3 => simp

theorem kept_split (expr : Expr) : expr.kept = (splitFold expr).2.flatMap kept := by
  rw [kept, leaves_split, List.filterMap_flatMap]
  rfl

theorem reports_split (expr : Expr) : expr.reports = (splitFold expr).2.flatMap reports := by
  rw [reports, leaves_split, List.filterMap_flatMap]
  rfl

theorem kept_predicate (p : Predicate) : (predicate p).kept = (predicate p).kept?.toList := by
  simp only [kept, leaves, List.filterMap_cons, List.filterMap_nil]
  cases (predicate p).kept? <;> rfl

theorem reports_predicate (p : Predicate) :
    (predicate p).reports = (predicate p).report?.toList := by
  simp only [reports, leaves, List.filterMap_cons, List.filterMap_nil]
  cases (predicate p).report? <;> rfl

end Sql.Expr

/-- The action drops exactly `lost`, and its result meets `post`. -/
def Reports (action : Recovery α) (lost : List Dropped) (post : α → Prop) : Prop :=
  ∀ ledger : Ledger, (action ledger).2.dropped = ledger.dropped ++ lost ∧ post (action ledger).1

theorem Gives.reports {action : Recovery α} {post : α → Prop} (gives : Gives action post) :
    Reports action [] post :=
  fun ledger => ⟨by simpa using (gives ledger).1, (gives ledger).2⟩

theorem reports_pure {value : α} {post : α → Prop} (holds : post value) :
    Reports (pure value) [] post :=
  (gives_pure holds).reports

theorem reports_drop (text : String) (reason : DropReason) {value : α} {post : α → Prop}
    (holds : post value) : Reports (do drop text reason; pure value) [⟨text, reason⟩] post :=
  fun _ => ⟨rfl, holds⟩

theorem Reports.bind {first : Recovery α} {second : α → Recovery β} {lost lost' : List Dropped}
    {middle : α → Prop} {post : β → Prop} (head : Reports first lost middle)
    (tail : ∀ value, middle value → Reports (second value) lost' post) :
    Reports (first >>= second) (lost ++ lost') post := by
  intro ledger
  obtain ⟨dropped, holds⟩ := head ledger
  obtain ⟨dropped', holds'⟩ := tail _ holds (first ledger).2
  refine ⟨?_, holds'⟩
  rw [← List.append_assoc, ← dropped]
  exact dropped'

/-- An action that drops nothing, behind one that drops. -/
theorem Reports.then {first : Recovery α} {second : α → Recovery β} {lost : List Dropped}
    {middle : α → Prop} {post : β → Prop} (head : Reports first lost middle)
    (tail : ∀ value, middle value → Gives (second value) post) :
    Reports (first >>= second) lost post := by
  have whole := head.bind fun value holds => (tail value holds).reports
  rwa [List.append_nil] at whole

/-- What comes back of the items one by one comes back of the list, and as much is dropped. -/
theorem each_reports {recover : α → Recovery (Option β)} {parts : β → List γ}
    {lost : α → List Dropped} {kept : α → List γ} {items : List α}
    (step : ∀ item ∈ items,
      Reports (recover item) (lost item) fun back => back.toList.flatMap parts = kept item) :
    Reports (recoverEach recover items) (items.flatMap lost) fun found =>
      found.flatMap parts = items.flatMap kept := by
  induction items with
  | nil => exact reports_pure rfl
  | cons item rest ih =>
      rw [List.flatMap_cons]
      refine (step item List.mem_cons_self).bind fun back first => ?_
      refine (ih fun other found => step other (List.mem_cons_of_mem item found)).then
        fun others rest => gives_pure ?_
      rw [List.flatMap_append, first, rest, List.flatMap_cons]

def Member.bare (member : Member) : List Condition :=
  member.leaves.map Condition.withoutIds

def Group.bare (group : Group) : List Condition :=
  group.leaves.map Condition.withoutIds

theorem predicate_reported (predicate : Predicate) :
    Reports (recoverFilter predicate) (Expr.predicate predicate).reports fun back =>
      back.toList.map (fun filter => .filter filter.withoutId) = (Expr.predicate predicate).kept := by
  simp only [recoverFilter]
  split
  · refine Gives.reports ?_
    exact gives_fresh.bind fun id _ => gives_pure rfl
  · refine Gives.reports ?_
    exact gives_fresh.bind fun id _ => gives_pure rfl
  · exact reports_drop _ _ rfl
  · next apart between unparsed =>
      -- The two forms that come back and the unparsed texts are the cases before.
      have none_ : predicate.atom? = none := by
        unfold Predicate.atom?
        split
        · exact absurd rfl (apart _ _)
        · exact absurd rfl (between _ _ _)
        · rfl
      have reason : (Expr.predicate predicate).dropReason? =
          if isMatchAll predicate then none else some .unsupportedPredicate := by
        unfold Expr.dropReason?
        split <;> simp_all
      rw [Expr.kept_predicate, Expr.reports_predicate, Expr.kept?, Expr.atom?, none_, Expr.report?,
        reason]
      split_ifs
      · exact reports_pure rfl
      · exact reports_drop _ _ rfl

/-- A group that would have no members has no conditions either. -/
theorem closed_leaves (combinator : Combinator) (members : List Member) :
    Gives (closeGroup combinator members) fun back =>
      back.toList.flatMap Group.leaves = Member.leavesOf members := by
  simp only [closeGroup]
  split_ifs with none_
  · obtain rfl := List.isEmpty_iff.mp none_
    exact gives_pure rfl
  · exact gives_fresh.bind fun id _ => gives_pure (by simp [Group.leaves])

section Members

variable {items : List Expr}

theorem members_reported (each : ∀ item ∈ items, Reports (recoverMember item) item.reports
      fun back => back.toList.flatMap Member.bare = item.kept) :
    Reports (recoverMembers items) (items.flatMap Expr.reports) fun found =>
      (Member.leavesOf found).map Condition.withoutIds = items.flatMap Expr.kept := by
  rw [recover_members_each]
  simp only [member_leaves_of, List.map_flatMap]
  exact each_reports each

theorem fold_reported (combinator : Combinator) (each : ∀ item ∈ items,
      Reports (recoverMember item) item.reports fun back =>
        back.toList.flatMap Member.bare = item.kept) :
    Reports (do closeGroup combinator (← recoverMembers items)) (items.flatMap Expr.reports)
      fun back => back.toList.flatMap Group.bare = items.flatMap Expr.kept := by
  refine (members_reported each).then fun members whole => ?_
  refine (closed_leaves combinator members).weaken fun group closed => ?_
  rw [← whole, ← closed, List.map_flatMap]
  rfl

theorem folded_reported (combinator : Combinator) (each : ∀ item ∈ items,
      Reports (recoverMember item) item.reports fun back =>
        back.toList.flatMap Member.bare = item.kept) :
    Reports (do
      let group ← closeGroup combinator (← recoverMembers items)
      pure (group.map Member.group)) (items.flatMap Expr.reports) fun back =>
        back.toList.flatMap Member.bare = items.flatMap Expr.kept := by
  rw [← bind_assoc]
  refine (fold_reported combinator each).then fun group whole => gives_pure ?_
  rw [← whole]
  cases group <;> rfl

/-- A member has the conditions of the recovered leaves, and the other leaves are reported. -/
theorem member_reported (expr : Expr) (closed : expr.hasExists = false) :
    Reports (recoverMember expr) expr.reports fun back =>
      back.toList.flatMap Member.bare = expr.kept := by
  induction expr using Expr.induction with
  | and items ih =>
      rw [recoverMember, Expr.kept_split, Expr.reports_split]
      exact folded_reported .and fun item found => ih item found (Expr.any_exists.mp closed item found)
  | or items ih =>
      rw [recoverMember, Expr.kept_split, Expr.reports_split]
      exact folded_reported .or fun item found => ih item found (Expr.any_exists.mp closed item found)
  | grouped inner ih =>
      rw [recoverMember]
      exact ih closed
  | not inner ih =>
      rw [recoverMember]
      exact reports_drop _ _ rfl
  | exist negated query => cases closed
  | predicate predicate =>
      rw [recoverMember]
      refine (predicate_reported predicate).then fun filter whole => gives_pure ?_
      rw [← whole]
      cases filter <;> rfl

/-- The parts of an expression without sub-queries have none either. -/
theorem split_closed {expr : Expr} (closed : expr.hasExists = false) :
    ∀ item ∈ (splitFold expr).2, item.hasExists = false := by
  fun_cases splitFold expr with
  | case1 items => exact Expr.any_exists.mp closed
  | case2 items => exact Expr.any_exists.mp closed
  | case3 => simpa using closed

theorem group_reported (fragment : Expr) (closed : fragment.hasExists = false) :
    Reports (recoverGroup fragment) fragment.reports fun back =>
      back.toList.flatMap Group.bare = fragment.kept := by
  have kept : fragment.kept = fragment.unwrap.kept := by cases fragment <;> rfl
  have reports : fragment.reports = fragment.unwrap.reports := by cases fragment <;> rfl
  have within : fragment.unwrap.hasExists = false := by cases fragment <;> exact closed
  rw [kept, reports, Expr.kept_split, Expr.reports_split]
  exact fold_reported _ fun item found => member_reported item (split_closed within item found)

theorem criteria_reported {expr : Expr} (closed : expr.hasExists = false) :
    Reports (recoverCriteria expr) expr.reports fun criteria =>
      criteria.leaves.map Condition.withoutIds = expr.kept := by
  have groups := each_reports fun fragment found =>
    group_reported fragment (split_closed closed fragment found)
  rw [← recover_groups_each] at groups
  rw [Expr.kept_split, Expr.reports_split]
  refine groups.then fun found whole => gives_pure ?_
  rw [← whole, Criteria.leaves, List.nil_append, List.map_flatMap]
  rfl

end Members

/-- Every leaf of a condition without sub-queries is accounted for once and in order. The filters of
the tree are the equalities with a text and the ranges between two texts; the report has the other
leaves, apart from comparisons of a number with itself, behind what is left over of the statement. -/
theorem leaves_accounted {sql : String} {expr : Expr} (found : condition? sql = some expr)
    (closed : expr.hasExists = false) :
    (Recovered.ofStatement sql).criteria.leaves.map Condition.withoutIds = expr.kept ∧
      ∃ trailing, (Recovered.ofStatement sql).dropped = trailing ++ expr.reports ∧
        (trailing = [] ∨ ∃ text, trailing = [⟨text, .trailingInput⟩]) := by
  obtain ⟨⟨_, rest⟩, read, rfl⟩ := Option.map_eq_some_iff.mp found
  obtain ⟨body, framed, read⟩ := Option.bind_eq_some_iff.mp read
  obtain ⟨dropped, leaves⟩ := criteria_reported closed {}
  simp only [Recovered.ofStatement, framed, read]
  refine ⟨leaves, _, congrArg _ dropped, ?_⟩
  split_ifs
  · exact .inl rfl
  · exact .inr ⟨_, rfl⟩

def scattered : String :=
  "SELECT * FROM t WHERE (a = 'x' AND (b > 2 OR ((NOT (c = 'y' AND d = 'z'))))) OR 1 = 1 OR " ++
    "((e BETWEEN '1' AND '2' OR (f ! g AND (1 = 1))) AND a = 'x') ) h = 'w'"

theorem scattered_leaves_accounted : ∃ expr, condition? scattered = some expr ∧
    expr.hasExists = false ∧
    expr.reports = [⟨"b > 2", .unsupportedPredicate⟩, ⟨"NOT (c = 'y' AND d = 'z')", .negation⟩,
      ⟨"f ! g", .unparseable⟩] ∧
    (Recovered.ofStatement scattered).criteria.leaves.map Condition.withoutIds = expr.kept ∧
    ∃ trailing, (Recovered.ofStatement scattered).dropped = trailing ++ expr.reports ∧
      (trailing = [] ∨ ∃ text, trailing = [⟨text, .trailingInput⟩]) := by
  have read : (condition? scattered).map (fun expr => (expr.hasExists, expr.reports)) =
      some (false, [⟨"b > 2", .unsupportedPredicate⟩, ⟨"NOT (c = 'y' AND d = 'z')", .negation⟩,
        ⟨"f ! g", .unparseable⟩]) := by
    rw [condition?, tokenize_normalized]
    decide +kernel
  obtain ⟨expr, found, parts⟩ := Option.map_eq_some_iff.mp read
  obtain ⟨closed, reports⟩ := Prod.mk.inj parts
  exact ⟨expr, found, closed, reports, leaves_accounted found closed⟩

end Cohort
