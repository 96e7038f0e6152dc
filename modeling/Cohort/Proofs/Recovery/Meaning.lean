import Cohort.Proofs.Recovery.NormalForm

/-!
What a condition without sub-queries says of a row, and what its tree says of it. Recovery leaves out
comparisons of a number with itself, which hold of every row. In a conjunction nothing changes by
that. A disjunction that has such a part and others holds of every row, while what is left of it may
not; apart from such disjunctions, a tree of which nothing is dropped says what the condition says.
-/

namespace Cohort

open Sql

inductive Atom where
  | equals (field text : String)
  | between (field low high : String)
  deriving DecidableEq, Repr

/-- A fold of nothing holds, as its clause does. -/
def Combinator.holds : Combinator → List Bool → Bool
  | _, [] => true
  | .and, values => values.all id
  | .or, values => values.any id

namespace Sql

def Predicate.atom? : Predicate → Option Atom
  | .compare (.column column) .eq (.string text) => some (.equals column.name text)
  | .between (.column column) (.string low) (.string high) false =>
      some (.between column.name low high)
  | _ => none

def Predicate.value? (truth : Atom → Bool) (predicate : Predicate) : Option Bool :=
  if isMatchAll predicate then some true else predicate.atom?.map truth

namespace Expr

mutual

/-- Whether the expression holds of a row of which the atoms are known; this is open where it
depends on anything else. -/
def value? (truth : Atom → Bool) : Expr → Option Bool
  | and items => (values? truth items).map (Combinator.holds .and)
  | or items => (values? truth items).map (Combinator.holds .or)
  | grouped inner => inner.value? truth
  | not inner => (inner.value? truth).map (!·)
  | exist _ _ => none
  | predicate p => p.value? truth

def values? (truth : Atom → Bool) : List Expr → Option (List Bool)
  | [] => some []
  | item :: rest => do
      let first ← item.value? truth
      let others ← values? truth rest
      some (first :: others)

end

mutual

def hasExists : Expr → Bool
  | and items => anyExists items
  | or items => anyExists items
  | grouped inner => inner.hasExists
  | not inner => inner.hasExists
  | exist _ _ => true
  | predicate _ => false

def anyExists : List Expr → Bool
  | [] => false
  | item :: rest => item.hasExists || anyExists rest

end

mutual

def isTrivial : Expr → Bool
  | and items => allTrivial items
  | or items => allTrivial items
  | grouped inner => inner.isTrivial
  | not _ => false
  | exist _ _ => false
  | predicate p => isMatchAll p

def allTrivial : List Expr → Bool
  | [] => true
  | item :: rest => item.isTrivial && allTrivial rest

end

mutual

/-- No disjunction has trivial items beside others. -/
def isUnmixed : Expr → Bool
  | and items => allUnmixed items
  | or items => (allTrivial items || items.all (!·.isTrivial)) && allUnmixed items
  | grouped inner => inner.isUnmixed
  | not inner => inner.isUnmixed
  | exist _ _ => true
  | predicate _ => true

def allUnmixed : List Expr → Bool
  | [] => true
  | item :: rest => item.isUnmixed && allUnmixed rest

end

theorem any_exists {items : List Expr} :
    anyExists items = false ↔ ∀ item ∈ items, item.hasExists = false := by
  induction items with
  | nil => simp [anyExists]
  | cons item rest ih => simp [anyExists, ih]

theorem all_unmixed {items : List Expr} :
    allUnmixed items = true ↔ ∀ item ∈ items, item.isUnmixed = true := by
  induction items with
  | nil => simp [allUnmixed]
  | cons item rest ih => simp [allUnmixed, ih]

end Expr

end Sql

def Filter.atom? (filter : Filter) : Option Atom :=
  match filter.operator, filter.value, filter.value2 with
  | .equals, .string text, _ => some (.equals filter.field text)
  | .between, .string low, some (.string high) => some (.between filter.field low high)
  | _, _, _ => none

section Values

variable (truth : Atom → Bool)

def Filter.value? (filter : Filter) : Option Bool :=
  filter.atom?.map truth

def Condition.value? : Condition → Option Bool
  | .filter f => f.value? truth
  | .event _ => none

mutual

def Member.value? : Member → Option Bool
  | .condition c => c.value? truth
  | .group g => g.value?

def Group.value? : Group → Option Bool
  | ⟨_, combinator, members⟩ => (Member.values? members).map combinator.holds

def Member.values? : List Member → Option (List Bool)
  | [] => some []
  | member :: rest => do
      let first ← member.value?
      let others ← Member.values? rest
      some (first :: others)

end

def Criteria.value? (criteria : Criteria) : Option Bool := do
  let conditions ← criteria.conditions.mapM (Condition.value? truth)
  let groups ← criteria.groups.mapM (Group.value? truth)
  some (criteria.combinator.holds (conditions ++ groups))

end Values

theorem expr_values (truth : Atom → Bool) (items : List Expr) :
    Expr.values? truth items = items.mapM (Expr.value? truth) := by
  induction items with
  | nil => rfl
  | cons item rest ih => simp [Expr.values?, ih, List.mapM_cons]

theorem member_values (truth : Atom → Bool) (members : List Member) :
    Member.values? truth members = members.mapM (Member.value? truth) := by
  induction members with
  | nil => rfl
  | cons member rest ih => simp [Member.values?, ih, List.mapM_cons]

/-- The part that came back has the value of the expression; nothing came back of what is
trivial. -/
def Agrees {α : Type} (truth : Atom → Bool) (value? : α → Option Bool) (expr : Expr) :
    Option α → Prop
  | some part => expr.isTrivial = false ∧
      ∃ value, expr.value? truth = some value ∧ value? part = some value
  | none => expr.isTrivial = true ∧ expr.value? truth = some true

theorem holds_true (combinator : Combinator) {values : List Bool} (all : ∀ v ∈ values, v = true) :
    combinator.holds values = true := by
  match values with
  | [] => cases combinator <;> rfl
  | first :: rest =>
      obtain rfl := all first List.mem_cons_self
      cases combinator with
      | and => simpa [Combinator.holds] using fun v member => all v (List.mem_cons_of_mem _ member)
      | or => simp [Combinator.holds]

theorem conjunction_holds (values : List Bool) : Combinator.and.holds values = values.all id := by
  cases values <;> rfl

section Folds

variable {α : Type} {truth : Atom → Bool} {value? : α → Option Bool} {items : List Expr}
  {backs : List (Option α)}

/-- What comes back has the values of the items, less some that are true. -/
theorem agreed_values (agree : List.Forall₂ (Agrees truth value?) items backs) :
    ∃ values kept, items.mapM (Expr.value? truth) = some values ∧
      backs.reduceOption.mapM value? = some kept ∧
      values.all id = kept.all id ∧
      (items.all (!·.isTrivial) = true → kept = values) ∧
      (Expr.allTrivial items = true ↔ backs.reduceOption = []) := by
  induction agree with
  | nil => exact ⟨[], [], rfl, rfl, rfl, fun _ => rfl, by simp [Expr.allTrivial]⟩
  | @cons item back items backs first _ ih =>
      obtain ⟨values, kept, read, read', conjunction, whole, trivial_⟩ := ih
      cases back with
      | none =>
          -- What does not come back holds, so a conjunction is the same without it.
          obtain ⟨dull, holds⟩ := first
          refine ⟨true :: values, kept, ?_, ?_, ?_, ?_, ?_⟩
          · simp [List.mapM_cons, holds, read]
          · simpa [List.reduceOption_cons_of_none] using read'
          · simpa using conjunction
          · simp [dull]
          · simpa [List.reduceOption_cons_of_none, Expr.allTrivial, dull] using trivial_
      | some part =>
          obtain ⟨other, value, here, here'⟩ := first
          refine ⟨value :: values, value :: kept, ?_, ?_, ?_, ?_, ?_⟩
          · simp [List.mapM_cons, here, read]
          · simp [List.reduceOption_cons_of_some, List.mapM_cons, here', read']
          · simp only [List.all_cons, conjunction]
          · intro each
            simp only [List.all_cons, Bool.and_eq_true] at each
            rw [whole each.2]
          · simp [List.reduceOption_cons_of_some, Expr.allTrivial, other]

def Unmixed (combinator : Combinator) (items : List Expr) : Prop :=
  combinator = .or → Expr.allTrivial items = true ∨ items.all (!·.isTrivial) = true

theorem agreed_fold (agree : List.Forall₂ (Agrees truth value?) items backs) {combinator : Combinator}
    (unmixed : Unmixed combinator items) :
    ∃ value, (items.mapM (Expr.value? truth)).map combinator.holds = some value ∧
      (backs.reduceOption.mapM value?).map combinator.holds = some value ∧
      (Expr.allTrivial items = true ↔ backs.reduceOption = []) ∧
      (Expr.allTrivial items = true → value = true) := by
  obtain ⟨values, kept, read, read', conjunction, whole, trivial_⟩ := agreed_values agree
  have hold : Expr.allTrivial items = true → ∀ c : Combinator, c.holds values = true := by
    intro dull c
    have none_ : kept = [] := by simpa [trivial_.mp dull] using read'.symm
    rw [none_] at conjunction
    exact holds_true c (by simpa using conjunction)
  refine ⟨combinator.holds values, by rw [read]; rfl, ?_, trivial_, fun dull => hold dull _⟩
  rw [read', Option.map_some, Option.some.injEq]
  cases combinator with
  | and => rw [conjunction_holds, conjunction_holds, conjunction]
  | or =>
      -- Either nothing of it comes back, or all of it does.
      rcases unmixed rfl with dull | each
      · have none_ : kept = [] := by simpa [trivial_.mp dull] using read'.symm
        rw [hold dull, none_]
        rfl
      · rw [whole each]

/-- The parts of an expression that recovery splits it into. -/
theorem split_meaning (truth : Atom → Bool) {expr : Expr} (unmixed : expr.isUnmixed = true)
    (closed : expr.hasExists = false) :
    expr.value? truth =
        ((splitFold expr).2.mapM (Expr.value? truth)).map (splitFold expr).1.holds ∧
      expr.isTrivial = Expr.allTrivial (splitFold expr).2 ∧
      Unmixed (splitFold expr).1 (splitFold expr).2 ∧
      ∀ item ∈ (splitFold expr).2, item.isUnmixed = true ∧ item.hasExists = false := by
  fun_cases splitFold expr with
  | case1 items =>
      refine ⟨by rw [Expr.value?, expr_values], rfl, by simp [Unmixed], fun item found => ?_⟩
      exact ⟨Expr.all_unmixed.mp unmixed item found, Expr.any_exists.mp closed item found⟩
  | case2 items =>
      obtain ⟨apart, each⟩ := (Bool.and_eq_true _ _).mp unmixed
      refine ⟨by rw [Expr.value?, expr_values], rfl, fun _ => ?_, fun item found => ?_⟩
      · exact (Bool.or_eq_true _ _).mp apart
      · exact ⟨Expr.all_unmixed.mp each item found, Expr.any_exists.mp closed item found⟩
  | case3 =>
      refine ⟨?_, by simp [Expr.allTrivial], by simp [Unmixed], by simpa using ⟨unmixed, closed⟩⟩
      simp only [List.mapM_cons, List.mapM_nil, Option.bind_eq_bind, Option.pure_def]
      cases found : expr.value? truth with
      | none => rfl
      | some value => simp [Combinator.holds]

end Folds

section Meaning

variable (truth : Atom → Bool)

theorem predicate_agrees (predicate : Predicate) :
    Keeps (recoverFilter predicate) (Agrees truth (Filter.value? truth) (.predicate predicate)) := by
  simp only [recoverFilter]
  split
  · exact keeps_fresh.bind fun id => keeps_pure fun _ => ⟨rfl, _, rfl, rfl⟩
  · exact keeps_fresh.bind fun id => keeps_pure fun _ => ⟨rfl, _, rfl, rfl⟩
  · exact keeps_drop _ _ none
  · next other _ _ _ =>
      split_ifs with same
      · exact keeps_pure ⟨same, by simp [Expr.value?, Predicate.value?, same]⟩
      · exact keeps_drop _ _ none

variable {truth} in
/-- A group of what comes back of the items has the value of their fold. -/
theorem group_agrees {expr : Expr} {combinator : Combinator} {items : List Expr}
    (value : expr.value? truth = (items.mapM (Expr.value? truth)).map combinator.holds)
    (dull : expr.isTrivial = Expr.allTrivial items) (unmixed : Unmixed combinator items)
    (each : ∀ item ∈ items, Keeps (recoverMember item) (Agrees truth (Member.value? truth) item)) :
    Keeps (do closeGroup combinator (← recoverMembers items))
      (Agrees truth (Group.value? truth) expr) := by
  rw [recover_members_each]
  refine (each_keeps each).bind fun members => ?_
  rw [closeGroup]
  split_ifs with none_
  · refine keeps_pure ?_
    rintro ⟨backs, agree, rfl⟩
    obtain ⟨_, whole, _, trivial_, hold⟩ := agreed_fold agree unmixed
    have all := trivial_.mpr (by simpa using none_)
    exact ⟨dull.trans all, by rw [value, whole, hold all]⟩
  · refine keeps_fresh.bind fun id => keeps_pure ?_
    rintro - ⟨backs, agree, rfl⟩
    obtain ⟨result, whole, kept, trivial_, _⟩ := agreed_fold agree unmixed
    refine ⟨?_, result, value.trans whole, ?_⟩
    · rw [dull, Bool.eq_false_iff]
      exact fun all => none_ (by simpa using trivial_.mp all)
    · rw [Group.value?, member_values, kept]

variable {truth} in
theorem agrees_group {expr : Expr} {back : Option Group}
    (agree : Agrees truth (Group.value? truth) expr back) :
    Agrees truth (Member.value? truth) expr (back.map .group) := by
  cases back <;> exact agree

theorem member_agrees (expr : Expr) (unmixed : expr.isUnmixed = true)
    (closed : expr.hasExists = false) :
    Keeps (recoverMember expr) (Agrees truth (Member.value? truth) expr) := by
  induction expr using Expr.induction with
  | and items ih =>
      obtain ⟨value, dull, apart, each⟩ := split_meaning truth unmixed closed
      rw [recoverMember, ← bind_assoc]
      exact (group_agrees value dull apart fun item found =>
        ih item found (each item found).1 (each item found).2).bind fun back =>
          keeps_pure agrees_group
  | or items ih =>
      obtain ⟨value, dull, apart, each⟩ := split_meaning truth unmixed closed
      rw [recoverMember, ← bind_assoc]
      exact (group_agrees value dull apart fun item found =>
        ih item found (each item found).1 (each item found).2).bind fun back =>
          keeps_pure agrees_group
  | grouped inner ih =>
      rw [recoverMember]
      exact (ih unmixed closed).weaken fun back agree => by cases back <;> exact agree
  | not inner ih =>
      rw [recoverMember]
      exact keeps_drop _ _ none
  | exist negated query => simp [Expr.hasExists] at closed
  | predicate predicate =>
      rw [recoverMember]
      refine (predicate_agrees truth predicate).bind fun back => keeps_pure fun agree => ?_
      cases back <;> exact agree

theorem fragment_agrees (fragment : Expr) (unmixed : fragment.isUnmixed = true)
    (closed : fragment.hasExists = false) :
    Keeps (recoverGroup fragment) (Agrees truth (Group.value? truth) fragment) := by
  have same : ∀ back, Agrees truth (Group.value? truth) fragment.unwrap back →
      Agrees truth (Group.value? truth) fragment back := by
    intro back agree
    cases fragment <;> cases back <;> exact agree
  have inner : fragment.unwrap.isUnmixed = true ∧ fragment.unwrap.hasExists = false := by
    cases fragment <;> exact ⟨unmixed, closed⟩
  obtain ⟨value, dull, apart, each⟩ := split_meaning truth inner.1 inner.2
  exact (group_agrees value dull apart fun item found =>
    member_agrees truth item (each item found).1 (each item found).2).weaken same

theorem criteria_agrees {expr : Expr} (unmixed : expr.isUnmixed = true)
    (closed : expr.hasExists = false) :
    Keeps (recoverCriteria expr) fun criteria =>
      ∃ value, expr.value? truth = some value ∧ criteria.value? truth = some value := by
  obtain ⟨value, dull, apart, each⟩ := split_meaning truth unmixed closed
  simp only [recoverCriteria, recover_groups_each]
  refine (each_keeps fun fragment found =>
    fragment_agrees truth fragment (each fragment found).1 (each fragment found).2).bind
      fun groups => keeps_pure ?_
  rintro ⟨backs, agree, rfl⟩
  obtain ⟨result, whole, kept, _⟩ := agreed_fold agree apart
  refine ⟨result, value.trans whole, ?_⟩
  obtain ⟨values, read, held⟩ := Option.map_eq_some_iff.mp kept
  simp [Criteria.value?, read, held]

end Meaning

/-- A statement of which nothing is dropped means what its tree means, if it has no sub-query and no
disjunction of comparisons of numbers with themselves and other conditions. -/
theorem kept_meaning {sql : String} (closed : ∀ expr ∈ condition? sql, expr.hasExists = false)
    (unmixed : ∀ expr ∈ condition? sql, expr.isUnmixed = true)
    (kept : (Recovered.ofStatement sql).dropped = []) (truth : Atom → Bool) :
    ∃ expr value, condition? sql = some expr ∧ expr.value? truth = some value ∧
      (Recovered.ofStatement sql).criteria.value? truth = some value := by
  obtain ⟨expr, found, value, same⟩ := kept_condition kept fun expr found =>
    criteria_agrees truth (unmixed expr found) (closed expr found)
  exact ⟨expr, value, found, same⟩

def conjunctionStatement : String :=
  "SELECT * FROM t WHERE 1=1 AND (t.a='x' OR b BETWEEN '1' AND '2')"

theorem conjunction_meaning_kept :
    let truth (atom : Atom) : Bool := atom = .between "b" "1" "2"
    ∃ expr value, condition? conjunctionStatement = some expr ∧ expr.value? truth = some value ∧
      (Recovered.ofStatement conjunctionStatement).criteria.value? truth = some value := by
  intro truth
  obtain ⟨closed, unmixed⟩ :
      (∀ expr ∈ condition? conjunctionStatement, expr.hasExists = false) ∧
        ∀ expr ∈ condition? conjunctionStatement, expr.isUnmixed = true := by
    rw [condition?, tokenize_normalized]
    decide +kernel
  have kept : (Recovered.ofStatement conjunctionStatement).dropped = [] := by
    rw [Recovered.ofStatement, tokenize_normalized]
    decide +kernel
  exact kept_meaning closed unmixed kept truth

def disjunctionStatement : String :=
  "SELECT * FROM t WHERE 1 = 1 OR t.a = 'x'"

/-- The condition holds of every row and nothing is dropped, but the tree does not hold of every
row. -/
theorem disjunction_meaning_lost :
    (∀ expr ∈ condition? disjunctionStatement, expr.hasExists = false) ∧
      (Recovered.ofStatement disjunctionStatement).dropped = [] ∧
      (condition? disjunctionStatement).bind (Expr.value? fun _ => false) = some true ∧
      (Recovered.ofStatement disjunctionStatement).criteria.value? (fun _ => false) =
        some false := by
  rw [condition?, Recovered.ofStatement, tokenize_normalized]
  decide +kernel

end Cohort
