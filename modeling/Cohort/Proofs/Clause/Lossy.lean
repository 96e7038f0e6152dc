import Cohort.Proofs.Clause.Event
import Cohort.Proofs.Sql.Fragments

/-!
What is read of the clauses of filters of every kind. A number with an exponent is not read back,
and what is no amount of time is not read as one. The clause is then an unparsed fragment as a
whole, or starts with one; its parentheses, and all that stands outside them, are read as ever.
-/

namespace Cohort

open Sql
open Json (Value)

def Sql.Expr.StartsUnparsed (expr : Expr) : Prop :=
  ∃ text rest, expr.predicates = .unparsed text :: rest

theorem written_fragment {ks : List TokenKind} (written : ∀ kind ∈ ks, isWritten kind = true) :
    fragmentLevel 0 ks = some 0 := by
  induction ks with
  | nil => rfl
  | cons kind ks ih =>
      have first := written kind List.mem_cons_self
      have others := ih fun other member => written other (List.mem_cons_of_mem kind member)
      fun_cases isWritten kind <;> simp_all [isWritten, fragmentLevel, endsFragment]

theorem written_plain {kind : TokenKind} (written : isWritten kind = true) :
    opensLevel kind = false := by
  fun_cases isWritten kind <;> first | rfl | simp_all [isWritten]

/-- Of a value with an exponent, what stands in front of the exponent is read. -/
theorem exponent_written {value : Value} (exponent : ¬ value.NoExponent) :
    ∃ kind ks rest digits,
      Writes (renderValue value) (kind :: ks ++ .identifier "e" :: rest) ∧
      (∀ other ∈ kind :: ks ++ .identifier "e" :: rest, isWritten other = true) ∧
      ∀ room, Reads (readOperand room) (kind :: ks) (.number digits) endsSum := by
  cases value with
  | number n =>
      have letter : 'e' ∈ n.print.toList := by simpa [Value.NoExponent] using exponent
      obtain ⟨front, digits, mark, digits', signed, marks, writes⟩ := writes_exponent letter
      have read : ∀ {ks : List TokenKind} {value : Operand},
          (∀ args, Reads (readTerm args) ks value anyKind) →
            ∀ room, Reads (readOperand room) ks value endsSum := fun term room =>
        reads_operand_before ((reads_term_within term room).weaken fun _ _ => rfl) fun _ ends => ends
      rcases signed with rfl | rfl
      · exact ⟨.number digits, [], _, digits, writes,
          by rcases marks with rfl | rfl <;> simp [isWritten],
          read fun args => reads_term_number args digits⟩
      · exact ⟨.mark .minus, [.number digits], _, "-" ++ digits, writes,
          by rcases marks with rfl | rfl <;> simp [isWritten],
          read fun args => reads_term_negative args digits⟩
  | _ => exact absurd trivial exponent

/-- Any value alone is a condition or a fragment. -/
theorem value_condition_as (value : Value) :
    ∃ ks, Writes (renderValue value) ks ∧ (∀ other ∈ ks, isWritten other = true) ∧
      ∀ room, ReadsAs (always (recovering (readCondition room))) ks (fun _ => True)
        endsFragment := by
  by_cases plain : value.NoExponent
  · obtain ⟨kind, ks, writes, written, reads⟩ := value_denotes plain
    refine ⟨_, writes, written, fun room => ?_⟩
    have opens := written_plain (written kind List.mem_cons_self)
    have bare := reads_condition_predicate opens (reads_bare (reads room))
    exact (recovering_as bare.as).weaken fun _ _ => trivial
  · obtain ⟨kind, ks, rest, digits, writes, written, reads⟩ := exponent_written plain
    refine ⟨_, writes, written, fun room => ?_⟩
    have opens := written_plain (written kind (by simp))
    have refuses := refuses_condition opens (refuses_bare (reads room) "e" rfl rest)
    exact (unparsed_as refuses (written_fragment written)).weaken
      fun _ _ => trivial

/-! ### Items that are not read back -/

/-- In its parentheses, the text is refused, however many levels are left. -/
def Refused (text : String) : Prop :=
  ∃ ks, Writes text ks ∧ Nested 0 ks ∧ ks ≠ [] ∧
    ∀ room, Refuses (readCondition (room + 1)) (.mark .lparen :: (ks ++ [.mark .rparen]))

theorem Refused.item {text : String} (refused : Refused text) :
    DenotesItem 1 text Expr.StartsUnparsed := by
  obtain ⟨ks, writes, nested, some_, refuses⟩ := refused
  refine ⟨ks, writes, nested.within (Nat.zero_le 1), some_, fun room _ => ?_⟩
  refine (unparsed_as (refuses room) (fragment_around nested)).weaken ?_
  rintro expr ⟨text, rfl⟩
  exact ⟨text, [], rfl⟩

section Items

variable {text : String} {kind : TokenKind} {ks : List TokenKind}

theorem surplus_refused {name : String} {rest : List TokenKind} {predicate : Predicate}
    (writes : Writes text (kind :: ks ++ .identifier name :: rest))
    (nested : Nested 0 (kind :: ks ++ .identifier name :: rest)) (plain : opensLevel kind = false)
    (reads : ∀ room, Reads (readPredicate (readOperand room)) (kind :: ks) predicate endsSum) :
    Refused text := by
  refine ⟨_, writes, nested, by simp, fun room => ?_⟩
  have condition := recovering_as (reads_condition_predicate plain (reads room)).as
  have inner := disjunction_single_as rfl (conjunction_single_as rfl condition)
  have refuses := refuses_grouped inner (.identifier name) rfl (by simp) (rest ++ [.mark .rparen])
  have shape : kind :: ks ++ .identifier name :: rest ++ [.mark .rparen] =
      kind :: ks ++ .identifier name :: (rest ++ [.mark .rparen]) := by simp
  rwa [shape]

theorem unread_whole (writes : Writes text (kind :: ks)) (nested : Nested 1 (kind :: ks))
    (plain : opensLevel kind = false) (level : fragmentLevel 0 (kind :: ks) = some 0)
    (refuses : ∀ room, Refuses (readPredicate (readOperand room)) (kind :: ks)) :
    DenotesAs 1 text Expr.StartsUnparsed := by
  refine ⟨_, writes, nested.within le_rfl, by simp, fun room _ => ?_⟩
  have refuses := refuses_condition plain (refuses room)
  have parts := unparsed_as refuses level
  refine (disjunction_single_as rfl (conjunction_single_as rfl parts)).weaken ?_
  rintro expr ⟨text, rfl⟩
  exact ⟨text, [], rfl⟩

end Items

section Columns

variable {table : String} {name : String} (first : IsPlain table) (second : IsPlain name)
  {value : Value} (exponent : ¬ value.NoExponent)

include first second exponent in
theorem compare_refused {symbol : String} {op : Comparison}
    (closed : Closed symbol [.comparison op]) (opens : Opens symbol) :
    Refused (table ++ "." ++ name ++ symbol ++ renderValue value) := by
  obtain ⟨kind, ks, rest, digits, writes, written, reads⟩ := exponent_written exponent
  have whole := ((writes_column first second).close closed opens).then writes
  have nested := nested_column table name
    (@Nested.flat _ (.comparison op) _ rfl (written_nested written))
  refine @surplus_refused _ (.identifier table)
    (.mark .dot :: .identifier name :: .comparison op :: kind :: ks) "e" rest
    (.compare (.column ⟨some table, name⟩) op (.number digits)) (by simpa using whole)
    (by simpa [columnKinds] using nested) rfl fun room => ?_
  exact reads_predicate (column_reads table name room) (by simp [endsOperand]) (by simp)
    (reads_compare op (reads room))

include first second exponent in
/-- The lower bound of a range is not read back: its upper bound is an item of its own. -/
theorem low_whole (upper : Value) :
    DenotesAs 1
      (table ++ "." ++ name ++ " BETWEEN " ++ renderValue value ++ " AND " ++ renderValue upper)
      Expr.StartsUnparsed := by
  obtain ⟨kind, ks, rest, digits, writes, written, reads⟩ := exponent_written exponent
  obtain ⟨ls, writes', written', reads'⟩ := value_condition_as upper
  have closed : Closed " BETWEEN " [.keyword .BETWEEN] := closed_text (by decide) rfl
  have closed' : Closed " AND " [.keyword .AND] := closed_text (by decide) rfl
  let range := columnKinds table name ++ .keyword .BETWEEN :: (kind :: ks ++ .identifier "e" :: rest)
  have whole : Writes (table ++ "." ++ name ++ " BETWEEN " ++ renderValue value ++ " AND " ++
      renderValue upper) (separated (.keyword .AND) [range, ls]) := by
    have joined := ((((writes_column first second).close closed (opens_text (by decide))).then
      writes).close closed' (opens_text (by decide))).then writes'
    simpa [separated, range, columnKinds] using joined
  have nested : Nested 0 (separated (.keyword .AND) [range, ls]) :=
    (nested_column table name (.flat rfl (written_nested written))).append
      (.flat rfl (written_nested written'))
  have level : fragmentLevel 0 range = some 0 := by
    simpa [range, columnKinds, fragmentLevel, endsFragment] using written_fragment written
  refine ⟨_, whole, nested.within (Nat.zero_le 1), by simp [separated], fun room _ => ?_⟩
  -- The range is refused at the exponent, so its `AND` separates a fragment from another item.
  have refuses := refuses_condition rfl
    (refuses_between (column_reads table name room) (reads room) (.identifier "e") rfl
      (by simp) rest)
  have parts := unparsed_as refuses level
  refine (disjunction_single_as rfl (conjunction_as rfl (List.cons_ne_nil _ _)
    (.cons parts (.cons (reads' room) .nil)))).weaken ?_
  rintro expr ⟨items, holds, rfl⟩
  cases holds with
  | cons first others =>
      obtain ⟨text, rfl⟩ := first
      cases others with
      | cons second none_ =>
          cases none_
          exact ⟨text, _, rfl⟩

include first second in
theorem high_refused {lower upper : Value} (plain : lower.NoExponent)
    (exponent : ¬ upper.NoExponent) :
    Refused
      (table ++ "." ++ name ++ " BETWEEN " ++ renderValue lower ++ " AND " ++ renderValue upper) := by
  obtain ⟨kind, ks, writes, written, reads⟩ := value_denotes plain
  obtain ⟨kind', ls, rest, digits, writes', written', reads'⟩ := exponent_written exponent
  have closed : Closed " BETWEEN " [.keyword .BETWEEN] := closed_text (by decide) rfl
  have closed' : Closed " AND " [.keyword .AND] := closed_text (by decide) rfl
  have whole := ((((writes_column first second).close closed (opens_text (by decide))).then
    writes).close closed' (opens_text (by decide))).then writes'
  have nested := nested_column table name (@Nested.flat _ (.keyword .BETWEEN) _ rfl
    ((written_nested written).append (@Nested.flat _ (.keyword .AND) _ rfl (written_nested written'))))
  refine @surplus_refused _ (.identifier table)
    (.mark .dot :: .identifier name :: .keyword .BETWEEN ::
      (kind :: ks ++ .keyword .AND :: kind' :: ls)) "e" rest
    (.between (.column ⟨some table, name⟩) (operandOf lower) (.number digits) false)
    (by simpa using whole) (by simpa [columnKinds] using nested) rfl fun room => ?_
  exact reads_predicate (column_reads table name room) (by simp [endsOperand]) (by simp)
    (reads_between false (reads room) (reads' room))

def daysKinds (amount : List TokenKind) : List TokenKind :=
  .identifier "DATE_SUB" :: .mark .lparen :: .identifier "CURRENT_DATE" :: .mark .comma ::
    .keyword .INTERVAL :: amount

theorem no_amount_refused {kind : TokenKind} (other : isAmount kind = false) (ks : List TokenKind)
    (room : Nat) : Refuses (readOperand room) (daysKinds (kind :: ks)) := by
  refine refuses_call_within "DATE_SUB" (fun room => refuses_call "DATE_SUB" ?_) room
  exact refuses_operands (by simp)
    (reads_operand (reads_term_within (fun args => reads_term_bare args "CURRENT_DATE") room)) rfl
    (refuses_operand (refuses_term (refuses_interval other ks) room))

/-- The letter of the exponent is taken for the unit; then the unit is one name too much. -/
theorem exponent_refused (digits digits' : String) {mark : Mark} (marks : mark = .minus ∨ mark = .plus)
    (ks : List TokenKind) (room : Nat) :
    Refuses (readOperand room) (daysKinds
      (.number digits :: .identifier "e" :: .mark mark :: .number digits' :: .identifier "DAY" ::
        ks)) := by
  obtain ⟨sign, signs⟩ : ∃ sign, signOf? mark = some sign := by
    rcases marks with rfl | rfl <;> exact ⟨_, rfl⟩
  refine refuses_call_within "DATE_SUB" (fun room => ?_) room
  -- The arguments are read up to `DAY`, where the parenthesis should be closed.
  let stops (kind : TokenKind) : Bool := endsName kind && endsSum kind
  have names : ∀ kind, stops kind = true → endsName kind = true := fun kind ends =>
    (Bool.and_eq_true_iff.mp ends).1
  have sums : ∀ kind, stops kind = true → endsSum kind = true := fun kind ends =>
    (Bool.and_eq_true_iff.mp ends).2
  have today := reads_operand_before ((reads_term_within
    (fun args => reads_term_name args "CURRENT_DATE") room).weaken names) sums
  have amount := reads_term_within
    (fun args => reads_term_interval args (reads_interval_number digits "e")) room
  have rest : Reads (termWithin room) [.number digits'] (.number digits') stops :=
    (reads_term_within (fun args => reads_term_number args digits') room).weaken fun _ _ => rfl
  have span := reads_sum signs amount rest sums
  exact refuses_open_call "DATE_SUB" (reads_operands (.cons today (.cons span .nil)) rfl (by simp))
    (.identifier "DAY") rfl (by simp) ks

theorem days_refused {value : Value} (bad : ¬ (value.NoExponent ∧ value.IsAmount)) :
    ∃ ks, Writes (renderValue value) ks ∧ (∀ kind ∈ ks, isWritten kind = true) ∧
      ∀ room more, Refuses (readOperand room) (daysKinds (ks ++ .identifier "DAY" :: more)) := by
  have other {kind : TokenKind} {ks : List TokenKind} (writes : Writes (renderValue value) (kind :: ks))
      (written : ∀ other ∈ kind :: ks, isWritten other = true) (bad : isAmount kind = false) :
      ∃ ks, Writes (renderValue value) ks ∧ (∀ kind ∈ ks, isWritten kind = true) ∧
        ∀ room more, Refuses (readOperand room) (daysKinds (ks ++ .identifier "DAY" :: more)) :=
    ⟨kind :: ks, writes, written, fun room more => no_amount_refused bad _ room⟩
  cases value with
  | null =>
      exact @other (.keyword .NULL) [] (writes_text (by decide) rfl) (by simp [isWritten]) rfl
  | bool b =>
      refine @other (.identifier (Value.bool b).print) [] ?_ (by simp [isWritten]) rfl
      cases b
      · exact writes_text (by decide) rfl
      · exact writes_text (by decide) rfl
  | number n =>
      by_cases letter : 'e' ∈ n.print.toList
      · obtain ⟨front, digits, mark, digits', signed, marks, writes⟩ := writes_exponent letter
        rcases signed with rfl | rfl
        · refine ⟨_, writes, by rcases marks with rfl | rfl <;> simp [isWritten], fun room more => ?_⟩
          exact exponent_refused digits digits' marks more room
        · exact other writes (by rcases marks with rfl | rfl <;> simp [isWritten]) rfl
      · obtain ⟨digits, numeral_, shape⟩ := Json.number_print_numeral letter
        have negative : '-' ∈ n.print.toList := by
          simpa [Value.NoExponent, Value.IsAmount, letter] using bad
        rcases shape with shape | shape
        · rw [shape] at negative
          exact absurd (numeral_.2 '-' negative) (by decide)
        · exact other (writes_negative numeral_.1 shape) (by simp [isWritten]) rfl
  | string s => exact absurd ⟨trivial, trivial⟩ bad
  | array items => exact absurd ⟨trivial, trivial⟩ bad
  | object members => exact absurd ⟨trivial, trivial⟩ bad

include first second in
theorem days_whole {value : Value} (bad : ¬ (value.NoExponent ∧ value.IsAmount)) :
    DenotesAs 1
      (table ++ "." ++ name ++ " >= DATE_SUB(CURRENT_DATE, INTERVAL " ++ renderValue value ++ " DAY)")
      Expr.StartsUnparsed := by
  obtain ⟨ks, writes, written, refuses⟩ := days_refused bad
  have closed : Closed " >= DATE_SUB(CURRENT_DATE, INTERVAL "
      [.comparison .ge, .identifier "DATE_SUB", .mark .lparen, .identifier "CURRENT_DATE",
        .mark .comma, .keyword .INTERVAL] := closed_text (by decide) rfl
  have unit : Writes " DAY)" [.identifier "DAY", .mark .rparen] := writes_text (by decide) rfl
  have whole := (((writes_column first second).close closed (opens_text (by decide))).then
    writes).append unit (opens_text (by decide)).separates
  have inner : Nested 0 (.identifier "CURRENT_DATE" :: .mark .comma :: .keyword .INTERVAL ::
      (ks ++ [.identifier "DAY"])) :=
    .flat rfl (.flat rfl (.flat rfl ((written_nested written).append (.flat rfl .nil))))
  have call := nested_around inner
  have level := fragment_around inner
  refine @unread_whole _ (.identifier table) (.mark .dot :: .identifier name :: .comparison .ge ::
    daysKinds (ks ++ .identifier "DAY" :: [.mark .rparen])) ?_ ?_ rfl ?_ fun room => ?_
  · simpa [daysKinds] using whole
  · simpa [columnKinds, daysKinds] using nested_column table name
      (@Nested.flat _ (.comparison .ge) _ rfl (@Nested.flat _ (.identifier "DATE_SUB") _ rfl call))
  · simpa [daysKinds, fragmentLevel, endsFragment] using level
  · exact refuses_compare (column_reads table name room) .ge (refuses room [.mark .rparen])

end Columns

theorem filter_expr_levels {table : String} {filter : Filter} :
    ∀ expr ∈ filter.expr? table, expr.levels ≤ 1 := by
  obtain ⟨id, field, operator, value, value2⟩ := filter
  intro expr found
  cases operator with
  | between =>
      obtain ⟨upper, _, rfl⟩ := Option.map_eq_some_iff.mp found
      simp [Expr.levels, Predicate.levels, Operand.levels]
  | containsAll =>
      simp only [Filter.expr?, foldExprs] at found
      split_ifs at found with none_
      · cases found
      · obtain rfl := Option.some.inj found
        rw [Combinator.fold_levels]
        refine grouped_levels fun expr member => ?_
        obtain ⟨element, _, same⟩ := List.mem_map.mp (List.reduceOption_mem_iff.mp member)
        obtain rfl := Option.some.inj same
        exact Nat.le_refl 0
  | unknown => cases found
  | _ =>
      obtain rfl := Option.some.inj found
      simp [likeExpr, Expr.levels, Predicate.levels, Operand.levels, Operand.levelsOf]

def Filter.IsItem (table : String) (filter : Filter) (item : Expr) : Prop :=
  filter.Legible ∧ (∃ expr, filter.expr? table = some expr ∧ item = .grouped expr) ∨
    ¬ filter.Legible ∧ item.StartsUnparsed

/-- All of the clause is read up to an exponent in its last value, so that in parentheses the clause
is refused. An exponent in another place is passed over within the parentheses. -/
def Filter.StopsAtExponent (filter : Filter) : Prop :=
  match filter.operator with
  | .between => filter.value.NoExponent ∧ ∃ upper ∈ filter.value2, ¬ upper.NoExponent
  | .relativeDaysAgo => False
  | operator => operator.writesValue = true ∧ ¬ filter.value.NoExponent

instance : DecidablePred Filter.StopsAtExponent
  | ⟨_, _, .between, value, value2⟩ =>
      inferInstanceAs (Decidable (value.NoExponent ∧ ∃ upper ∈ value2, ¬ upper.NoExponent))
  | ⟨_, _, .relativeDaysAgo, _, _⟩ => .isFalse id
  | ⟨_, _, .equals, value, _⟩ | ⟨_, _, .on, value, _⟩ | ⟨_, _, .notEquals, value, _⟩
  | ⟨_, _, .notOn, value, _⟩ | ⟨_, _, .greaterThan, value, _⟩ | ⟨_, _, .after, value, _⟩
  | ⟨_, _, .lessThan, value, _⟩ | ⟨_, _, .before, value, _⟩ | ⟨_, _, .contains, value, _⟩
  | ⟨_, _, .notContains, value, _⟩ | ⟨_, _, .startsWith, value, _⟩ | ⟨_, _, .endsWith, value, _⟩
  | ⟨_, _, .isNull, value, _⟩ | ⟨_, _, .isNotNull, value, _⟩ | ⟨_, _, .containsAll, value, _⟩
  | ⟨_, _, .isEmpty, value, _⟩ | ⟨_, _, .isNotEmpty, value, _⟩ | ⟨_, _, .unknown, value, _⟩ =>
      inferInstanceAs (Decidable (_ = true ∧ ¬ value.NoExponent))

section Filters

variable {table : String} (plain : IsPlain table) {filter : Filter}
  (fieldPlain : IsPlain filter.field)

include plain fieldPlain in
theorem filter_refused (stops : filter.StopsAtExponent) : Refused (filter.clause table) := by
  obtain ⟨id, field, operator, value, value2⟩ := filter
  have second : IsPlain field := fieldPlain
  cases operator with
  | equals | on | notEquals | notOn | greaterThan | after | lessThan | before =>
      exact compare_refused plain second stops.2 (closed_text (by decide) rfl)
        (opens_text (by decide))
  | between =>
      obtain ⟨lower, upper, found, exponent⟩ := stops
      obtain rfl : value2 = some upper := found
      exact high_refused plain second lower exponent
  | relativeDaysAgo => exact stops.elim
  | _ => exact Bool.noConfusion stops.1

variable (shown : Text.isBlankText (filter.clause table) = false)

include plain fieldPlain shown in
theorem illegible_whole (illegible : ¬ filter.Legible) (goesOn : ¬ filter.StopsAtExponent) :
    DenotesAs 1 (filter.clause table) Expr.StartsUnparsed := by
  obtain ⟨id, field, operator, value, value2⟩ := filter
  have second : IsPlain field := fieldPlain
  cases operator with
  | between =>
      cases value2 with
      | none => cases shown
      | some upper =>
          refine low_whole plain second (fun lower => illegible ⟨fun _ => lower, ?_, ?_⟩) upper
          · rintro _ _ ⟨⟩
            by_contra exponent
            exact goesOn ⟨lower, upper, rfl, exponent⟩
          · rintro ⟨⟩
  | relativeDaysAgo =>
      refine days_whole plain second fun good => illegible ⟨fun _ => good.1, ?_, fun _ => good.2⟩
      rintro ⟨⟩
  | _ =>
      -- There is one value at most, and the clause ends with it.
      refine absurd ⟨fun writes => ?_, by rintro ⟨⟩, by rintro ⟨⟩⟩ illegible
      by_contra exponent
      exact goesOn ⟨writes, exponent⟩

include plain fieldPlain shown in
theorem legible_denotes (legible : filter.Legible) :
    ∃ expr, filter.expr? table = some expr ∧ DenotesAs 1 (filter.clause table) (· = expr) := by
  have mirrors := filter_mirrors plain fieldPlain legible
  cases found : filter.expr? table with
  | none =>
      rw [found] at mirrors
      have empty : filter.clause table = "" := mirrors
      rw [empty] at shown
      cases shown
  | some expr =>
      rw [found] at mirrors
      have denotes : Denotes (filter.clause table) expr := mirrors
      exact ⟨expr, rfl, denotes.as (filter_expr_levels expr found)⟩

include plain fieldPlain shown in
/-- Unless it stops at an exponent, a clause is read as a whole within its parentheses. -/
theorem filter_whole (goesOn : ¬ filter.StopsAtExponent) :
    ∃ post, DenotesAs 1 (filter.clause table) post := by
  by_cases legible : filter.Legible
  · obtain ⟨expr, _, denotes⟩ := legible_denotes plain fieldPlain shown legible
    exact ⟨_, denotes⟩
  · exact ⟨_, illegible_whole plain fieldPlain shown legible goesOn⟩

include plain fieldPlain shown in
theorem illegible_item (illegible : ¬ filter.Legible) :
    DenotesItem 1 (filter.clause table) Expr.StartsUnparsed := by
  by_cases stops : filter.StopsAtExponent
  · exact (filter_refused plain fieldPlain stops).item
  · refine (illegible_whole plain fieldPlain shown illegible stops).item.weaken ?_
    rintro expr ⟨inner, starts, rfl⟩
    exact starts

include plain fieldPlain shown in
theorem filter_item : DenotesItem 1 (filter.clause table) (filter.IsItem table) := by
  by_cases legible : filter.Legible
  · obtain ⟨expr, found, denotes⟩ := legible_denotes plain fieldPlain shown legible
    refine denotes.item.weaken ?_
    rintro item ⟨inner, rfl, rfl⟩
    exact .inl ⟨legible, inner, found, rfl⟩
  · exact (illegible_item plain fieldPlain shown legible).weaken fun item starts =>
      .inr ⟨legible, starts⟩

end Filters

end Cohort
