import Cohort.Proofs.Sql.Accepting

/-!
How high the trees of expressions are. The levels of nesting are limited, folds are flat and a fold
does not stand in a fold of its kind, so whatever is read is at most as high as the limit allows for
the longest of its sums. Sums are not limited: they lean to the left, a level for each sign, and a
text can have as many signs as it likes.
-/

namespace Cohort.Sql

mutual

def Operand.height : Operand → Nat
  | .call _ args => Operand.heightOf args + 1
  | .sum left _ right => max left.height right.height + 1
  | _ => 1

def Operand.heightOf : List Operand → Nat
  | [] => 0
  | operand :: rest => max operand.height (Operand.heightOf rest)

end

def Predicate.height (predicate : Predicate) : Nat :=
  Operand.heightOf predicate.operands + 1

mutual

def Expr.height : Expr → Nat
  | .and items => Expr.heightOf items + 1
  | .or items => Expr.heightOf items + 1
  | .grouped inner => inner.height + 1
  | .not inner => inner.height + 1
  | .exist _ query => query.height + 1
  | .predicate p => p.height + 1

def Expr.heightOf : List Expr → Nat
  | [] => 0
  | item :: rest => max item.height (Expr.heightOf rest)

def Subquery.height : Subquery → Nat
  | ⟨_, _, filter, _, having⟩ =>
      max (match filter with
        | some filter => filter.height
        | none => 0) (having.elim 0 Predicate.height) + 1

end

theorem operand_height_le {operands : List Operand} {limit : Nat} :
    Operand.heightOf operands ≤ limit ↔ ∀ operand ∈ operands, operand.height ≤ limit := by
  induction operands with
  | nil => simp [Operand.heightOf]
  | cons operand rest ih => simp [Operand.heightOf, ih]

theorem item_height_le {items : List Expr} {limit : Nat} :
    Expr.heightOf items ≤ limit ↔ ∀ item ∈ items, item.height ≤ limit := by
  induction items with
  | nil => simp [Expr.heightOf]
  | cons item rest ih => simp [Expr.heightOf, ih]

theorem query_height_le {query : Subquery} {limit : Nat} :
    query.height ≤ limit + 1 ↔ (∀ filter ∈ query.filter, filter.height ≤ limit) ∧
      ∀ p ∈ query.having, p.height ≤ limit := by
  obtain ⟨table, joins, filter, groupBy, having⟩ := query
  cases filter <;> cases having <;> simp [Subquery.height]

def Operand.signs : Operand → Nat
  | .sum left _ _ => left.signs + 1
  | _ => 0

mutual

def Operand.longestSum : Operand → Nat
  | .call _ args => Operand.longestSumOf args
  | .sum left _ right => max (left.signs + 1) (max left.longestSum right.longestSum)
  | _ => 0

def Operand.longestSumOf : List Operand → Nat
  | [] => 0
  | operand :: rest => max operand.longestSum (Operand.longestSumOf rest)

end

def Expr.SumsWithin (limit : Nat) (expr : Expr) : Prop :=
  ∀ p ∈ expr.everyPredicate, ∀ operand ∈ p.operands, operand.longestSum ≤ limit

instance (limit : Nat) : DecidablePred (Expr.SumsWithin limit) :=
  fun expr => inferInstanceAs
    (Decidable (∀ p ∈ expr.everyPredicate, ∀ operand ∈ p.operands, operand.longestSum ≤ limit))

theorem longest_sum_le {limit : Nat} {operands : List Operand} :
    Operand.longestSumOf operands ≤ limit ↔ ∀ operand ∈ operands, operand.longestSum ≤ limit := by
  induction operands with
  | nil => simp [Operand.longestSumOf]
  | cons operand rest ih => simp [Operand.longestSumOf, ih]

theorem signs_within (operand : Operand) : operand.signs ≤ operand.longestSum := by
  cases operand with
  | sum left sign right => exact le_max_left _ _
  | _ => exact Nat.zero_le _

theorem no_signs {operand : Operand} (single : operand.isSum = false) : operand.signs = 0 := by
  cases operand with
  | sum left sign right => cases single
  | _ => rfl

section Bounds

variable {good : TokenKind → Prop} {span : String → Prop} {limit : Nat}

/-- A sum is higher than its terms by its signs, and a term than the arguments in it by one. -/
theorem operand_height {operand : Operand} (built : operand.Built good span)
    (short : operand.longestSum ≤ limit) {room : Nat} (low : operand.levels ≤ room) :
    operand.height ≤ room * (limit + 1) + 1 + operand.signs := by
  induction operand using Operand.induction generalizing room with
  | call name args ih =>
      have each := operands_built.mp built.2
      have shorter := longest_sum_le.mp short
      cases room with
      | zero => cases low
      | succ room =>
          have lower := operand_levels_le.mp (Nat.le_of_succ_le_succ low)
          refine Nat.succ_le_succ (operand_height_le.mpr fun arg found => ?_)
          have inside := ih arg found (each arg found) (shorter arg found) (lower arg found)
          have signs := (signs_within arg).trans (shorter arg found)
          rw [Nat.succ_mul]
          omega
  | sum left sign right ihLeft ihRight =>
      obtain ⟨first, second, single⟩ := built
      obtain ⟨lowLeft, lowRight⟩ := max_le_iff.mp low
      obtain ⟨-, shortTerms⟩ := max_le_iff.mp short
      obtain ⟨shortLeft, shortRight⟩ := max_le_iff.mp shortTerms
      have left_ := ihLeft first shortLeft lowLeft
      have right_ := ihRight second shortRight lowRight
      rw [no_signs single] at right_
      simp only [Operand.height, Operand.signs]
      omega
  | _ => exact (Nat.le_add_left 1 _).trans (Nat.le_add_right _ _)

def operandBound (room limit : Nat) : Nat :=
  (room + 1) * (limit + 1)

theorem operand_bound_succ (room limit : Nat) :
    operandBound room limit ≤ operandBound (room + 1) limit :=
  Nat.mul_le_mul_right _ (Nat.le_succ _)

theorem bounded_operand {operand : Operand} (built : operand.Built good span)
    (short : operand.longestSum ≤ limit) {room : Nat} (low : operand.levels ≤ room) :
    operand.height ≤ operandBound room limit := by
  have height := operand_height built short low
  have signs := (signs_within operand).trans short
  rw [operandBound, Nat.succ_mul]
  omega

theorem bounded_predicate {predicate : Predicate} (built : predicate.Built good)
    (short : ∀ operand ∈ predicate.operands, operand.longestSum ≤ limit) {room : Nat}
    (low : predicate.levels ≤ room) : predicate.height ≤ operandBound room limit + 1 :=
  Nat.succ_le_succ (operand_height_le.mpr fun operand found =>
    bounded_operand (built operand found) (short operand found)
      (predicate_levels_le.mp low operand found))

def Expr.folds : Expr → Nat
  | .or _ => 2
  | .and _ => 1
  | _ => 0

theorem folds_le (expr : Expr) : expr.folds ≤ 2 := by
  cases expr <;> simp [Expr.folds]

theorem no_folds {expr : Expr} (single : expr.isFold = false) : expr.folds = 0 := by
  cases expr <;> simp_all [Expr.isFold, Expr.folds]

theorem one_fold {expr : Expr} (single : expr.isDisjunction = false) : expr.folds ≤ 1 := by
  cases expr <;> simp_all [Expr.isDisjunction, Expr.folds]

/-- A level takes at most four nodes: two folds, what opens the level, and the sub-query in it. -/
theorem expr_height {expr : Expr} (built : expr.Built good (Predicate.Built good))
    (short : expr.SumsWithin limit) {room : Nat} (low : expr.levels ≤ room) :
    expr.height ≤ 4 * room + 2 + operandBound room limit + expr.folds := by
  induction expr using Expr.induction_within generalizing room with
  | and items ih =>
      obtain ⟨-, each, single⟩ := built
      refine Nat.succ_le_succ (item_height_le.mpr fun item found => ?_)
      have inside := ih item found (items_built.mp each item found)
        (fun p within => short p (every_predicate_of_mem.mpr ⟨item, found, within⟩))
        (item_levels_le.mp low item found)
      rwa [no_folds (single item found)] at inside
  | or items ih =>
      obtain ⟨-, each, single⟩ := built
      refine Nat.succ_le_succ (item_height_le.mpr fun item found => ?_)
      have inside := ih item found (items_built.mp each item found)
        (fun p within => short p (every_predicate_of_mem.mpr ⟨item, found, within⟩))
        (item_levels_le.mp low item found)
      have folds := one_fold (single item found)
      omega
  | grouped inner ih =>
      obtain ⟨room, rfl⟩ := Nat.exists_eq_add_of_le' (Nat.le_trans (Nat.le_add_left 1 _) low)
      have inside := ih built short (Nat.le_of_succ_le_succ low)
      have folds := folds_le inner
      have wider := operand_bound_succ room limit
      simp only [Expr.height]
      omega
  | not inner ih =>
      obtain ⟨room, rfl⟩ := Nat.exists_eq_add_of_le' (Nat.le_trans (Nat.le_add_left 1 _) low)
      have inside := ih built.1 short (Nat.le_of_succ_le_succ low)
      have folds := folds_le inner
      have wider := operand_bound_succ room limit
      simp only [Expr.height]
      omega
  | exist negated query ih =>
      obtain ⟨room, rfl⟩ := Nat.exists_eq_add_of_le' (Nat.le_trans (Nat.le_add_left 1 _) low)
      obtain ⟨-, -, filtered, -, counted⟩ := query_built.mp built
      obtain ⟨lowFilter, lowHaving⟩ := query_levels_le.mp (Nat.le_of_succ_le_succ low)
      have wider := operand_bound_succ room limit
      have within : query.height ≤ 4 * room + 4 + operandBound room limit + 1 := by
        refine query_height_le.mpr ⟨fun filter found => ?_, fun p found => ?_⟩
        · have inside := ih filter found (filtered filter found)
            (fun p member => short p (exist_predicate_mem.mpr (.inl ⟨filter, found, member⟩)))
            (lowFilter filter found)
          have folds := folds_le filter
          omega
        · have height := bounded_predicate (counted p found)
            (short p (exist_predicate_mem.mpr (.inr found))) (lowHaving p found)
          omega
      simp only [Expr.height]
      omega
  | predicate p =>
      have height := bounded_predicate built (short p List.mem_cons_self) low
      simp only [Expr.height, Expr.folds]
      omega

end Bounds

/-- Whatever is read of a text is no higher than the limit of nesting allows for sums of so many
signs. -/
theorem height_within_nesting (signs : Nat) {text : String} {expr : Expr} {rest : List Token}
    (read : readExpr (tokenize text) = some (expr, rest)) (short : expr.SumsWithin signs) :
    expr.height ≤ 4 * (maxNesting + 1) + (maxNesting + 1) * (signs + 1) := by
  have made : Made (fun _ => True) (tokenize text) := fun _ _ => trivial
  obtain ⟨fits, -⟩ := yields_expr made expr rest read
  have height := expr_height fits.built short fits.low
  have folds := folds_le expr
  rw [operandBound] at height
  omega

def layeredText : String :=
  "NOT (a.b - f(1 + 2 + c, g(*)) >= 3 OR d = 'x') AND EXISTS (SELECT 1 FROM p WHERE p.k = 4 " ++
    "GROUP BY p.k HAVING COUNT(*) + 1 > 2)"

theorem layered_within_nesting :
    ∃ expr, readExpr (tokenize layeredText) = some (expr, []) ∧ expr.SumsWithin 2 ∧
      expr.height ≤ 4 * (maxNesting + 1) + (maxNesting + 1) * (2 + 1) := by
  have checked : ((readExpr (tokenize layeredText)).any fun result =>
      decide (result.2 = [] ∧ result.1.SumsWithin 2)) = true := by decide +kernel
  obtain ⟨⟨expr, rest⟩, read, holds⟩ := Option.any_eq_true _ _ |>.mp checked
  obtain ⟨rfl, short⟩ := of_decide_eq_true holds
  exact ⟨expr, read, short, height_within_nesting 2 read short⟩

/-! ### Long sums -/

def onesSum : Nat → Operand
  | 0 => .number "1"
  | signs + 1 => .sum (onesSum signs) .plus (.number "1")

theorem ones_normal (signs : Nat) : (Expr.predicate (.bare (onesSum signs))).Normal := by
  have one : (Operand.number "1").Built TokenKind.IsSound IsUnquoted :=
    ⟨"1", rfl, .inl rfl⟩
  have built : (onesSum signs).Built TokenKind.IsSound IsUnquoted := by
    induction signs with
    | zero => exact one
    | succ signs ih => exact ⟨ih, one, rfl⟩
  have low : (onesSum signs).levels = 0 := by
    clear built
    induction signs with
    | zero => rfl
    | succ signs ih => simp [onesSum, Operand.levels, ih]
  refine ⟨⟨rfl, by simpa [Predicate.operands] using built⟩, ?_⟩
  rw [Expr.levels, Predicate.levels, low]
  exact Nat.zero_le maxNesting

theorem ones_height (signs : Nat) : (onesSum signs).height = signs + 1 := by
  induction signs with
  | zero => rfl
  | succ signs ih => simp [onesSum, Operand.height, ih]

/-- There is no height that all texts keep to. -/
theorem height_of_sums_unlimited :
    ¬ ∃ limit, ∀ (text : String) (expr : Expr) (rest : List Token),
      readExpr (tokenize text) = some (expr, rest) → expr.height ≤ limit := by
  rintro ⟨limit, every⟩
  have low := every _ _ _ (ones_normal limit).reads
  simp only [Expr.height, Predicate.height, Predicate.operands, Operand.heightOf,
    ones_height] at low
  omega

end Cohort.Sql
