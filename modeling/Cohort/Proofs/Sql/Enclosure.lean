import Cohort.Proofs.Sql.Fragments

/-!
Readers within parentheses. What a reader makes of balanced tokens in front of a closing parenthesis
that they do not open is the same whatever stands behind the parenthesis, and the parenthesis is
left to whoever opened it. This holds of what is read as well as of what is refused or taken as a
fragment.
-/

namespace Cohort.Sql

variable {α β : Type} {tokens : List Token}

def Closes (tail : List Token) : Prop :=
  ∃ close after, tail = close :: after ∧ close.kind = .mark .rparen

/-- `run tail` is what is read of `tokens` in front of `tail`. It is the same for every tail that
closes, which is left behind balanced tokens. -/
def Stays (tokens : List Token) (run : List Token → Option (α × List Token)) : Prop :=
  ∃ result : Option (α × List Token),
    (∀ value rest, result = some (value, rest) →
      Balanced (kindsOf rest) ∧ rest.length ≤ tokens.length) ∧
    ∀ tail, Closes tail → run tail = result.map fun (value, rest) => (value, rest ++ tail)

def Enclosed (read : Read α) : Prop :=
  ∀ tokens, Balanced (kindsOf tokens) → Stays tokens fun tail => read (tokens ++ tail)

theorem stays_none : Stays tokens fun _ => (none : Option (α × List Token)) :=
  ⟨none, by simp, fun _ _ => rfl⟩

theorem stays_some {rest : List Token} (value : α) (balanced : Balanced (kindsOf rest))
    (shorter : rest.length ≤ tokens.length) :
    Stays tokens fun tail => some (value, rest ++ tail) := by
  refine ⟨some (value, rest), ?_, fun _ _ => rfl⟩
  rintro _ _ ⟨⟩
  exact ⟨balanced, shorter⟩

theorem Stays.congr {run run' : List Token → Option (α × List Token)} (stays : Stays tokens run)
    (same : ∀ tail, Closes tail → run' tail = run tail) : Stays tokens run' := by
  obtain ⟨result, kept, read⟩ := stays
  exact ⟨result, kept, fun tail closes => (same tail closes).trans (read tail closes)⟩

theorem Stays.longer {rest : List Token} {run : List Token → Option (α × List Token)}
    (stays : Stays rest run) (shorter : rest.length ≤ tokens.length) : Stays tokens run := by
  obtain ⟨result, kept, read⟩ := stays
  refine ⟨result, fun value behind found => ?_, read⟩
  obtain ⟨balanced, le⟩ := kept value behind found
  exact ⟨balanced, le.trans shorter⟩

theorem Stays.bind {run : List Token → Option (α × List Token)}
    {next : List Token → α × List Token → Option (β × List Token)} (first : Stays tokens run)
    (second : ∀ value rest, Balanced (kindsOf rest) → rest.length ≤ tokens.length →
      Stays rest fun tail => next tail (value, rest ++ tail)) :
    Stays tokens fun tail => run tail >>= next tail := by
  obtain ⟨result, kept, read⟩ := first
  cases result with
  | none => exact stays_none.congr fun tail closes => by rw [read tail closes]; rfl
  | some pair =>
      obtain ⟨value, rest⟩ := pair
      obtain ⟨balanced, shorter⟩ := kept value rest rfl
      refine ((second value rest balanced shorter).longer shorter).congr fun tail closes => ?_
      rw [read tail closes]
      rfl

theorem Stays.map {run : List Token → Option (α × List Token)} (stays : Stays tokens run)
    (change : α → β) :
    Stays tokens fun tail => (run tail).map fun (value, rest) => (change value, rest) := by
  obtain ⟨result, kept, read⟩ := stays
  refine ⟨result.map fun (value, rest) => (change value, rest), ?_, fun tail closes => ?_⟩
  · intro value rest found
    obtain ⟨⟨value', _⟩, same, ⟨⟩⟩ := Option.map_eq_some_iff.mp found
    exact kept value' rest same
  · simp only [read tail closes]
    cases result <;> rfl

theorem balanced_behind {token : Token} {rest : List Token} (inert : isInert token.kind = true)
    (balanced : Balanced (kindsOf (token :: rest))) : Balanced (kindsOf rest) := by
  rwa [Balanced, kindsOf, List.map_cons, level_inert inert] at balanced

/-- Balanced tokens do not start with a closing parenthesis. -/
theorem balanced_not_closing {token : Token} {rest : List Token}
    (balanced : Balanced (kindsOf (token :: rest))) : token.kind ≠ .mark .rparen := by
  intro same
  rw [Balanced, kindsOf, List.map_cons, same] at balanced
  cases balanced

/-- A token that is no parenthesis is found among the tokens or not at all. -/
theorem expect_enclosed {kind : TokenKind} (inert : isInert kind = true)
    (balanced : Balanced (kindsOf tokens)) :
    (∃ rest, Balanced (kindsOf rest) ∧ rest.length < tokens.length ∧
      ∀ tail, expect kind (tokens ++ tail) = some (rest ++ tail)) ∨
    ∀ tail, Closes tail → expect kind (tokens ++ tail) = none := by
  cases tokens with
  | nil =>
      refine .inr ?_
      rintro tail ⟨close, after, rfl, closing⟩
      have other : close.kind ≠ kind := by
        rintro rfl
        rw [closing] at inert
        cases inert
      simp [expect, other]
  | cons token rest =>
      by_cases same : token.kind = kind
      · refine .inl ⟨rest, balanced_behind (same ▸ inert) balanced, by simp, fun tail => ?_⟩
        simp [expect, same]
      · exact .inr fun tail _ => by simp [expect, same]

theorem stays_expect {kind : TokenKind} {next : List Token → List Token → Option (β × List Token)}
    (inert : isInert kind = true) (balanced : Balanced (kindsOf tokens))
    (step : ∀ rest, Balanced (kindsOf rest) → Stays rest fun tail => next tail (rest ++ tail)) :
    Stays tokens fun tail => expect kind (tokens ++ tail) >>= next tail := by
  rcases expect_enclosed inert balanced with ⟨rest, within, shorter, found⟩ | none_
  · simp only [found]
    exact (step rest within).longer shorter.le
  · exact stays_none.congr fun tail closes => by rw [none_ tail closes]; rfl

/-- Tokens that open a parenthesis close it too. -/
theorem closed_inside {depth : Nat} (level : levelAfter (depth + 1) (kindsOf tokens) = some 0) :
    ∃ inner close rest, tokens = inner ++ close :: rest ∧ close.kind = .mark .rparen ∧
      Balanced (kindsOf inner) ∧ levelAfter depth (kindsOf rest) = some 0 := by
  generalize size : tokens.length = n
  induction n using Nat.strong_induction_on generalizing tokens depth with
  | _ n ih =>
      cases tokens with
      | nil => cases level
      | cons token rest =>
          subst size
          by_cases opening : token.kind = .mark .lparen
          · -- What is opened here is closed first.
            have deeper : levelAfter (depth + 2) (kindsOf rest) = some 0 := by
              rw [kindsOf, List.map_cons, opening] at level
              exact level
            obtain ⟨inner, close, behind, rfl, closing, within, level'⟩ :=
              ih rest.length (by simp) deeper rfl
            obtain ⟨inner', close', behind', rfl, closing', within', last⟩ :=
              ih behind.length (by simp; omega) level' rfl
            refine ⟨token :: (inner ++ close :: inner'), close', behind', by simp, closing', ?_,
              last⟩
            have around := within.around.append within'
            simpa [kindsOf, opening, closing] using around
          by_cases closing : token.kind = .mark .rparen
          · refine ⟨[], token, rest, rfl, closing, rfl, ?_⟩
            rw [kindsOf, List.map_cons, closing] at level
            exact level
          · have inert := inert_other opening closing
            rw [kindsOf, List.map_cons, level_inert inert] at level
            obtain ⟨inner, close, behind, rfl, closing', within, last⟩ :=
              ih rest.length (by simp) level rfl
            refine ⟨token :: inner, close, behind, rfl, closing', ?_, last⟩
            exact (balanced_single inert).append within

/-- A parenthesis that the tokens open is closed among them. -/
theorem open_enclosed (balanced : Balanced (kindsOf tokens)) :
    (∃ inner close rest, close.kind = .mark .rparen ∧ Balanced (kindsOf inner) ∧
      Balanced (kindsOf rest) ∧ rest.length < tokens.length ∧
      ∀ tail, expect (.mark .lparen) (tokens ++ tail) = some (inner ++ close :: (rest ++ tail))) ∨
    ∀ tail, Closes tail → expect (.mark .lparen) (tokens ++ tail) = none := by
  cases tokens with
  | nil =>
      refine .inr ?_
      rintro tail ⟨close, after, rfl, closing⟩
      simp [expect, closing]
  | cons token tokens =>
      by_cases opening : token.kind = .mark .lparen
      · have level : levelAfter 1 (kindsOf tokens) = some 0 := by
          rw [Balanced, kindsOf, List.map_cons, opening] at balanced
          exact balanced
        obtain ⟨inner, close, rest, rfl, closing, within, behind⟩ := closed_inside level
        refine .inl ⟨inner, close, rest, closing, within, behind, by simp; omega, fun tail => ?_⟩
        simp [expect, opening]
      · exact .inr fun tail _ => by simp [expect, opening]

/-- What is read up to the parenthesis that closes, and the parenthesis, whatever follows. -/
theorem enclosed_closing {read : Read α} (enclosed : Enclosed read) {inner : List Token}
    {close : Token} (closing : close.kind = .mark .rparen) (within : Balanced (kindsOf inner))
    (change : α → β) :
    ∃ value : Option β, ∀ after, (do
      let (found, rest) ← read (inner ++ close :: after)
      let rest ← expect (.mark .rparen) rest
      some (change found, rest)) = value.map fun value => (value, after) := by
  obtain ⟨result, kept, read_⟩ := enclosed inner within
  have whole (after : List Token) := read_ (close :: after) ⟨close, _, rfl, closing⟩
  simp only [whole]
  cases result with
  | none => exact ⟨none, fun after => rfl⟩
  | some pair =>
      obtain ⟨found, left⟩ := pair
      obtain ⟨balanced, _⟩ := kept found left rfl
      cases left with
      | nil => exact ⟨some (change found), fun after => by simp [expect, closing]⟩
      | cons token left =>
          have other := balanced_not_closing balanced
          exact ⟨none, fun after => by simp [expect, other]⟩

theorem stays_closing {read : Read α} (enclosed : Enclosed read) {inner rest : List Token}
    {close : Token} (closing : close.kind = .mark .rparen) (within : Balanced (kindsOf inner))
    (behind : Balanced (kindsOf rest)) (change : α → β) :
    Stays rest fun tail => (do
      let (value, after) ← read (inner ++ close :: (rest ++ tail))
      let after ← expect (.mark .rparen) after
      some (change value, after)) := by
  obtain ⟨value, found⟩ := enclosed_closing enclosed closing within change
  simp only [found]
  cases value with
  | none => exact stays_none
  | some value => exact stays_some value behind le_rfl

/-! ### Operands -/

theorem enclosed_name : Enclosed readName := by
  intro tokens balanced
  cases tokens with
  | nil =>
      refine stays_none.congr ?_
      rintro tail ⟨close, after, rfl, closing⟩
      simp [readName, closing]
  | cons token rest =>
      simp only [List.cons_append, readName]
      split
      · next name kind =>
          exact stays_some name (balanced_behind (by rw [kind]; rfl) balanced) (by simp)
      · exact stays_none

theorem enclosed_column : Enclosed readColumn := by
  intro tokens balanced
  refine (enclosed_name tokens balanced).bind fun first rest balanced _ => ?_
  simp only
  rcases @expect_enclosed rest (.mark .dot) rfl balanced with
    ⟨behind, balanced', shorter, found⟩ | none_
  · simp only [found]
    refine ((enclosed_name behind balanced').bind fun name rest balanced _ => ?_).longer shorter.le
    exact stays_some (Column.mk first name) balanced le_rfl
  · exact (stays_some (Column.mk none first) balanced le_rfl).congr fun tail closes => by
      simp only [none_ tail closes]

/-- A bound as long as the tokens in front of the parenthesis is never used up. -/
theorem enclosed_separated {separator : TokenKind} (inert : isInert separator = true)
    {item : Read α} (each : Enclosed item) (balanced : Balanced (kindsOf tokens))
    {bound : List Token → List Token} (enough : ∀ tail, tokens.length ≤ (bound tail).length) :
    Stays tokens fun tail => readSeparated separator item (bound tail) (tokens ++ tail) := by
  generalize size : tokens.length = n
  induction n using Nat.strong_induction_on generalizing tokens bound with
  | _ n ih =>
      subst size
      obtain ⟨result, kept, read⟩ := each tokens balanced
      cases result with
      | none =>
          refine stays_none.congr fun tail closes => ?_
          cases bound tail <;> simp [readSeparated, read tail closes]
      | some pair =>
          obtain ⟨value, rest⟩ := pair
          obtain ⟨within, shorter⟩ := kept value rest rfl
          rcases expect_enclosed inert within with ⟨behind, balanced', less, found⟩ | none_
          · have others := @ih behind.length (by omega) behind balanced'
              (fun tail => (bound tail).tail)
              (fun tail => by have := enough tail; rw [List.length_tail]; omega) rfl
            have both := (others.map (value :: ·)).longer (less.le.trans shorter)
            refine both.congr fun tail closes => ?_
            cases limit : bound tail with
            | nil =>
                have := enough tail
                simp only [limit, List.length_nil] at this
                omega
            | cons _ bound =>
                simp only [readSeparated, read tail closes, Option.map_some, List.tail_cons,
                  Option.bind_eq_bind, Option.bind_some, found]
                cases readSeparated separator item bound (behind ++ tail) <;> rfl
          · refine (stays_some [value] within shorter).congr fun tail closes => ?_
            cases bound tail <;> simp [readSeparated, read tail closes, none_ tail closes]

theorem enclosed_operands {operand : Read Operand} (each : Enclosed operand) :
    Enclosed (readOperands operand) := by
  intro tokens balanced
  cases tokens with
  | nil =>
      refine (stays_some [] balanced le_rfl).congr ?_
      rintro tail ⟨close, after, rfl, closing⟩
      simp [readOperands, startsWith, expect, closing]
  | cons token rest =>
      have other := balanced_not_closing balanced
      have separated := @enclosed_separated _ (token :: rest) (.mark .comma) rfl operand each
        balanced
        (fun tail => token :: rest ++ tail) (fun tail => by simp)
      refine separated.congr fun tail _ => ?_
      simp [readOperands, startsWith, expect, other]

theorem stays_span (amount : String) (balanced : Balanced (kindsOf tokens)) :
    Stays tokens fun tail => match readName (tokens ++ tail) with
      | some (unit, rest) => some (Operand.interval (amount ++ " " ++ unit), rest)
      | none => some (.interval amount, tokens ++ tail) := by
  obtain ⟨result, kept, read⟩ := enclosed_name tokens balanced
  cases result with
  | none =>
      refine (stays_some (Operand.interval amount) balanced le_rfl).congr fun tail closes => ?_
      simp [read tail closes]
  | some pair =>
      obtain ⟨unit, rest⟩ := pair
      obtain ⟨within, shorter⟩ := kept unit rest rfl
      refine (stays_some (Operand.interval (amount ++ " " ++ unit)) within shorter).congr
        fun tail closes => ?_
      simp [read tail closes]

theorem enclosed_interval : Enclosed readInterval := by
  intro tokens balanced
  cases tokens with
  | nil =>
      refine stays_none.congr ?_
      rintro tail ⟨close, after, rfl, closing⟩
      simp [readInterval, closing]
  | cons token rest =>
      have longer {run : List Token → Option (Operand × List Token)} (stays : Stays rest run) :
          Stays (token :: rest) run := stays.longer (by simp)
      simp only [List.cons_append, readInterval]
      split
      · next raw kind =>
          exact longer (stays_span _ (balanced_behind (by rw [kind]; rfl) balanced))
      · next digits kind =>
          exact longer (stays_span _ (balanced_behind (by rw [kind]; rfl) balanced))
      · exact stays_none

theorem enclosed_term {args : Read (List Operand)} (inner : Enclosed args) :
    Enclosed (readTerm args) := by
  intro tokens balanced
  cases tokens with
  | nil =>
      refine stays_none.congr ?_
      rintro tail ⟨close, after, rfl, closing⟩
      simp [readTerm, closing]
  | cons token rest =>
      have longer {run : List Token → Option (Operand × List Token)} (stays : Stays rest run) :
          Stays (token :: rest) run := stays.longer (by simp)
      have behind {kind : TokenKind} (same : token.kind = kind) (inert : isInert kind = true) :
          Balanced (kindsOf rest) := balanced_behind (same ▸ inert) balanced
      simp only [List.cons_append, readTerm]
      split
      · next name kind =>
          refine longer ?_
          rcases open_enclosed (behind kind rfl) with
            ⟨inside, close, after, closing, within, last, shorter, found⟩ | none_
          · simp only [found]
            exact (stays_closing inner closing within last (Operand.call name)).longer shorter.le
          rcases @expect_enclosed rest (.mark .dot) rfl (behind kind rfl) with
            ⟨after, within, shorter, found⟩ | none_'
          · have column : Stays after fun tail => (readName (after ++ tail)).bind fun read =>
                some (Operand.column ⟨some name, read.1⟩, read.2) :=
              (enclosed_name after within).bind fun column rest balanced _ =>
                stays_some (Operand.column ⟨some name, column⟩) balanced le_rfl
            refine (column.longer shorter.le).congr fun tail closes => ?_
            simp only [none_ tail closes, found]
            rfl
          · refine (stays_some (Operand.column ⟨none, name⟩) (behind kind rfl) le_rfl).congr
              fun tail closes => ?_
            simp only [none_ tail closes, none_' tail closes]
      · next raw kind => exact longer (stays_some _ (behind kind rfl) le_rfl)
      · next digits kind => exact longer (stays_some _ (behind kind rfl) le_rfl)
      · next kind =>
          refine longer ?_
          cases rest with
          | nil =>
              refine stays_none.congr ?_
              rintro tail ⟨⟨_, _, _, _⟩, after, rfl, closing⟩
              cases closing
              rfl
          | cons second rest =>
              obtain ⟨kind', layout, lexeme, start⟩ := second
              have within := behind kind rfl
              cases kind' with
              | number digits =>
                  exact stays_some _ (balanced_behind rfl within) (by simp)
              | _ => exact stays_none
      · next kind => exact longer (stays_some _ (behind kind rfl) le_rfl)
      · next kind => exact longer (stays_some _ (behind kind rfl) le_rfl)
      · next kind => exact longer (enclosed_interval rest (behind kind rfl))
      · exact stays_none

theorem sign_enclosed (balanced : Balanced (kindsOf tokens)) :
    (∃ sign rest, Balanced (kindsOf rest) ∧ rest.length < tokens.length ∧
      ∀ tail, readSign (tokens ++ tail) = some (sign, rest ++ tail)) ∨
    ∀ tail, Closes tail → readSign (tokens ++ tail) = none := by
  cases tokens with
  | nil =>
      refine .inr ?_
      rintro tail ⟨close, after, rfl, closing⟩
      simp [readSign, closing]
  | cons token rest =>
      simp only [List.cons_append, readSign]
      split
      · next kind =>
          exact .inl ⟨.plus, rest, balanced_behind (by rw [kind]; rfl) balanced, by simp⟩
      · next kind =>
          exact .inl ⟨.minus, rest, balanced_behind (by rw [kind]; rfl) balanced, by simp⟩
      · exact .inr fun _ _ => rfl

theorem enclosed_sum {term : Read Operand} (each : Enclosed term) (left : Operand)
    (balanced : Balanced (kindsOf tokens)) {bound : List Token → List Token}
    (enough : ∀ tail, tokens.length ≤ (bound tail).length) :
    Stays tokens fun tail => readSum term left (bound tail) (tokens ++ tail) := by
  generalize size : tokens.length = n
  induction n using Nat.strong_induction_on generalizing tokens bound left with
  | _ n ih =>
      subst size
      rcases sign_enclosed balanced with ⟨sign, rest, within, less, found⟩ | none_
      · have goesOn : Stays rest fun tail => (term (rest ++ tail)).bind fun right =>
            readSum term (.sum left sign right.1) (bound tail).tail right.2 :=
          (each rest within).bind fun right after balanced shorter => by
            refine @ih after.length (by omega) after (.sum left sign right) balanced
              (fun tail => (bound tail).tail) (fun tail => ?_) rfl
            have := enough tail
            rw [List.length_tail]
            omega
        refine (goesOn.longer less.le).congr fun tail closes => ?_
        -- There is a token left, so the bound is not used up.
        cases limit : bound tail with
        | nil =>
            have := enough tail
            simp only [limit, List.length_nil] at this
            omega
        | cons _ bound =>
            simp only [readSum, found, List.tail_cons]
            rfl
      · refine (stays_some left balanced le_rfl).congr fun tail closes => ?_
        cases bound tail <;> simp [readSum, none_ tail closes]

theorem enclosed_sums {term : Read Operand} (each : Enclosed term) :
    Enclosed fun tokens => (term tokens).bind fun read => readSum term read.1 read.2 read.2 := by
  intro tokens balanced
  refine (each tokens balanced).bind fun first rest within _ => ?_
  exact enclosed_sum each first within fun tail => by simp

theorem enclosed_operand (room : Nat) : Enclosed (readOperand room) := by
  induction room with
  | zero =>
      have whole := enclosed_sums (@enclosed_term (fun _ => none) fun _ _ => stays_none)
      exact fun tokens balanced => (whole tokens balanced).congr fun tail _ => operand_of_terms 0 _
  | succ room ih =>
      have whole := enclosed_sums (enclosed_term (enclosed_operands ih))
      exact fun tokens balanced =>
        (whole tokens balanced).congr fun tail _ => operand_of_terms (room + 1) _

/-- Whether a token was there; there is no other token that it could be taken for. -/
theorem stays_accept {kind : TokenKind} (inert : isInert kind = true)
    (balanced : Balanced (kindsOf tokens)) {next : Bool → List Token → Option (β × List Token)}
    (step : ∀ found rest, Balanced (kindsOf rest) →
      Stays rest fun tail => next found (rest ++ tail)) :
    Stays tokens fun tail =>
      next (accept kind (tokens ++ tail)).1 (accept kind (tokens ++ tail)).2 := by
  rcases expect_enclosed inert balanced with ⟨rest, within, shorter, found⟩ | none_
  · simp only [accept, found]
    exact (step true rest within).longer shorter.le
  · exact (step false tokens balanced).congr fun tail closes => by
      simp only [accept, none_ tail closes]

theorem enclosed_relation {operand : Read Operand} (each : Enclosed operand) (target : Operand)
    (negated : Bool) : Enclosed (readRelation operand target negated) := by
  intro tokens balanced
  have alone (tail : List Token) (closes : Closes tail) :
      readRelation operand target negated tail =
        if negated then none else some (.bare target, tail) := by
    obtain ⟨close, after, rfl, closing⟩ := closes
    simp only [readRelation, closing, endsFragment]
    cases negated <;> rfl
  cases tokens with
  | nil =>
      cases negated with
      | true => exact stays_none.congr alone
      | false => exact (stays_some (Predicate.bare target) balanced le_rfl).congr alone
  | cons token rest =>
      have longer {run : List Token → Option (Predicate × List Token)} (stays : Stays rest run) :
          Stays (token :: rest) run := stays.longer (by simp)
      have behind {kind : TokenKind} (same : token.kind = kind) (inert : isInert kind = true) :
          Balanced (kindsOf rest) := balanced_behind (same ▸ inert) balanced
      simp only [List.cons_append, readRelation]
      split
      · next op kind =>
          split
          · exact stays_none
          · refine longer ((each rest (behind kind rfl)).bind fun right rest balanced _ => ?_)
            exact stays_some (Predicate.compare target op right) balanced le_rfl
      · next kind =>
          refine longer ((each rest (behind kind rfl)).bind fun low rest balanced _ => ?_)
          refine @stays_expect _ _ (.keyword .AND) _ rfl balanced fun rest balanced => ?_
          refine (each rest balanced).bind fun high rest balanced _ => ?_
          exact stays_some (Predicate.between target low high negated) balanced le_rfl
      · next kind =>
          refine longer ((each rest (behind kind rfl)).bind fun pattern rest balanced _ => ?_)
          exact stays_some (Predicate.like target pattern negated) balanced le_rfl
      · next kind =>
          refine longer ?_
          rcases open_enclosed (behind kind rfl) with
            ⟨inside, close, after, closing, within, last, shorter, found⟩ | none_
          · simp only [found]
            exact (stays_closing (enclosed_operands each) closing within last fun values =>
              Predicate.oneOf target values negated).longer shorter.le
          · exact stays_none.congr fun tail closes => by simp only [none_ tail closes]; rfl
      · next kind =>
          split
          · exact stays_none
          · refine longer (@stays_accept _ _ (.keyword .NOT) rfl (behind kind rfl) (fun isNot rest => do
              let rest ← expect (.keyword .NULL) rest
              some (Predicate.isNull target isNot, rest)) fun isNot rest balanced => ?_)
            refine @stays_expect _ _ (.keyword .NULL) _ rfl balanced fun rest balanced => ?_
            exact stays_some (Predicate.isNull target isNot) balanced le_rfl
      · split
        · exact stays_some (Predicate.bare target) balanced le_rfl
        · exact stays_none

theorem enclosed_predicate {operand : Read Operand} (each : Enclosed operand) :
    Enclosed (readPredicate operand) := by
  intro tokens balanced
  refine (each tokens balanced).bind fun target rest balanced _ => ?_
  exact @stays_accept _ _ (.keyword .NOT) rfl balanced (readRelation operand target)
    fun negated rest balanced => enclosed_relation each target negated rest balanced

/-- A fragment ends in front of a parenthesis that it does not open. -/
theorem fragment_enclosed {depth : Nat} (level : levelAfter depth (kindsOf tokens) = some 0)
    {tail : List Token} (closes : Closes tail) :
    splitFragment depth (tokens ++ tail) =
      ((splitFragment depth tokens).1, (splitFragment depth tokens).2 ++ tail) := by
  induction tokens generalizing depth with
  | nil =>
      obtain ⟨close, after, rfl, closing⟩ := closes
      cases level
      simp [splitFragment, closing, endsFragment]
  | cons token rest ih =>
      rcases fragment_step depth token.kind with ⟨-, ends⟩ | ⟨after, step, takes⟩
      · rw [List.cons_append, ends token _ rfl, ends token _ rfl]
        rfl
      · have inner := ih ((step _).symm.trans level)
        rw [List.cons_append, takes token _ rfl, takes token _ rfl, inner]

theorem fragment_inert {token : Token} (inert : isInert token.kind = true) (depth : Nat)
    (rest : List Token) :
    splitFragment (depth + 1) (token :: rest) =
      (token :: (splitFragment (depth + 1) rest).1, (splitFragment (depth + 1) rest).2) := by
  cases kind : token.kind with
  | mark sign => cases sign <;> simp_all [splitFragment, isInert]
  | _ => simp [splitFragment, kind]

/-- Within parentheses, a fragment goes on up to the one that closes them. -/
theorem fragment_within {depth after : Nat} (level : levelAfter depth (kindsOf tokens) = some after)
    (rest : List Token) :
    splitFragment (depth + 1) (tokens ++ rest) =
      (tokens ++ (splitFragment (after + 1) rest).1, (splitFragment (after + 1) rest).2) := by
  induction tokens generalizing depth with
  | nil =>
      cases level
      rfl
  | cons token tokens ih =>
      rw [kindsOf, List.map_cons] at level
      by_cases opening : token.kind = .mark .lparen
      · rw [opening] at level
        simp only [List.cons_append, splitFragment, opening, ih level]
      by_cases closing : token.kind = .mark .rparen
      · rw [closing] at level
        cases depth with
        | zero => cases level
        | succ depth => simp only [List.cons_append, splitFragment, closing, ih level]
      · rw [level_inert (inert_other opening closing)] at level
        rw [List.cons_append, fragment_inert (inert_other opening closing), ih level]
        rfl

theorem enclosed_recovering {condition : Read Expr} (each : Enclosed condition) :
    Enclosed (always (recovering condition)) := by
  intro tokens balanced
  obtain ⟨result, kept, read⟩ := each tokens balanced
  cases result with
  | some pair =>
      obtain ⟨expr, rest⟩ := pair
      obtain ⟨within, shorter⟩ := kept expr rest rfl
      refine (stays_some expr within shorter).congr fun tail closes => ?_
      simp [recovering, read tail closes]
  | none =>
      obtain ⟨whole, ends⟩ := fragment_level 0 tokens
      have within : Balanced (kindsOf (splitFragment 0 tokens).2) := by
        rcases ends with none_ | level
        · rw [none_]
          rfl
        · rw [← whole, kindsOf, List.map_append, Balanced, level_append] at balanced
          rw [kindsOf] at level
          rwa [level] at balanced
      have shorter : (splitFragment 0 tokens).2.length ≤ tokens.length := by
        have parts := congrArg List.length whole
        rw [List.length_append] at parts
        omega
      refine (stays_some (Expr.predicate (.unparsed (sourceText (splitFragment 0 tokens).1))) within
        shorter).congr fun tail closes => ?_
      simp [recovering, read tail closes, fragment_enclosed balanced closes]

theorem enclosed_fold {separator : Keyword} {item : List Token → Expr × List Token}
    (each : Enclosed (always item)) (combine : List Expr → Expr) :
    Enclosed (always fun tokens =>
      (foldItems combine (readItems separator item tokens tokens).1,
        (readItems separator item tokens tokens).2)) := by
  intro tokens balanced
  have items := (@enclosed_separated _ tokens (.keyword separator) rfl _ each balanced
    (fun tail => tokens ++ tail) (fun tail => by simp)).map (foldItems combine)
  refine items.congr fun tail _ => ?_
  rw [← items_separated]
  rfl

section Levels

variable {condition : Read Expr} (conditions : Enclosed condition)

include conditions

theorem enclosed_conjunction : Enclosed (always (readConjunction condition)) :=
  enclosed_fold (enclosed_recovering conditions) .and

theorem enclosed_disjunction : Enclosed (always (readDisjunction condition)) :=
  enclosed_fold (enclosed_conjunction conditions) .or

end Levels

/-! ### Sub-queries -/

theorem selection_enclosed {depth : Nat} (level : levelAfter depth (kindsOf tokens) = some 0) :
    (∃ rest, Balanced (kindsOf rest) ∧ rest.length ≤ tokens.length ∧
      ∀ tail, Closes tail → skipSelection depth (tokens ++ tail) = some (rest ++ tail)) ∨
    ∀ tail, Closes tail → skipSelection depth (tokens ++ tail) = none := by
  induction tokens generalizing depth with
  | nil =>
      cases level
      refine .inr ?_
      rintro tail ⟨close, after, rfl, closing⟩
      simp [skipSelection, closing]
  | cons token rest ih =>
      rcases selection_step depth token.kind with
        ⟨rfl, ends⟩ | ⟨rfl, kind, -⟩ | ⟨after, step, goesOn⟩
      · exact .inl ⟨token :: rest, level, le_rfl, fun tail _ => ends token _ rfl⟩
      · exact absurd kind (balanced_not_closing level)
      · simp only [List.cons_append, goesOn token _ rfl]
        rcases ih ((step _).symm.trans level) with ⟨behind, balanced, shorter, found⟩ | none_
        · exact .inl ⟨behind, balanced, shorter.trans (Nat.le_succ _), found⟩
        · exact .inr none_

theorem stays_selection {next : List Token → List Token → Option (β × List Token)}
    (balanced : Balanced (kindsOf tokens))
    (step : ∀ rest, Balanced (kindsOf rest) → Stays rest fun tail => next tail (rest ++ tail)) :
    Stays tokens fun tail => skipSelection 0 (tokens ++ tail) >>= next tail := by
  rcases selection_enclosed balanced with ⟨rest, within, shorter, found⟩ | none_
  · refine ((step rest within).longer shorter).congr fun tail closes => ?_
    rw [found tail closes]
    rfl
  · exact stays_none.congr fun tail closes => by rw [none_ tail closes]; rfl

theorem enclosed_join : Enclosed readJoin := by
  intro tokens balanced
  refine (enclosed_name tokens balanced).bind fun table rest balanced _ => ?_
  refine @stays_expect _ _ (.keyword .ON) _ rfl balanced fun rest balanced => ?_
  refine (enclosed_column rest balanced).bind fun left rest balanced _ => ?_
  refine @stays_expect _ _ (.comparison .eq) _ rfl balanced fun rest balanced => ?_
  refine (enclosed_column rest balanced).bind fun right rest balanced _ => ?_
  exact stays_some (Join.mk table left right) balanced le_rfl

theorem join_words_enclosed (balanced : Balanced (kindsOf tokens)) :
    (∃ rest, Balanced (kindsOf rest) ∧ rest.length < tokens.length ∧
      ∀ tail, Closes tail → expectJoin (tokens ++ tail) = some (some (rest ++ tail))) ∨
    (0 < tokens.length ∧ ∀ tail, Closes tail → expectJoin (tokens ++ tail) = some none) ∨
    ∀ tail, Closes tail → expectJoin (tokens ++ tail) = none := by
  rcases @expect_enclosed tokens (.keyword .INNER) rfl balanced with
    ⟨rest, within, shorter, inner⟩ | noInner
  · rcases @expect_enclosed rest (.keyword .JOIN) rfl within with
      ⟨behind, within', shorter', join⟩ | noJoin
    · refine .inl ⟨behind, within', shorter'.trans shorter, fun tail _ => ?_⟩
      simp only [expectJoin, inner, join]
    · refine .inr (.inl ⟨Nat.zero_lt_of_lt shorter, fun tail closes => ?_⟩)
      simp only [expectJoin, inner, noJoin tail closes]
  · rcases @expect_enclosed tokens (.keyword .JOIN) rfl balanced with
      ⟨behind, within, shorter, join⟩ | noJoin
    · refine .inl ⟨behind, within, shorter, fun tail closes => ?_⟩
      simp only [expectJoin, noInner tail closes, join, Option.map_some]
    · refine .inr (.inr fun tail closes => ?_)
      simp only [expectJoin, noInner tail closes, noJoin tail closes, Option.map_none]

theorem enclosed_joins (balanced : Balanced (kindsOf tokens)) {bound : List Token → List Token}
    (enough : ∀ tail, tokens.length ≤ (bound tail).length) :
    Stays tokens fun tail => readJoins (bound tail) (tokens ++ tail) := by
  generalize size : tokens.length = n
  induction n using Nat.strong_induction_on generalizing tokens bound with
  | _ n ih =>
      subst size
      rcases join_words_enclosed balanced with ⟨rest, within, less, found⟩ | ⟨some_, broken⟩ | none_
      · -- The words of a join were found: it is read, and then the joins behind it.
        have join : Stays rest fun tail => (readJoin (rest ++ tail)).bind fun first =>
            (readJoins (bound tail).tail first.2).bind fun others =>
              some (first.1 :: others.1, others.2) :=
          (enclosed_join rest within).bind fun first after balanced shorter => by
            have others := @ih after.length (by omega) after balanced
              (fun tail => (bound tail).tail)
              (fun tail => by have := enough tail; rw [List.length_tail]; omega) rfl
            exact others.bind fun others after balanced _ =>
              stays_some (first :: others) balanced le_rfl
        refine (join.longer less.le).congr fun tail closes => ?_
        cases limit : bound tail with
        | nil =>
            have := enough tail
            simp only [limit, List.length_nil] at this
            omega
        | cons _ bound =>
            simp only [readJoins, found tail closes, List.tail_cons]
            rfl
      · refine stays_none.congr fun tail closes => ?_
        cases limit : bound tail with
        | nil =>
            have := enough tail
            simp only [limit, List.length_nil] at this
            omega
        | cons _ bound => simp [readJoins, broken tail closes]
      · refine (stays_some [] balanced le_rfl).congr fun tail closes => ?_
        cases bound tail <;> simp [readJoins, none_ tail closes]

theorem enclosed_optional {keyword : Keyword} {part : Read α} (each : Enclosed part) :
    Enclosed (readOptional keyword part) := by
  intro tokens balanced
  rcases @expect_enclosed tokens (.keyword keyword) rfl balanced with
    ⟨rest, within, shorter, found⟩ | none_
  · refine (((each rest within).map some).longer shorter.le).congr fun tail _ => ?_
    simp only [readOptional, found]
  · refine (stays_some none balanced le_rfl).congr fun tail closes => ?_
    simp only [readOptional, none_ tail closes]

section Queries

variable {condition : Read Expr} {predicate : Read Predicate} (conditions : Enclosed condition)
  (predicates : Enclosed predicate)

include conditions predicates

theorem enclosed_subquery : Enclosed (readSubquery condition predicate) := by
  have filters : Enclosed fun tokens => some (readDisjunction condition tokens) :=
    enclosed_disjunction conditions
  have groups : Enclosed fun tokens => (do readColumn (← expect (.keyword .BY) tokens)) :=
    fun tokens balanced => stays_expect rfl balanced enclosed_column
  intro tokens balanced
  refine @stays_expect _ _ (.keyword .SELECT) _ rfl balanced fun rest balanced => ?_
  refine stays_selection balanced fun rest balanced => ?_
  refine @stays_expect _ _ (.keyword .FROM) _ rfl balanced fun rest balanced => ?_
  refine (enclosed_name rest balanced).bind fun table rest balanced _ => ?_
  refine (enclosed_joins balanced fun tail => by simp).bind fun joins rest balanced _ => ?_
  refine (enclosed_optional filters rest balanced).bind fun filter rest balanced _ => ?_
  refine (enclosed_optional groups rest balanced).bind fun groupBy rest balanced _ => ?_
  refine (enclosed_optional predicates rest balanced).bind fun having rest balanced _ => ?_
  exact stays_some (Subquery.mk table joins filter groupBy having) balanced le_rfl

theorem enclosed_exists (negated : Bool) : Enclosed (readExists negated condition predicate) := by
  intro tokens balanced
  rcases open_enclosed balanced with
    ⟨inside, close, after, closing, within, last, shorter, found⟩ | none_
  · have query := stays_closing (enclosed_subquery conditions predicates) closing within last
      (Expr.exist negated)
    refine (query.longer shorter.le).congr fun tail _ => ?_
    simp only [readExists, found]
    rfl
  · exact stays_none.congr fun tail closes => by simp only [readExists, none_ tail closes]; rfl

/-- The condition that opens a level, with the token that opens it. -/
theorem stays_level {token : Token} (opens : opensLevel token.kind = true) {rest : List Token}
    (balanced : Balanced (kindsOf (token :: rest))) :
    Stays (token :: rest) fun tail => readLevel token.kind condition predicate (rest ++ tail) := by
  have longer {run : List Token → Option (Expr × List Token)} (stays : Stays rest run) :
      Stays (token :: rest) run := stays.longer (by simp)
  simp only [readLevel]
  split
  · next kind =>
      exact longer (enclosed_exists conditions predicates false rest
        (balanced_behind (by rw [kind]; rfl) balanced))
  · next kind =>
      have behind : Balanced (kindsOf rest) := balanced_behind (by rw [kind]; rfl) balanced
      refine longer ?_
      rcases @expect_enclosed rest (.keyword .EXISTS) rfl behind with
        ⟨after, within, shorter, found⟩ | none_
      · simp only [found]
        exact (enclosed_exists conditions predicates true after within).longer shorter.le
      · refine ((conditions rest behind).map Expr.not).congr fun tail closes => ?_
        simp only [none_ tail closes]
  · next exists_ not_ =>
      -- Neither `EXISTS` nor `NOT`: a parenthesis, which the balanced tokens close.
      have kind := level_paren opens exists_ not_
      have level : levelAfter 1 (kindsOf rest) = some 0 := by
        rw [Balanced, kindsOf, List.map_cons, kind] at balanced
        exact balanced
      obtain ⟨inner, close, after, rfl, closing, within, last⟩ := closed_inside level
      have whole := stays_closing (enclosed_disjunction conditions) closing within last Expr.grouped
      refine (whole.longer (by simp; omega)).congr fun tail _ => ?_
      rw [List.append_assoc, List.cons_append]
      rfl

end Queries

theorem enclosed_alone (room : Nat) : Enclosed fun tokens =>
    (readPredicate (readOperand room) tokens).map fun (predicate, rest) =>
      (Expr.predicate predicate, rest) :=
  fun tokens balanced =>
    (enclosed_predicate (enclosed_operand room) tokens balanced).map Expr.predicate

/-- A condition that does not open a level is a predicate. -/
theorem condition_alone (room : Nat) {token : Token} (opens : opensLevel token.kind = false)
    (rest : List Token) :
    readCondition room (token :: rest) =
      (readPredicate (readOperand room) (token :: rest)).map fun (predicate, rest) =>
        (Expr.predicate predicate, rest) := by
  cases room <;> rw [readCondition, opens] <;> rfl

/-- Only the conditions that open a level depend on the levels that are left. -/
theorem enclosed_levels {room : Nat}
    (levels : ∀ token rest, opensLevel token.kind = true → Balanced (kindsOf (token :: rest)) →
      Stays (token :: rest) fun tail => readCondition room (token :: (rest ++ tail))) :
    Enclosed (readCondition room) := by
  intro tokens balanced
  cases tokens with
  | nil =>
      refine (enclosed_alone room [] balanced).congr ?_
      rintro tail ⟨close, after, rfl, closing⟩
      exact condition_alone room (by rw [closing]; rfl) after
  | cons token rest =>
      cases opens : opensLevel token.kind with
      | true => exact levels token rest opens balanced
      | false =>
          exact (enclosed_alone room (token :: rest) balanced).congr fun tail _ =>
            condition_alone room opens _

theorem enclosed_condition (room : Nat) : Enclosed (readCondition room) := by
  induction room with
  | zero =>
      refine enclosed_levels fun token rest opens _ => stays_none.congr fun tail _ => ?_
      rw [readCondition, opens]
      rfl
  | succ room ih =>
      refine enclosed_levels fun token rest opens balanced => ?_
      have level := stays_level ih (enclosed_predicate (enclosed_operand room)) opens balanced
      refine level.congr fun tail _ => ?_
      rw [readCondition, opens]
      rfl

section Parenthesised

variable {opening closing : Token} (opens : opening.kind = .mark .lparen)
  (closes : closing.kind = .mark .rparen) (balanced : Balanced (kindsOf tokens))

include opens closes balanced

theorem condition_enclosed (room : Nat) :
    ∃ result : Option Expr, ∀ layout after,
      readCondition room ({ opening with layout := layout } :: (tokens ++ closing :: after)) =
        result.map fun expr => (expr, after) := by
  cases room with
  | zero => exact ⟨none, fun layout after => by simp [readCondition, opensLevel, opens]⟩
  | succ room =>
      obtain ⟨result, found⟩ :=
        enclosed_closing (enclosed_disjunction (enclosed_condition room)) closes balanced
          Expr.grouped
      refine ⟨result, fun layout after => ?_⟩
      rw [← found after]
      simp [readCondition, opensLevel, readLevel, opens]

/-- A fragment that starts with parentheses goes on behind them. -/
theorem fragment_behind (layout : List Char) (after : List Token) :
    splitFragment 0 ({ opening with layout := layout } :: (tokens ++ closing :: after)) =
      ({ opening with layout := layout } :: (tokens ++ closing :: (splitFragment 0 after).1),
        (splitFragment 0 after).2) := by
  simp [splitFragment, opens, closes, fragment_within balanced]

theorem fragment_parenthesised (layout : List Char) {after : List Token}
    (ends : ∀ token ∈ after.head?, endsFragment token.kind = true) :
    splitFragment 0 ({ opening with layout := layout } :: (tokens ++ closing :: after)) =
      ({ opening with layout := layout } :: (tokens ++ [closing]), after) := by
  have behind : splitFragment 0 after = ([], after) := by
    cases after with
    | nil => rfl
    | cons token rest => exact fragment_ends (ends token rfl) rest
  rw [fragment_behind opens closes balanced, behind]

/-- What is made of parentheses depends neither on the layout in front of them nor on what follows,
also where they are taken as a fragment. -/
theorem recovering_enclosed (room : Nat) :
    ∃ expr, ∀ layout after, (∀ token ∈ after.head?, endsFragment token.kind = true) →
      recovering (readCondition room)
        ({ opening with layout := layout } :: (tokens ++ closing :: after)) = (expr, after) := by
  obtain ⟨result, found⟩ := condition_enclosed opens closes balanced room
  cases result with
  | some expr => exact ⟨expr, fun layout after _ => by simp [recovering, found layout after]⟩
  | none =>
      refine ⟨.predicate (.unparsed (sourceText (opening :: (tokens ++ [closing])))),
        fun layout after ends => ?_⟩
      simp only [recovering, found layout after, Option.map_none,
        fragment_parenthesised opens closes balanced layout ends]
      rfl

end Parenthesised

end Cohort.Sql
