import Cohort.Proofs.Sql.Accepting

/-!
Operands that are read again off their printed form. The printer doubles the quotes of a string but
writes the text of an interval as it stands, so an operand is read again just if no interval in it
holds a quote.

That it is read again then is what printing and reading say of normal operands. For the other half
the reader is followed through the printed form of an operand that it makes of it: as long as no
interval with a quote was passed, it stands where the printer stood, and at the first such interval
it makes something else of the literal.
-/

namespace Cohort.Sql

open Text (quoteMark)

variable {α : Type} {room : Nat} {tokens middle rest : List Token} {operand : Operand}
  {after : List Char}

/-! ### Literals whose quotes are not doubled -/

theorem single_quote {front after : List Char} (first : front.head? ≠ some quoteMark)
    (stops : after.head? ≠ some quoteMark) :
    ¬ [quoteMark, quoteMark] <+: front ++ quoteMark :: after := by
  rintro ⟨back, shape⟩
  cases front with
  | nil => simp [← (List.cons.inj shape).2] at stops
  | cons c front => simp [← (List.cons.inj shape).1] at first

/-- If a text with a quote is put into a literal as it stands, the literal is not read as the text,
and not as the start of the text in front of something else than a quote either. -/
theorem literal_unquoted {text raw tail after behind : List Char}
    (found : splitString (text ++ quoteMark :: after) = some (raw, behind))
    (same : text = Text.undoubleQuotes raw ++ tail) (first : tail.head? ≠ some quoteMark)
    (stops : after.head? ≠ some quoteMark) : quoteMark ∉ text := by
  obtain ⟨inner, rfl⟩ := (split_string_shape found).1
  rw [Text.undouble_double] at same
  subst same
  have whole := split_string_append found
  rw [List.append_assoc] at whole
  have plain := Text.double_quotes_same (single_quote first stops) whole
  -- Without quotes, the literal ends where it was closed, so nothing of the text stands behind it.
  rw [Text.double_quotes_none plain, List.append_cancel_left_eq] at whole
  cases tail with
  | nil => simpa using plain
  | cons c tail => simp [(List.cons.inj whole).1] at first

theorem read_token_quote (body : List Char) : (readToken quoteMark body).1 =
    match splitString body with
    | some (raw, _) => .string (String.ofList raw)
    | none => .illegal := by
  cases found : splitString body with
  | none => simp [readToken, quoteMark, found]
  | some result => simp [readToken, quoteMark, found]

theorem interval_unquoted {text : String} (stops : after.head? ≠ some quoteMark)
    (shape : kindsOf tokens = kinds (quoteMark :: (text.toList ++ quoteMark :: after)))
    (found : readInterval tokens = some (.interval text, rest)) : IsUnquoted text := by
  have starts (body : List Char) : StartsToken quoteMark body := by
    simp [StartsToken, Text.isBlank, quoteMark]
  rw [kinds_token (starts _), read_token_quote] at shape
  obtain ⟨token, behind, rfl, kind, -⟩ := kinds_of_cons shape
  cases literal : splitString (text.toList ++ quoteMark :: after) with
  | none =>
      rw [literal] at kind
      simp [readInterval, kind] at found
  | some result =>
      obtain ⟨raw, last⟩ := result
      rw [literal] at kind
      simp only [readInterval, kind, String.toList_ofList, Option.bind_eq_bind,
        Option.bind_some] at found
      -- A name behind the literal is a unit, which the reader puts behind a blank.
      split at found
      · next unit _ _ =>
          simp only [Option.some.injEq, Prod.mk.injEq, Operand.interval.injEq] at found
          have shape : text.toList = Text.undoubleQuotes raw ++ ' ' :: unit.toList := by
            simp [← found.1]
          exact literal_unquoted literal shape (by simp [quoteMark]) stops
      · simp only [Option.some.injEq, Prod.mk.injEq, Operand.interval.injEq] at found
        have shape : text.toList = Text.undoubleQuotes raw ++ [] := by simp [← found.1]
        exact literal_unquoted literal shape (by simp) stops

theorem yields_term_within {good : TokenKind → Prop} (room : Nat) (made : Made good tokens) :
    Yields good (termWithin room tokens) (IsTerm good room) := by
  cases room with
  | zero => exact yields_term (fun _ _ => yields_none) made
  | succ room =>
      exact yields_term (fun _ => yields_arguments fun _ => yields_operand room) made

theorem term_within_single (found : termWithin room tokens = some (operand, rest)) :
    operand.isSum = false := by
  have made : Made (fun _ => True) tokens := fun _ _ => trivial
  exact (yields_term_within room made operand rest found).1.2

/-- Behind an operand that was read off its own tokens stands what stood behind these. -/
theorem ReadsSum.left_behind {ks : List TokenKind}
    (read : ReadsSum (termWithin room) tokens operand rest)
    (built : operand.Built TokenKind.IsSound IsUnquoted) (enough : operand.levels ≤ room)
    (shape : kindsOf tokens = operand.kinds ++ ks)
    (ends : ∀ kind ∈ ks.head?, endsTerm kind = true) : kindsOf rest = ks := by
  induction read generalizing ks with
  | term found =>
      have term := (operand_accepted built enough).term (term_within_single found)
      exact (term.found shape ends found).2
  | @sum left right sign middle behind rest before signed found ih =>
      obtain ⟨first, second, single⟩ := built
      obtain ⟨here, there⟩ := max_le_iff.mp enough
      have front : kindsOf middle = .mark sign.mark :: (right.kinds ++ ks) :=
        ih first here (by simpa [Operand.kinds] using shape)
          (by cases sign <;> simp [Sign.mark, endsTerm])
      rw [(passes_expect signed).kinds_eq] at front
      have term := (operand_accepted second there).term single
      exact (term.found (List.cons.inj front).2 ends found).2

def UnquotedIfRead (operand : Operand) : Prop :=
  ∀ {room : Nat} {tokens rest : List Token} {after : List Char},
    operand.Fits TokenKind.IsSound room → Separated after →
    kindsOf tokens = kinds (operand.print.toList ++ after) →
    ReadsSum (termWithin room) tokens operand rest → ∀ text ∈ operand.intervals, IsUnquoted text

theorem arguments_unquoted {args : List Operand}
    (read : ReadsSeparated (.mark .comma) (readOperand room) tokens args rest)
    (each : ∀ arg ∈ args, UnquotedIfRead arg)
    (fits : ∀ arg ∈ args, arg.Fits TokenKind.IsSound room)
    (shape : kindsOf tokens = kinds ((printOperands args).toList ++ ')' :: after)) :
    ∀ arg ∈ args, ∀ text ∈ arg.intervals, IsUnquoted text := by
  induction read with
  | @last tokens rest first here =>
      have closing : Separated (')' :: after) := separated_head rfl after
      have shape : kindsOf tokens = kinds (first.print.toList ++ ')' :: after) := by
        simpa [printOperands, Operand.printAll] using shape
      rw [List.forall_mem_singleton] at each fits ⊢
      exact each fits closing shape (operand_found here)
  | @more tokens middle behind rest first others here found next ih =>
      rw [List.forall_mem_cons] at each fits ⊢
      have comma : Closed ", " [.mark .comma] := closed_text (by decide) rfl
      have opens : Opens ", " := opens_text (by decide)
      rw [print_operands_cons first next.ne_nil, String.toList_append, String.toList_append,
        List.append_assoc, List.append_assoc] at shape
      have read := operand_found here
      have unquoted := each.1 fits.1 (opens _) shape read
      -- The first argument holds no quote, so the comma is found where it was written.
      have plain := fits.1.built.spans unquoted
      rw [writes_operand plain _ (opens _), comma] at shape
      have front := read.left_behind plain fits.1.low shape (by simp [endsTerm])
      rw [(passes_expect found).kinds_eq] at front
      exact ⟨unquoted, ih each.2 fits.2 (List.cons.inj front).2⟩

theorem unquoted_if_read (operand : Operand) : UnquotedIfRead operand := by
  induction operand using Operand.induction with
  | interval text =>
      intro room tokens rest after _ separated shape read
      have keyword : Closed "INTERVAL " [.keyword .INTERVAL] := closed_text (by decide) rfl
      have body : (Operand.interval text).print.toList ++ after =
          "INTERVAL ".toList ++ (quoteMark :: (text.toList ++ quoteMark :: after)) := by
        simp [Operand.print, quoteMark]
      rw [body, keyword] at shape
      obtain ⟨token, behind, rfl, kind, shape⟩ := kinds_of_cons shape
      cases read with
      | term found =>
          have found : readInterval behind = some (.interval text, rest) := by
            cases room <;> simpa [termWithin, readTerm, kind] using found
          simpa [Operand.intervals] using interval_unquoted separated.no_quote shape found
  | call name args ih =>
      intro room tokens rest after fits separated shape read
      obtain ⟨⟨named, built⟩, low⟩ := fits
      cases room with
      | zero => cases low
      | succ room =>
          have built := operands_built.mp built
          have low := operand_levels_le.mp (Nat.le_of_succ_le_succ low)
          have opening : Closed "(" [.mark .lparen] := closed_text (by decide) rfl
          have front := (writes_name named).close opening (opens_text (by decide))
          have body : (Operand.call name args).print.toList ++ after =
              (name ++ "(").toList ++ ((printOperands args).toList ++ ')' :: after) := by
            simp [Operand.print, printOperands]
          rw [body, front] at shape
          obtain ⟨token, behind, rfl, kind, shape⟩ := kinds_of_cons shape
          obtain ⟨inside, opened, shape⟩ := expect_same shape
          cases read with
          | term found =>
              simp only [termWithin, readTerm, kind, opened] at found
              obtain ⟨⟨values, last⟩, filled, found⟩ := Option.bind_eq_some_iff.mp found
              obtain ⟨closed, closing, same⟩ := Option.bind_eq_some_iff.mp found
              cases same
              cases operands_found filled with
              | nothing => simp [Operand.intervals, Operand.intervalsOf]
              | listed read =>
                  intro text within
                  obtain ⟨arg, member, inside⟩ := intervals_of_mem.mp within
                  exact arguments_unquoted read ih
                    (fun arg found => ⟨built arg found, low arg found⟩) shape arg member text inside
  | sum left sign right ihLeft ihRight =>
      intro room tokens rest after fits separated shape read
      obtain ⟨⟨first, second, -⟩, low⟩ := fits
      obtain ⟨here, there⟩ := max_le_iff.mp low
      cases read with
      | term found => cases term_within_single found
      | sum before signed found =>
          have opens := opens_spaced sign.symbol
          have body : (Operand.sum left sign right).print.toList ++ after =
              left.print.toList ++ ((" " ++ sign.symbol ++ " ").toList ++
                (right.print.toList ++ after)) := by simp [Operand.print]
          rw [body] at shape
          have front := ihLeft ⟨first, here⟩ (opens _) shape before
          -- The left part holds no quote, so the sign is found where it was written.
          have plain := first.spans front
          rw [writes_operand plain _ (opens _), closed_sign] at shape
          have behind := before.left_behind plain here shape
            (by cases sign <;> simp [Sign.mark, endsTerm])
          rw [(passes_expect signed).kinds_eq] at behind
          have back := ihRight ⟨second, there⟩ separated (List.cons.inj behind).2 (.term found)
          exact fun text within => (List.mem_append.mp within).elim (front text) (back text)
  | _ =>
      intro room tokens rest after _ _ _ _
      simp [Operand.intervals]

/-- An operand that is read anywhere in a text, at any depth, is read again off its printed form, and
nothing is left, just if no interval in it holds a quote. -/
theorem operand_read_again_iff {text : String} {tokens rest : List Token} {operand : Operand}
    {room again : Nat} (part : tokens <:+ tokenize text)
    (unquoted : ∀ token ∈ tokens, token.isQuotedName = false) (enough : room ≤ again)
    (found : readOperand room tokens = some (operand, rest)) :
    readOperand again (tokenize operand.print) = some (operand, []) ↔
      ∀ span ∈ operand.intervals, IsUnquoted span := by
  have made : Made TokenKind.IsSound tokens :=
    fun token member => tokens_sound (part.subset member) (unquoted token member)
  obtain ⟨⟨built, low⟩, -⟩ := yields_operand room made operand rest found
  have fits : operand.Fits TokenKind.IsSound again := ⟨built, low.trans enough⟩
  have shape : kindsOf (tokenize operand.print) = kinds (operand.print.toList ++ []) := by
    rw [List.append_nil, kinds_of_tokenize]
  constructor
  · intro read
    exact unquoted_if_read operand fits separated_nil shape (operand_found read)
  · intro plain
    have plain := built.spans plain
    rw [writes_operand plain _ separated_nil] at shape
    obtain ⟨last, read, nothing⟩ := (operand_accepted plain fits.low).reads _ _ shape (by simp)
    obtain rfl : last = [] := List.map_eq_nil_iff.mp nothing
    exact read

def overdueText : String :=
  "t.d >= f(a.b, 'it''s', -1.5, NULL, *) + g() - INTERVAL '7' day + INTERVAL 30 DAY - " ++
    "INTERVAL '2 weeks' AND 1 = 1"

theorem overdue_read_again :
    ∃ operand rest, readOperand 1 ((tokenize overdueText).drop 4) = some (operand, rest) ∧
      operand.print = "f(a.b, 'it''s', -1.5, NULL, *) + g() - INTERVAL '7 day' + " ++
        "INTERVAL '30 DAY' - INTERVAL '2 weeks'" ∧
      readOperand maxNesting (tokenize operand.print) = some (operand, []) := by
  have checked : ((readOperand 1 ((tokenize overdueText).drop 4)).any fun result =>
      decide (result.1.print = "f(a.b, 'it''s', -1.5, NULL, *) + g() - INTERVAL '7 day' + " ++
          "INTERVAL '30 DAY' - INTERVAL '2 weeks'" ∧
        ∀ span ∈ result.1.intervals, quoteMark ∉ span.toList)) = true := by decide +kernel
  obtain ⟨⟨operand, rest⟩, read, holds⟩ := Option.any_eq_true _ _ |>.mp checked
  obtain ⟨printed, plain⟩ := of_decide_eq_true holds
  have law := operand_read_again_iff (List.drop_suffix 4 (tokenize overdueText))
    (by decide +kernel) (show 1 ≤ maxNesting by decide) read
  exact ⟨operand, rest, read, printed, law.mpr plain⟩

/-- The quote of an interval ends the literal it is printed in, and what is behind it is taken for
a unit. -/
theorem quoted_span_not_read_again :
    (∀ token ∈ tokenize "INTERVAL 'it''s'", token.isQuotedName = false) ∧
      readOperand maxNesting (tokenize "INTERVAL 'it''s'") = some (.interval "it's", []) ∧
      readOperand maxNesting (tokenize (Operand.interval "it's").print) ≠
        some (.interval "it's", []) := by
  refine ⟨by decide +kernel, rfl, fun same => ?_⟩
  have other : (readOperand maxNesting (tokenize (Operand.interval "it's").print)).map
      (fun result => result.1.intervals) = some ["it s"] := by decide +kernel
  simp [same, Operand.intervals] at other

end Cohort.Sql
