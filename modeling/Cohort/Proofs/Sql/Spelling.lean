import Cohort.Proofs.Recovery.Names
import Cohort.Proofs.Sql.Consuming
import Cohort.Proofs.Sql.Cutting
import Cohort.Sql.Expr.Printer

/-!
Texts that say again what stood in front of some tokens. `Spells text tokens rest` says that the
text is written as the tokens up to `rest`, `Seals` that it is whatever stands behind it, and
`Covers` that it is unless nothing is left. They are put together as the texts are.

The tokens must allow it: they are `Reprintable` if they stand in a text, no name is quoted, every
interval is a plain one, and every sub-query selects the literal `1` from tables that are joined
with `INNER JOIN`.
-/

namespace Cohort.Sql

open Text (quoteMark)

def TokenKind.isName : TokenKind → Bool
  | .identifier _ => true
  | _ => false

/-- If tokens of these kinds start with `INTERVAL`, then one literal without quotes follows, and no
unit behind it. -/
def plainInterval : List TokenKind → Bool
  | .keyword .INTERVAL :: .string raw :: rest =>
      !raw.toList.contains quoteMark && !rest.head?.any TokenKind.isName
  | .keyword .INTERVAL :: _ => false
  | _ => true

def queryAt (tokens : List Token) : Option (List Token) := do
  expect (.keyword .SELECT) (← expect (.mark .lparen) (← expect (.keyword .EXISTS) tokens))

/-- If there is a `FROM`, the literal `1` is all that stands in front of it. -/
def SelectsOne (query : List Token) : Prop :=
  ∀ rest ∈ skipSelection 0 query, expect (.number "1") query = some rest

/-- No name has `JOIN` directly behind it. The tables of a sub-query stand in front of its first
parenthesis, so that is as far as this looks. -/
def JoinsInner (query : List Token) : Prop :=
  ((kindsOf query).takeWhile isInert).IsChain fun kind next =>
    kind.isName = true → next ≠ .keyword .JOIN

instance (query : List Token) : Decidable (SelectsOne query) :=
  inferInstanceAs (Decidable (∀ rest ∈ skipSelection 0 query, _))

instance (query : List Token) : Decidable (JoinsInner query) :=
  inferInstanceAs (Decidable (List.IsChain _ _))

def TokenKind.IsSound : TokenKind → Prop
  | .identifier name => IsPlain name
  | .string raw => ∃ text, raw.toList = Text.doubleQuotes text
  | .number digits => numeral digits.toList = true
  | _ => True

structure Reprintable (tokens : List Token) : Prop where
  stretch : ∃ cs back, pieces cs = tokens.map Token.unplaced ++ back
  sound : ∀ token ∈ tokens, token.kind.IsSound
  intervals : ∀ rest ∈ (kindsOf tokens).tails, plainInterval rest = true
  queries : ∀ rest ∈ tokens.tails, ∀ query ∈ queryAt rest, SelectsOne query ∧ JoinsInner query

theorem Reprintable.behind {front rest : List Token} (whole : Reprintable (front ++ rest)) :
    Reprintable rest where
  stretch := by
    obtain ⟨cs, back, found⟩ := whole.stretch
    rw [List.map_append, List.append_assoc] at found
    obtain ⟨behind, -, last⟩ := last_pieces found
    exact ⟨behind, back, last⟩
  sound := fun token member => whole.sound token (List.mem_append_right front member)
  intervals := by
    intro ks member
    rw [List.mem_tails] at member
    refine whole.intervals ks ((List.mem_tails _ _).mpr (member.trans ?_))
    simp [kindsOf]
  queries := by
    intro behind member
    rw [List.mem_tails] at member
    have member' := (List.mem_tails _ _).mpr (member.trans (List.suffix_append front rest))
    exact whole.queries behind member'

theorem string_doubled {c : Char} {cs : List Char} {raw : String}
    (found : (readToken c cs).1 = .string raw) : ∃ text, raw.toList = Text.doubleQuotes text := by
  revert found
  fun_cases readToken c cs
  case case17 quote raw' rest read =>
    intro found
    obtain ⟨text, shape⟩ := (split_string_shape read).1
    refine ⟨text, ?_⟩
    rw [← shape, ← TokenKind.string.inj found, String.toList_ofList]
  case case22 =>
    simp only [wordKind]
    split <;> simp
  all_goals simp

/-- A number stays one if nothing stands behind it. -/
theorem number_numeral {c : Char} {cs : List Char} {digits : String}
    (found : (readToken c cs).1 = .number digits) : numeral digits.toList = true := by
  revert found
  fun_cases readToken c cs
  case case21 digit more rest read =>
    intro found
    -- What stands behind the number is cut off, all of it.
    have whole := split_number_append cs
    rw [read] at whole
    have cut := @split_number_cut more [] rest (by rw [List.nil_append, whole, read])
    rw [List.append_nil] at cut
    rw [← TokenKind.number.inj found, String.toList_ofList]
    simp [numeral, digit, cut]
  case case22 =>
    simp only [wordKind]
    split <;> simp
  all_goals simp

/-- The tokens of a text are sound if no name is quoted. -/
theorem tokens_sound {text : String} {token : Token} (member : token ∈ tokenize text)
    (unquoted : token.isQuotedName = false) : token.kind.IsSound := by
  obtain ⟨c, cs, read, lexeme⟩ := scan_read member
  cases kind : token.kind with
  | identifier name =>
      simp only [Token.isQuotedName, kind, bne_eq_false_iff_eq, lexeme] at unquoted
      exact unquoted_plain (read.symm.trans kind) unquoted
  | string raw => exact string_doubled (read.symm.trans kind)
  | number digits => exact number_numeral (read.symm.trans kind)
  | _ => trivial

variable {text front back : String} {tokens middle rest : List Token} {ks ls : List TokenKind}

def Passes (ks : List TokenKind) (tokens rest : List Token) : Prop :=
  ∃ front, tokens = front ++ rest ∧ kindsOf front = ks

def Spells (text : String) (tokens rest : List Token) : Prop :=
  ∃ ks, Passes ks tokens rest ∧ Writes text ks

def Seals (text : String) (tokens rest : List Token) : Prop :=
  ∃ ks, Passes ks tokens rest ∧ Closed text ks

/-- The text is written as the tokens up to `rest`; where nothing is left, this may need that
nothing stands behind the text either. -/
def Covers (text : String) (tokens rest : List Token) : Prop :=
  ∃ ks, Passes ks tokens rest ∧ (Writes text ks ∨ rest = [] ∧ kinds text.toList = ks)

theorem passes_none (tokens : List Token) : Passes [] tokens tokens :=
  ⟨[], rfl, rfl⟩

theorem Passes.trans (first : Passes ks tokens middle) (second : Passes ls middle rest) :
    Passes (ks ++ ls) tokens rest := by
  obtain ⟨front, rfl, rfl⟩ := first
  obtain ⟨back, rfl, rfl⟩ := second
  exact ⟨front ++ back, by simp, by simp [kindsOf]⟩

theorem passes_token {token : Token} {kind : TokenKind} (same : token.kind = kind) :
    Passes [kind] (token :: rest) rest :=
  ⟨[token], rfl, by simp [kindsOf, same]⟩

theorem passes_expect {kind : TokenKind} (found : expect kind tokens = some rest) :
    Passes [kind] tokens rest := by
  obtain ⟨token, rfl, same⟩ := expect_some found
  exact passes_token same

theorem Passes.kinds_eq (passes : Passes ks tokens rest) : kindsOf tokens = ks ++ kindsOf rest := by
  obtain ⟨front, rfl, rfl⟩ := passes
  simp [kindsOf]

theorem Passes.reprintable (passes : Passes ks tokens rest) (whole : Reprintable tokens) :
    Reprintable rest := by
  obtain ⟨front, rfl, rfl⟩ := passes
  exact whole.behind

theorem Passes.some_left (passes : Passes ks tokens rest) (left_ : rest ≠ []) : tokens ≠ [] := by
  obtain ⟨front, rfl, rfl⟩ := passes
  simp [left_]

theorem Seals.spells (seals : Seals text tokens rest) : Spells text tokens rest := by
  obtain ⟨ks, passes, closed⟩ := seals
  exact ⟨ks, passes, closed.writes⟩

theorem Spells.covers (spells : Spells text tokens rest) : Covers text tokens rest := by
  obtain ⟨ks, passes, writes⟩ := spells
  exact ⟨ks, passes, .inl writes⟩

theorem Covers.reprintable (covers : Covers text tokens rest) (whole : Reprintable tokens) :
    Reprintable rest := by
  obtain ⟨ks, passes, -⟩ := covers
  exact passes.reprintable whole

theorem Spells.reprintable (spells : Spells text tokens rest) (whole : Reprintable tokens) :
    Reprintable rest :=
  spells.covers.reprintable whole

theorem Seals.reprintable (seals : Seals text tokens rest) (whole : Reprintable tokens) :
    Reprintable rest :=
  seals.spells.reprintable whole

theorem Covers.some_left (covers : Covers text tokens rest) (left_ : rest ≠ []) : tokens ≠ [] := by
  obtain ⟨ks, passes, -⟩ := covers
  exact passes.some_left left_

theorem Passes.seals (passes : Passes ks tokens rest) (closed : Closed text ks) :
    Seals text tokens rest :=
  ⟨ks, passes, closed⟩

theorem Passes.spells (passes : Passes ks tokens rest) (writes : Writes text ks) :
    Spells text tokens rest :=
  ⟨ks, passes, writes⟩

theorem seals_blank (tokens : List Token) : Seals " " tokens tokens :=
  (passes_none tokens).seals (closed_text (by decide) rfl)

theorem spells_empty (tokens : List Token) : Spells "" tokens tokens :=
  (passes_none tokens).spells writes_empty

theorem Seals.trans (first : Seals front tokens middle) (second : Seals back middle rest) :
    Seals (front ++ back) tokens rest := by
  obtain ⟨ks, passes, closed⟩ := first
  obtain ⟨ls, passes', closed'⟩ := second
  exact (passes.trans passes').seals (closed.append closed')

theorem Seals.then (first : Seals front tokens middle) (second : Spells back middle rest) :
    Spells (front ++ back) tokens rest := by
  obtain ⟨ks, passes, closed⟩ := first
  obtain ⟨ls, passes', writes⟩ := second
  exact (passes.trans passes').spells (closed.then writes)

theorem Spells.close (first : Spells front tokens middle) (second : Seals back middle rest)
    (opens : Opens back) : Seals (front ++ back) tokens rest := by
  obtain ⟨ks, passes, writes⟩ := first
  obtain ⟨ls, passes', closed⟩ := second
  exact (passes.trans passes').seals (writes.close closed opens)

theorem Spells.append (first : Spells front tokens middle) (second : Spells back middle rest)
    (separates : Separates back) : Spells (front ++ back) tokens rest := by
  obtain ⟨ks, passes, writes⟩ := first
  obtain ⟨ls, passes', writes'⟩ := second
  exact (passes.trans passes').spells (writes.append writes' separates)

theorem Spells.blank (first : Spells text tokens rest) : Seals (text ++ " ") tokens rest :=
  first.close (seals_blank rest) (opens_text (by decide))

/-- Written tokens behind a text that may stand in front of anything. -/
theorem Seals.word (first : Seals front tokens middle) (word : String)
    (passes : Passes ks middle rest) (ends : endsClosed word.toList = true)
    (scanned : kinds word.toList = ks) : Seals (front ++ word) tokens rest :=
  first.trans (passes.seals (closed_text ends scanned))

/-- Written tokens behind a text, with a separator between them. -/
theorem Spells.word (first : Spells front tokens middle) (word : String)
    (passes : Passes ks middle rest) (ends : endsClosed word.toList = true)
    (scanned : kinds word.toList = ks) (opens : word.toList.head?.any isSeparator = true) :
    Seals (front ++ word) tokens rest :=
  first.close (passes.seals (closed_text ends scanned)) (opens_text opens)

theorem Covers.spells (covers : Covers text tokens rest) (left_ : rest ≠ []) :
    Spells text tokens rest := by
  obtain ⟨ks, passes, writes | ⟨none_, -⟩⟩ := covers
  · exact passes.spells writes
  · exact absurd none_ left_

theorem Seals.cover (first : Seals front tokens middle) (second : Covers back middle rest) :
    Covers (front ++ back) tokens rest := by
  obtain ⟨ks, passes, closed⟩ := first
  obtain ⟨ls, passes', writes | ⟨none_, scanned⟩⟩ := second
  · exact ⟨ks ++ ls, passes.trans passes', .inl (closed.then writes)⟩
  · refine ⟨ks ++ ls, passes.trans passes', .inr ⟨none_, ?_⟩⟩
    rw [String.toList_append, closed, scanned]

theorem Covers.kinds_eq (covers : Covers text tokens rest) :
    kindsOf (tokenize text) ++ kindsOf rest = kindsOf tokens := by
  obtain ⟨ks, passes, scanned⟩ := covers
  rw [passes.kinds_eq]
  rcases scanned with writes | ⟨-, scanned⟩
  · rw [writes.kinds_eq]
  · rw [kinds_of_tokenize, scanned]

end Cohort.Sql
