import Cohort.Proofs.Sql.Coverage

/-!
Texts laid out anew. The characters of each token are scanned as this token wherever a blank or
nothing stands behind them, so a text may be written with other blanks and comments between its
tokens: they neither run together nor fall apart.
-/

namespace Cohort.Sql

open Text (isBlank quoteMark)

structure IsGap (separator : List Char) : Prop where
  layout : Layout separator
  first : ∃ c ∈ separator.head?, isBlank c = true

inductive Spaced : List (List Char) → List Char → Prop where
  | nothing : Spaced [] []
  | last (slice : List Char) : Spaced [slice] slice
  | next {slice other separator rest : List Char} {others : List (List Char)}
      (gap : IsGap separator) (behind : Spaced (other :: others) rest) :
      Spaced (slice :: other :: others) (slice ++ separator ++ rest)

theorem IsGap.apart {separator : List Char} (gap : IsGap separator) (rest : List Char) :
    Breaks (separator ++ rest) ∧ (separator ++ rest).head? ≠ some quoteMark ∧
      (separator ++ rest).head? ≠ some '-' := by
  obtain ⟨c, head, white⟩ := gap.first
  have first : (separator ++ rest).head? = some c := head_append head rest
  obtain ⟨breaks, unquoted, hyphen⟩ := idle_outside (.inl white)
  rw [first]
  refine ⟨fun d found => ?_, fun quote => ?_, by simpa using hyphen⟩
  · obtain rfl : c = d := Option.some.inj (first.symm.trans found)
    exact breaks
  · obtain rfl : c = quoteMark := Option.some.inj quote
    revert unquoted
    decide

/-- The characters of a token are read as the token where nothing stands behind them. -/
theorem piece_read {cs : List Char} {token : Token} (found : token ∈ pieces cs) :
    ∃ c more, token.lexeme = c :: more ∧ StartsToken c more ∧
      readToken c more = (token.kind, more, []) := by
  obtain ⟨front, back, split⟩ := List.append_of_mem found
  obtain ⟨behind, -, tokens⟩ := last_pieces split
  obtain ⟨c, more, rest, shape, layout, read, same, -⟩ := first_piece tokens
  have starts := (@split_layout_cut c token.layout more rest false (shape ▸ layout)).2
  refine ⟨c, more, congrArg Token.lexeme same, ⟨starts.1, fun both => ?_⟩, ?_⟩
  · exact starts.2 ⟨both.1, head_append both.2 rest⟩
  · simpa using @read_token_cut c token.kind more [] rest (by simpa using read)

theorem tokenize_lexeme {cs : List Char} {token : Token} (found : token ∈ pieces cs) :
    tokenize (String.ofList token.lexeme) = [{ token with layout := [], start := 0 }] := by
  obtain ⟨c, more, lexeme, starts, read⟩ := piece_read found
  have none_ (bound offset : Nat) : scan bound offset [] = [] := by cases bound <;> rfl
  simp only [tokenize, String.toList_ofList, lexeme, List.length_cons, scan,
    split_layout_token starts, read, none_]
  rfl

/-- A token that has an end, if it needs one, is the same in front of a gap. -/
theorem kinds_spaced {cs separator rest : List Char} {token : Token} (found : token ∈ pieces cs)
    (closed : token.isUnterminated = false) (gap : IsGap separator) :
    kinds (token.lexeme ++ separator ++ rest) = token.kind :: kinds rest := by
  obtain ⟨c, more, lexeme, starts, read⟩ := piece_read found
  obtain ⟨breaks, unquoted, hyphen⟩ := gap.apart rest
  have ends : ((readToken c more).1 == .illegal && opensQuote c) = false := by
    simpa [Token.isUnterminated, lexeme, read] using closed
  rw [List.append_assoc, lexeme, List.cons_append,
    kinds_token (starts_token_append starts hyphen), read_token_apart ends breaks unquoted, read]
  exact congrArg _ (kinds_layout gap.layout rest)

/-- The last tokens of a text, written behind one another with gaps between them, are the same
tokens. -/
theorem kinds_last_spaced {cs text : List Char} {slices : List (List Char)}
    (spaced : Spaced slices text) {front back : List Token} (split : pieces cs = front ++ back)
    (own : back.map Token.lexeme = slices) : kinds text = kindsOf back := by
  induction spaced generalizing front back with
  | nothing =>
      obtain rfl : back = [] := List.map_eq_nil_iff.mp own
      rfl
  | last slice =>
      obtain ⟨token, rfl, rfl⟩ := List.map_eq_singleton_iff.mp own
      have found : token ∈ pieces cs := by simp [split]
      have alone := congrArg kindsOf (tokenize_lexeme found)
      rwa [kinds_of_tokenize, String.toList_ofList] at alone
  | @next slice other separator rest others gap behind ih =>
      obtain ⟨token, tokens, rfl, rfl, others_⟩ := List.map_eq_cons_iff.mp own
      have found : token ∈ pieces cs := by simp [split]
      have cut : pieces cs = (front ++ [token]) ++ tokens := by simp [split]
      -- A literal without its end takes the rest of a text in, so this token is none.
      have closed : token.isUnterminated = false := by
        by_contra unterminated
        have open_ : token.isUnterminated = true := by simpa using unterminated
        have none_ := @unterminated_last cs _ tokens cut token (by simp) open_
        simp [none_] at others_
      rw [kinds_spaced found closed gap, ih cut others_]
      rfl

/-- The tokens of a text stay what they are if other blanks and comments are put between them, as
long as a blank comes first. Each of them is the only token of its own characters. -/
theorem lexing_free_of_layout (text : String) :
    (∀ spaced : String, Spaced ((tokenize text).map Token.lexeme) spaced.toList →
      kindsOf (tokenize spaced) = kindsOf (tokenize text)) ∧
    ∀ token ∈ tokenize text,
      tokenize (String.ofList token.lexeme) = [{ token with layout := [], start := 0 }] := by
  have lexemes : (pieces text.toList).map Token.lexeme = (tokenize text).map Token.lexeme := by
    simp only [pieces, List.map_map]
    rfl
  constructor
  · intro spaced layout
    rw [kinds_of_tokenize, kinds_of_tokenize, ← kinds_of_pieces text.toList]
    exact @kinds_last_spaced _ _ _ layout [] _ rfl lexemes
  · intro token member
    have found : token.unplaced ∈ pieces text.toList := List.mem_map_of_mem member
    have alone := tokenize_lexeme found
    exact alone

/-- A sign in front of a comparison, and a literal without its end behind a comment with a quote. -/
theorem illegal_characters_respaced :
    Spaced ((tokenize "!!=1.'it").map Token.lexeme) "! != 1\t.\n--'\n'it".toList ∧
      kindsOf (tokenize "! != 1\t.\n--'\n'it") = kindsOf (tokenize "!!=1.'it") ∧
      kindsOf (tokenize "!!=1.'it") =
        [.illegal, .comparison .ne, .number "1", .mark .dot, .illegal] := by
  have single {c : Char} (white : isBlank c = true) : IsGap [c] :=
    ⟨.blank white .nothing, c, rfl, white⟩
  have comment : IsGap ['\n', '-', '-', quoteMark, '\n'] :=
    ⟨.blank (by decide) (@Layout.comment [quoteMark] [] (by decide) .nothing), '\n', rfl, by decide⟩
  have spaced : Spaced ((tokenize "!!=1.'it").map Token.lexeme) "! != 1\t.\n--'\n'it".toList :=
    .next (single (by decide)) (.next (single (by decide)) (.next (single (by decide))
      (.next comment (.last _))))
  exact ⟨spaced, (lexing_free_of_layout _).1 _ spaced, by decide +kernel⟩

end Cohort.Sql
