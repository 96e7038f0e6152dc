import Cohort.Proofs.Sql.Ending

/-!
Stretches of tokens cut out of a text. The text of a stretch, from its first lexeme to its last, is
scanned as the tokens of the stretch, in front of a separator or where the text ends. And a text
that does not end within a literal or a comment is scanned as the same tokens in front of a
separator.
-/

namespace Cohort.Sql

open Text (isBlank quoteMark)

theorem take_while_cut {keep : Char → Bool} {more rest behind : List Char}
    (taken : (more ++ (rest ++ behind)).takeWhile keep = more)
    (dropped : (more ++ (rest ++ behind)).dropWhile keep = rest ++ behind) :
    (more ++ rest).takeWhile keep = more ∧ (more ++ rest).dropWhile keep = rest := by
  have kept : ∀ d ∈ more, keep d = true := fun d member =>
    List.mem_takeWhile_imp (taken.symm ▸ member)
  have stops : ∀ d ∈ rest.head?, keep d = false := by
    intro d first
    have stop := List.head?_dropWhile_not keep (more ++ (rest ++ behind))
    rw [dropped] at stop
    cases rest with
    | nil => cases first
    | cons e rest =>
        cases first
        simpa using stop
  have whole := take_while_before more stops
  rw [List.takeWhile_eq_self_iff.mpr kept, List.dropWhile_eq_nil_iff.mpr kept] at whole
  exact whole

theorem split_number_cut {more rest behind : List Char}
    (found : splitNumber (more ++ (rest ++ behind)) = (more, rest ++ behind)) :
    splitNumber (more ++ rest) = (more, rest) := by
  simp only [splitNumber] at found
  split at found
  · next d tail shape =>
      split_ifs at found with digit
      · -- The digits, the point, and the digits behind it, of which there is at least one.
        obtain ⟨taken, dropped⟩ := Prod.mk.inj found
        have digits : ∀ e ∈ (more ++ (rest ++ behind)).takeWhile Char.isDigit, e.isDigit = true :=
          fun e member => List.mem_takeWhile_imp member
        generalize (more ++ (rest ++ behind)).takeWhile Char.isDigit = whole at taken digits
        have fraction := @List.takeWhile_append_dropWhile _ Char.isDigit (d :: tail)
        rw [dropped] at fraction
        have cut := @take_while_cut Char.isDigit ((d :: tail).takeWhile Char.isDigit) rest behind
          (by rw [fraction]) (by rw [fraction, dropped])
        have front := @take_while_before Char.isDigit whole
          ('.' :: ((d :: tail).takeWhile Char.isDigit ++ rest)) (by simp)
        rw [List.takeWhile_eq_self_iff.mpr digits, List.dropWhile_eq_nil_iff.mpr digits] at front
        rw [List.takeWhile_cons_of_pos digit] at taken cut front
        have shape' : more ++ rest =
            whole ++ '.' :: (d :: tail.takeWhile Char.isDigit ++ rest) := by
          rw [← taken, List.append_assoc, List.cons_append]
        rw [shape', splitNumber, front.1, front.2]
        simp only [List.nil_append, List.cons_append, digit, ↓reduceIte] at cut ⊢
        rw [cut.1, cut.2, taken]
      · obtain ⟨taken, dropped⟩ := Prod.mk.inj found
        have cut := take_while_cut taken (shape.trans dropped)
        simp only [splitNumber, cut.1, cut.2]
        split
        · next e after =>
            have same : d = e := (List.cons.inj (List.cons.inj dropped).2).1
            simp [← same, digit]
        · rfl
  · next other =>
      obtain ⟨taken, dropped⟩ := Prod.mk.inj found
      have cut := take_while_cut taken dropped
      simp only [splitNumber, cut.1, cut.2]
      split
      · next e after => exact (other e (after ++ behind) dropped).elim
      · rfl

/-- A token is the same if the text behind it is cut off. -/
theorem read_token_cut {c : Char} {kind : TokenKind} {more rest behind : List Char}
    (read : readToken c (more ++ (rest ++ behind)) = (kind, more, rest ++ behind)) :
    readToken c (more ++ rest) = (kind, more, rest) := by
  generalize shape : more ++ (rest ++ behind) = cs at read
  revert read
  fun_cases readToken c cs
  -- A sign that is one character because of what follows: less may follow, but nothing else.
  case case12 less notLe notNe =>
    rintro ⟨rfl, rfl, _⟩
    cases rest <;> simp_all [readToken]
  case case14 greater notGe =>
    rintro ⟨rfl, rfl, _⟩
    cases rest <;> simp_all [readToken]
  case case16 bang notNe =>
    rintro ⟨rfl, rfl, _⟩
    cases rest <;> simp_all [readToken]
  case case17 quote raw after found =>
    rintro ⟨rfl, rfl, rfl⟩
    have stops : rest.head? ≠ some quoteMark := fun first => by
      have follows := (split_string_shape found).2
      cases rest with
      | nil => cases first
      | cons d rest => exact follows first
    have moved := split_string_moved found stops
    simp_all [readToken]
  case case19 quote noString raw after found =>
    rintro ⟨rfl, rfl, rfl⟩
    have moved := split_quoted_moved found rest
    simp_all [readToken]
  case case21 digit _ _ found =>
    rintro ⟨rfl, rfl, rfl⟩
    have cut := @split_number_cut more rest behind (shape ▸ found)
    simp_all [readToken]
  case case22 =>
    intro read
    obtain ⟨_, same⟩ := Prod.mk.inj read
    obtain ⟨taken, dropped⟩ := Prod.mk.inj same
    have cut := @take_while_cut isWordChar more rest behind (shape ▸ taken) (shape ▸ dropped)
    simp_all [readToken]
  -- The other tokens are read off their first two characters.
  all_goals
    intro read
    obtain ⟨rfl, same⟩ := Prod.mk.inj read
    obtain ⟨rfl, nothing⟩ := Prod.mk.inj same
    simp_all [readToken]

/-- Layout is the same if the text behind the start of the token is cut off, and a token starts
behind it. -/
theorem split_layout_cut {c : Char} {layout front behind : List Char} (inComment : Bool)
    (found : splitLayout inComment (layout ++ c :: (front ++ behind)) =
      (layout, c :: (front ++ behind))) :
    splitLayout inComment (layout ++ c :: front) = (layout, c :: front) ∧
      StartsToken c (front ++ behind) := by
  induction layout generalizing inComment with
  | nil =>
      simp only [List.nil_append, splitLayout] at found ⊢
      split_ifs at found with within white hyphens
      · simp at found
      · simp at found
      · simp at found
      · have starts : StartsToken c (front ++ behind) := ⟨by simpa using white, hyphens⟩
        have single : ¬ (c = '-' ∧ front.head? = some '-') := fun both =>
          hyphens ⟨both.1, head_append both.2 behind⟩
        exact ⟨by simp [within, white, single], starts⟩
  | cons d layout ih =>
      have same : (layout ++ c :: front).head? = (layout ++ c :: (front ++ behind)).head? := by
        cases layout <;> rfl
      simp only [List.cons_append, splitLayout] at found ⊢
      rw [same]
      split_ifs at found ⊢ with within white hyphens
      all_goals
        simp only [Prod.mk.injEq, List.cons.injEq, true_and, reduceCtorEq, false_and] at found
      all_goals
        obtain ⟨cut, starts⟩ := ih _ (Prod.ext found.1 found.2)
        exact ⟨by rw [cut], starts⟩

def characters (tokens : List Token) : List Char :=
  tokens.flatMap fun token => token.layout ++ token.lexeme

theorem lexemes_unplaced (tokens : List Token) :
    lexemes (tokens.map Token.unplaced) = lexemes tokens := by
  cases tokens with
  | nil => rfl
  | cons first others =>
      simp only [lexemes, List.map_cons, List.flatMap_map]
      rfl

theorem pieces_of_token {cs body more behind layout : List Char} {c : Char} {kind : TokenKind}
    (split : splitLayout false cs = (layout, c :: body))
    (read : readToken c body = (kind, more, behind)) :
    pieces cs = ⟨kind, layout, c :: more, 0⟩ :: pieces behind := by
  rw [pieces_eq, split]
  simp only [read]

/-- The first token of a text, the layout in front of it and the text behind it. -/
theorem first_piece {cs : List Char} {token : Token} {tokens : List Token}
    (found : pieces cs = token :: tokens) :
    ∃ c more behind, cs = token.layout ++ c :: (more ++ behind) ∧
      splitLayout false cs = (token.layout, c :: (more ++ behind)) ∧
      readToken c (more ++ behind) = (token.kind, more, behind) ∧
      token = ⟨token.kind, token.layout, c :: more, 0⟩ ∧ pieces behind = tokens := by
  have parts := split_layout_append false cs
  rw [pieces_eq] at found
  cases body : (splitLayout false cs).2 with
  | nil => simp [body] at found
  | cons c rest =>
      simp only [body, List.cons.injEq] at found parts
      obtain ⟨rfl, behind⟩ := found
      have whole := read_token_append c rest
      refine ⟨c, (readToken c rest).2.1, (readToken c rest).2.2, ?_, ?_, ?_, rfl, behind⟩
      · rw [whole, parts]
      · rw [whole, ← body]
      · rw [whole]

/-- The text in which the last tokens of a text stand behind the others. -/
theorem last_pieces {cs : List Char} {front back : List Token}
    (found : pieces cs = front ++ back) :
    ∃ behind, cs = characters front ++ behind ∧ pieces behind = back := by
  induction front generalizing cs with
  | nil => exact ⟨cs, rfl, found⟩
  | cons token front ih =>
      obtain ⟨c, more, rest, shape, -, -, same, others⟩ := first_piece found
      obtain ⟨behind, rfl, last⟩ := ih others
      refine ⟨behind, ?_, last⟩
      have lexeme : token.lexeme = c :: more := congrArg Token.lexeme same
      simp [shape, characters, lexeme]

/-- A text is the characters of its tokens and what stands behind the last of them. -/
theorem characters_remainder (cs : List Char) : characters (pieces cs) ++ remainder cs = cs := by
  obtain ⟨behind, shape, _⟩ := @last_pieces cs (pieces cs) [] (List.append_nil _).symm
  have drop : remainder cs = cs.drop (characters (pieces cs)).length := rfl
  rw [drop]
  nth_rewrite 3 [shape]
  rw [List.drop_left, ← shape]

/-- The first tokens of a text are those of their characters. -/
theorem first_pieces {cs : List Char} {front back : List Token}
    (found : pieces cs = front ++ back) : pieces (characters front) = front := by
  induction front generalizing cs with
  | nil => rfl
  | cons token front ih =>
      obtain ⟨c, more, rest, shape, split, read, same, others⟩ := first_piece found
      obtain ⟨behind, rfl, -⟩ := last_pieces others
      -- The layout and the token stay what they are when `behind` is cut off.
      have cut := (@split_layout_cut c token.layout (more ++ characters front) behind false
        (by simpa [← shape] using split)).1
      have token_ := pieces_of_token cut (read_token_cut read)
      rw [ih others, ← same] at token_
      have lexeme : token.lexeme = c :: more := congrArg Token.lexeme same
      have whole : characters (token :: front) =
          token.layout ++ c :: (more ++ characters front) := by
        simp [characters, lexeme]
      rw [whole, token_]

/-- Between the first lexeme and the last, the tokens are the same. -/
theorem pieces_lexemes {cs : List Char} {first : Token} {others back : List Token}
    (found : pieces cs = first :: (others ++ back)) :
    pieces (lexemes (first :: others)) = { first with layout := [] } :: others := by
  obtain ⟨c, more, rest, shape, split, read, same, behind⟩ := first_piece found
  obtain ⟨after, rfl, -⟩ := last_pieces behind
  have starts := (@split_layout_cut c first.layout (more ++ characters others) after false
    (by simpa [← shape] using split)).2
  have starts' : StartsToken c (more ++ characters others) := by
    refine ⟨starts.1, fun both => starts.2 ⟨both.1, head_append both.2 after⟩⟩
  have token := pieces_of_token (split_layout_token starts') (read_token_cut read)
  rw [first_pieces behind] at token
  rw [lexemes, same]
  exact token

theorem read_token_unterminated {c : Char} {cs : List Char}
    (unterminated : ((readToken c cs).1 == .illegal && opensQuote c) = true) :
    (readToken c cs).2.2 = [] := by
  revert unterminated
  fun_cases readToken c cs
  all_goals simp_all [opensQuote, quoteMark]

/-- Nothing stands behind a literal or a quoted name without its end. -/
theorem unterminated_last {cs : List Char} {front back : List Token}
    (found : pieces cs = front ++ back) {token : Token} (member : token ∈ front)
    (unterminated : token.isUnterminated = true) : back = [] := by
  induction front generalizing cs with
  | nil => cases member
  | cons first front ih =>
      obtain ⟨c, more, rest, -, -, read, same, others⟩ := first_piece found
      rcases List.mem_cons.mp member with rfl | member
      · rw [same] at unterminated
        have last := @read_token_unterminated c (more ++ rest) (by
          simpa [Token.isUnterminated, read] using unterminated)
        rw [read] at last
        obtain rfl : rest = [] := last
        exact (List.append_eq_nil_iff.mp others.symm).2
      · exact ih others member

/-- A stretch of tokens is scanned as it was, and apart from what a separator cuts off behind it;
only where the text ends with it, a literal without its end may be the last token. -/
theorem kinds_lexemes {cs : List Char} {front back : List Token}
    (found : pieces cs = front ++ back) :
    kinds (lexemes front) = kindsOf front ∧
      (back = [] ∨ ∀ after, Separated after →
        kinds (lexemes front ++ after) = kindsOf front ++ kinds after) := by
  cases front with
  | nil => exact ⟨rfl, .inr fun after _ => rfl⟩
  | cons first others =>
      have alone := pieces_lexemes found
      have scanned : kinds (lexemes (first :: others)) = kindsOf (first :: others) := by
        rw [← kinds_of_pieces, alone]
        rfl
      refine ⟨scanned, ?_⟩
      -- A literal without its end runs to the end of the text, so nothing is behind the stretch.
      by_cases last : ∃ token ∈ first :: others, token.isUnterminated = true
      · obtain ⟨token, member, unterminated⟩ := last
        exact .inl (unterminated_last found member unterminated)
      · simp only [not_exists, not_and, Bool.not_eq_true] at last
        have terminated : Terminated (lexemes (first :: others)) := by
          intro token member
          rw [alone] at member
          rcases List.mem_cons.mp member with rfl | member
          · exact last first List.mem_cons_self
          · exact last token (List.mem_cons_of_mem first member)
        have outside : endsInComment (lexemes (first :: others)) = false := by
          -- The text is that of the tokens; nothing of it stands behind the last of them.
          have nothing : remainder (lexemes (first :: others)) = [] := by
            rw [remainder, alone]
            simp [lexemes]
          rw [endsInComment, nothing]
          rfl
        refine .inr fun after separated => ?_
        rw [kinds_separated terminated outside separated, scanned]

def layoutOpen (inComment : Bool) : List Char → Bool
  | [] => inComment
  | c :: rest => layoutOpen (if inComment then c != '\n' else c == '-') rest

def endsWithinComment (text : List Char) : Bool :=
  layoutOpen false (remainder text)

def indent (layout : List Char) : List Token → List Token
  | [] => []
  | token :: rest => { token with layout := layout ++ token.layout } :: rest

theorem blank_no_hyphen {c : Char} (white : isBlank c = true) : (c == '-') = false := by
  by_contra hyphen
  obtain rfl : c = '-' := by simpa using hyphen
  revert white
  decide

/-- Layout that is not within a comment at its end goes on with the layout behind it. -/
theorem split_layout_join {layout : List Char} {inComment : Bool}
    (whole : splitLayout inComment layout = (layout, []))
    (outside : layoutOpen inComment layout = false) (after : List Char) :
    splitLayout inComment (layout ++ after) =
      (layout ++ (splitLayout false after).1, (splitLayout false after).2) := by
  induction layout generalizing inComment with
  | nil =>
      cases outside
      rfl
  | cons c layout ih =>
      simp only [List.cons_append, splitLayout] at whole ⊢
      split_ifs at whole with within white hyphens
      · simp only [layoutOpen, within, ↓reduceIte] at outside
        obtain ⟨first, second⟩ := Prod.mk.inj whole
        have parts := ih (Prod.ext (List.cons.inj first).2 second) outside
        simp [within, parts]
      · simp only [layoutOpen, within, ↓reduceIte, blank_no_hyphen white,
          Bool.false_eq_true] at outside
        obtain ⟨first, second⟩ := Prod.mk.inj whole
        have parts := ih (Prod.ext (List.cons.inj first).2 second) outside
        simp [within, white, parts]
      · obtain ⟨rfl, hyphen⟩ := hyphens
        simp only [layoutOpen, within, ↓reduceIte, beq_self_eq_true, Bool.false_eq_true] at outside
        obtain ⟨first, second⟩ := Prod.mk.inj whole
        have parts := ih (Prod.ext (List.cons.inj first).2 second) outside
        simp [within, white, head_append hyphen after, parts]
      · simp at whole

/-- Layout that is within a comment at its end goes on with a semicolon behind it. -/
theorem split_layout_open {layout : List Char} {inComment : Bool}
    (whole : splitLayout inComment layout = (layout, []))
    (within : layoutOpen inComment layout = true) :
    (splitLayout inComment (layout ++ [';'])).2 = [] := by
  induction layout generalizing inComment with
  | nil =>
      rw [layoutOpen] at within
      simp [splitLayout, within]
  | cons c layout ih =>
      simp only [List.cons_append, splitLayout] at whole ⊢
      split_ifs at whole with inside white hyphens
      · simp only [layoutOpen, inside, ↓reduceIte] at within
        obtain ⟨first, second⟩ := Prod.mk.inj whole
        simp [inside, ih (Prod.ext (List.cons.inj first).2 second) within]
      · simp only [layoutOpen, inside, ↓reduceIte, blank_no_hyphen white,
          Bool.false_eq_true] at within
        obtain ⟨first, second⟩ := Prod.mk.inj whole
        simp [inside, white, ih (Prod.ext (List.cons.inj first).2 second) within]
      · obtain ⟨rfl, hyphen⟩ := hyphens
        simp only [layoutOpen, inside, ↓reduceIte, beq_self_eq_true, Bool.false_eq_true] at within
        obtain ⟨first, second⟩ := Prod.mk.inj whole
        simp [inside, white, head_append hyphen [';'],
          ih (Prod.ext (List.cons.inj first).2 second) within]
      · simp at whole

/-- Layout in front of a token is the same if more stands behind the token. -/
theorem split_layout_behind {text layout body : List Char} {c : Char} {inComment : Bool}
    (found : splitLayout inComment text = (layout, c :: body)) {after : List Char}
    (apart : after.head? ≠ some '-') :
    splitLayout inComment (text ++ after) = (layout, c :: body ++ after) := by
  induction text generalizing inComment layout with
  | nil => cases inComment <;> simp [splitLayout] at found
  | cons d text ih =>
      simp only [List.cons_append, splitLayout] at found ⊢
      split_ifs at found with within white hyphens
      · obtain ⟨rfl, second⟩ := Prod.mk.inj found
        have parts := @ih (splitLayout (d != '\n') text).1 _ (Prod.ext rfl second)
        simp [within, parts]
      · obtain ⟨rfl, second⟩ := Prod.mk.inj found
        have parts := @ih (splitLayout false text).1 _ (Prod.ext rfl second)
        simp [within, white, parts]
      · obtain ⟨rfl, second⟩ := Prod.mk.inj found
        have parts := @ih (splitLayout true text).1 _ (Prod.ext rfl second)
        rw [if_neg within, if_neg white, if_pos ⟨hyphens.1, head_append hyphens.2 after⟩, parts]
        rfl
      · obtain ⟨rfl, second⟩ := Prod.mk.inj found
        obtain ⟨rfl, rfl⟩ := List.cons.inj second
        have single : ¬ (d = '-' ∧ (text ++ after).head? = some '-') := by
          rintro ⟨rfl, first⟩
          cases text with
          | nil => exact apart first
          | cons e text => exact hyphens ⟨rfl, first⟩
        rw [if_neg within, if_neg white, if_neg single]

/-- A text whose literals have ends and that does not end within a comment is scanned apart from
what a separator cuts off; layout at its end goes to the token behind it. -/
theorem pieces_separated {text after : List Char} (terminated : Terminated text)
    (outside : endsWithinComment text = false) (separated : Separated after) :
    pieces (text ++ after) = pieces text ++ indent (remainder text) (pieces after) := by
  have apart : after.head? ≠ some '-' := fun first => by
    have hyphen := separated '-' (by simpa using first)
    revert hyphen
    decide
  generalize size : text.length = n
  induction n using Nat.strong_induction_on generalizing text with
  | _ n ih =>
      subst size
      have parts := split_layout_append false text
      cases body : (splitLayout false text).2 with
      | nil =>
          rw [body, List.append_nil] at parts
          have rest : remainder text = text := by rw [remainder_eq, body]
          have none_ : pieces text = [] := by rw [pieces_eq, body]
          rw [endsWithinComment, rest] at outside
          have join := split_layout_join (Prod.ext parts body) outside after
          rw [none_, rest, pieces_eq, pieces_eq after, join]
          cases (splitLayout false after).2 <;> rfl
      | cons c cs =>
          have behind := split_layout_behind (Prod.ext rfl body) apart
          have ends := (terminated_iff text).mp terminated
          simp only [body] at ends
          have token := read_token_separated ends.1 separated
          have shorter := read_token_shorter c cs
          have length := congrArg List.length parts
          rw [List.length_append, body, List.length_cons] at length
          have rest : remainder text = remainder (readToken c cs).2.2 := by rw [remainder_eq, body]
          have others := ih _ (by omega) ends.2 (by rwa [endsWithinComment, ← rest]) rfl
          rw [pieces_eq (text ++ after), pieces_eq text, body, behind]
          simp only [List.cons_append, token, others, rest]

theorem indent_nothing (tokens : List Token) : indent [] tokens = tokens := by
  cases tokens <;> rfl

/-- A text that ends with a token leaves the tokens behind it as they are. -/
theorem pieces_behind {text after : List Char} {tokens : List Token}
    (cut : pieces text = tokens ∧ characters tokens = text)
    (terminated : ∀ token ∈ tokens, token.isUnterminated = false) (separated : Separated after) :
    pieces (text ++ after) = tokens ++ pieces after := by
  obtain ⟨rfl, all⟩ := cut
  have nothing : remainder text = [] := by simpa [all] using characters_remainder text
  have outside : endsWithinComment text = false := by
    rw [endsWithinComment, nothing]
    rfl
  rw [pieces_separated terminated outside separated, nothing, indent_nothing]

theorem pieces_number {digits after : List Char} (number : numeral digits = true)
    (separated : Separated after) :
    pieces (' ' :: (digits ++ after)) =
      ⟨.number (String.ofList digits), [' '], digits, 0⟩ :: pieces after := by
  cases digits with
  | nil => simp [numeral] at number
  | cons c digits =>
      have word := number
      simp only [numeral, Bool.and_eq_true] at word
      have blank : isBlank ' ' = true := by decide
      have starts := split_layout_token (word_starts_token (digit_is_word word.1) (digits ++ after))
      have split : splitLayout false (' ' :: (c :: digits ++ after)) =
          ([' '], c :: (digits ++ after)) := by
        simp [splitLayout, blank, starts]
      exact pieces_of_token split (read_token_number number separated.breaks.number)

/-- A semicolon behind a text is a token only if the text ends outside of literals and comments. -/
theorem ends_outside {text : List Char}
    (taken : kinds (text ++ [';']) = kinds text ++ [.mark .semicolon]) :
    Terminated text ∧ endsWithinComment text = false := by
  have idle : Idle [';'] := by simp [Idle]
  generalize size : text.length = n
  induction n using Nat.strong_induction_on generalizing text with
  | _ n ih =>
      subst size
      have parts := split_layout_append false text
      cases body : (splitLayout false text).2 with
      | nil =>
          rw [body, List.append_nil] at parts
          have rest : remainder text = text := by rw [remainder_eq, body]
          have none_ : kinds text = [] := (kinds_none_iff text).mpr body
          refine ⟨(terminated_iff text).mpr (by simp [body]), ?_⟩
          rw [endsWithinComment, rest]
          by_contra within
          have swallowed := split_layout_open (Prod.ext parts body) (by simpa using within)
          rw [none_, (kinds_none_iff _).mpr swallowed] at taken
          cases taken
      | cons c cs =>
          have behind := @split_layout_behind _ _ _ _ _ (Prod.ext rfl body) [';'] (by simp)
          have shorter := read_token_shorter c cs
          have length := congrArg List.length parts
          rw [List.length_append, body, List.length_cons] at length
          have rest : remainder text = remainder (readToken c cs).2.2 := by rw [remainder_eq, body]
          obtain ⟨same, left_⟩ := read_token_idle c cs idle
          rw [kinds_eq, kinds_eq text, body, behind] at taken
          simp only [List.cons_append, List.cons.injEq] at taken
          rcases left_ with goesOn | ⟨-, -, none_, none'⟩
          · rw [goesOn] at taken
            obtain ⟨terminated, outside⟩ := ih _ (by omega) taken.2 rfl
            refine ⟨(terminated_iff text).mpr ?_, by rwa [endsWithinComment, rest]⟩
            rw [body]
            refine ⟨?_, terminated⟩
            by_contra unterminated
            have last := @read_token_unterminated c (cs ++ [';'])
              (by rw [same]; simpa using unterminated)
            rw [goesOn] at last
            simp at last
          · rw [none_, none'] at taken
            simp [kinds_nil] at taken

/-- What is written as tokens in front of every separator ends outside of literals and comments. -/
theorem Writes.ends {text : String} {ks : List TokenKind} (writes : Writes text ks) :
    Terminated text.toList ∧ endsWithinComment text.toList = false := by
  have alone := writes.kinds_eq
  have taken := writes [';'] (separated_head rfl [])
  rw [kinds_of_tokenize] at alone
  exact ends_outside (alone.symm ▸ taken)

end Cohort.Sql
