import Cohort.Proofs.Sql.Tail

/-!
How a text ends: whether all its literals and quoted names have ends, and whether a comment stands
behind its last token. A text with such literals and without such a comment is scanned apart from
what a separator cuts off behind it.
-/

namespace Cohort.Sql

open Text (isBlank quoteMark)

def Token.isUnterminated (token : Token) : Bool :=
  token.kind == .illegal && token.lexeme.head?.any opensQuote

def remainder (text : List Char) : List Char :=
  text.drop ((pieces text).flatMap fun token => token.layout ++ token.lexeme).length

def endsInComment (text : List Char) : Bool :=
  (remainder text).any fun c => !isBlank c

def Terminated (text : List Char) : Prop :=
  ∀ token ∈ pieces text, token.isUnterminated = false

theorem layout_blank {c : Char} (white : isBlank c = true) (rest : List Char) :
    (splitLayout false (c :: rest)).2 = (splitLayout false rest).2 := by
  simp [splitLayout, white]

theorem layout_comment {rest : List Char} (hyphen : rest.head? = some '-') :
    (splitLayout false ('-' :: rest)).2 = (splitLayout false (splitLine rest).2).2 := by
  have filled : isBlank '-' = false := by decide
  simp [splitLayout, filled, hyphen, split_comment]

theorem split_layout_token {c : Char} {rest : List Char} (starts : StartsToken c rest) :
    splitLayout false (c :: rest) = ([], c :: rest) := by
  simp [splitLayout, starts.1, starts.2]

theorem kinds_none_iff (text : List Char) : kinds text = [] ↔ (splitLayout false text).2 = [] := by
  rw [kinds_eq]
  cases (splitLayout false text).2 <;> simp

theorem terminated_iff (text : List Char) :
    Terminated text ↔ match (splitLayout false text).2 with
      | [] => True
      | c :: cs => ((readToken c cs).1 == .illegal && opensQuote c) = false ∧
          Terminated (readToken c cs).2.2 := by
  rw [Terminated, pieces_eq]
  cases (splitLayout false text).2 with
  | nil => simp
  | cons c cs => simp [Terminated, Token.isUnterminated]

theorem remainder_eq (text : List Char) :
    remainder text = match (splitLayout false text).2 with
      | [] => text
      | c :: cs => remainder (readToken c cs).2.2 := by
  have parts := split_layout_append false text
  rw [remainder, pieces_eq]
  cases body : (splitLayout false text).2 with
  | nil => rfl
  | cons c cs =>
      have token := read_token_append c cs
      have whole : text =
          (splitLayout false text).1 ++ c :: (readToken c cs).2.1 ++ (readToken c cs).2.2 := by
        rw [List.append_assoc, List.cons_append, token, ← body, parts]
      have behind {front back : List Char} (shape : text = front ++ back) :
          text.drop front.length = back := by
        rw [shape]
        exact List.drop_left' rfl
      simp only [List.flatMap_cons, remainder]
      rw [List.length_append, ← List.drop_drop, behind whole]

theorem comment_eq (text : List Char) :
    endsInComment text = match (splitLayout false text).2 with
      | [] => text.any fun c => !isBlank c
      | c :: cs => endsInComment (readToken c cs).2.2 := by
  rw [endsInComment, remainder_eq]
  cases (splitLayout false text).2 <;> rfl

@[simp] theorem comment_nil : endsInComment [] = false := rfl

theorem comment_behind_blank {c : Char} (white : isBlank c = true) (rest : List Char) :
    endsInComment (c :: rest) = endsInComment rest := by
  rw [comment_eq, comment_eq rest, layout_blank white]
  cases (splitLayout false rest).2 with
  | nil => simp [white]
  | cons c cs => rfl

theorem comment_behind_token {c : Char} {rest : List Char} (starts : StartsToken c rest) :
    endsInComment (c :: rest) = endsInComment (readToken c rest).2.2 := by
  rw [comment_eq, split_layout_token starts]

theorem comment_behind_comment {rest : List Char} (hyphen : rest.head? = some '-') :
    endsInComment ('-' :: rest) = true ↔
      kinds (splitLine rest).2 = [] ∨ endsInComment (splitLine rest).2 = true := by
  have filled : isBlank '-' = false := by decide
  rw [comment_eq, comment_eq (splitLine rest).2, layout_comment hyphen, kinds_none_iff]
  cases (splitLayout false (splitLine rest).2).2 with
  | nil => simp [filled]
  | cons c cs => simp

theorem terminated_behind_blank {c : Char} (white : isBlank c = true) (rest : List Char) :
    Terminated (c :: rest) ↔ Terminated rest := by
  rw [terminated_iff, terminated_iff rest, layout_blank white]

theorem terminated_behind_comment {rest : List Char} (hyphen : rest.head? = some '-') :
    Terminated ('-' :: rest) ↔ Terminated (splitLine rest).2 := by
  rw [terminated_iff, terminated_iff (splitLine rest).2, layout_comment hyphen]

theorem terminated_behind_token {c : Char} {rest : List Char} (starts : StartsToken c rest) :
    Terminated (c :: rest) ↔
      ((readToken c rest).1 == .illegal && opensQuote c) = false ∧
        Terminated (readToken c rest).2.2 := by
  rw [terminated_iff, split_layout_token starts]

section Blanks

variable {trail : List Char} (blank : ∀ c ∈ trail, isBlank c = true)

include blank

theorem kinds_blank_tail (front : List Char) : kinds (front ++ trail) = kinds front := by
  obtain ⟨part, suffix_, apart⟩ := kinds_idle_tail front fun c member => .inl (blank c member)
  have none_ := kinds_blanks (fun c member => blank c (suffix_.mem member)) []
  rw [List.append_nil] at none_
  rw [apart, none_, kinds_nil, List.append_nil]

theorem comment_blanks (rest : List Char) : endsInComment (trail ++ rest) = endsInComment rest := by
  induction trail with
  | nil => rfl
  | cons c trail ih =>
      rw [List.cons_append, comment_behind_blank (blank c List.mem_cons_self)]
      exact ih fun d member => blank d (List.mem_cons_of_mem c member)

theorem terminated_blanks (rest : List Char) : Terminated (trail ++ rest) ↔ Terminated rest := by
  induction trail with
  | nil => rfl
  | cons c trail ih =>
      rw [List.cons_append, terminated_behind_blank (blank c List.mem_cons_self)]
      exact ih fun d member => blank d (List.mem_cons_of_mem c member)

theorem comment_blank_tail (front : List Char) :
    endsInComment (front ++ trail) = endsInComment front := by
  have idle : Idle trail := fun c member => .inl (blank c member)
  induction front using scan_induction with
  | nil => simpa using comment_blanks blank []
  | blank c rest white ih =>
      rw [List.cons_append, comment_behind_blank white, comment_behind_blank white]
      exact ih
  | comment rest hyphen ih =>
      rw [Bool.eq_iff_iff, List.cons_append, comment_behind_comment hyphen,
        comment_behind_comment (head_append hyphen trail)]
      rcases split_line_before rest trail with same | ⟨none_, suffix_⟩
      · rw [same, ih, kinds_blank_tail blank]
      · -- The comment takes in what is cut off: there is no token behind it in either text.
        have within := kinds_blanks (fun c member => blank c (suffix_.mem member)) []
        rw [List.append_nil] at within
        simp [none_, within]
  | token c rest starts ih =>
      obtain ⟨_, left_⟩ := read_token_idle c rest idle
      rw [List.cons_append, comment_behind_token starts,
        comment_behind_token (starts_token_idle starts idle)]
      rcases left_ with behind | ⟨_, _, none_, none'⟩
      · rw [behind]
        exact ih
      · rw [none_, none']

theorem terminated_blank_tail (front : List Char) :
    Terminated (front ++ trail) ↔ Terminated front := by
  have idle : Idle trail := fun c member => .inl (blank c member)
  induction front using scan_induction with
  | nil => simpa using terminated_blanks blank []
  | blank c rest white ih =>
      rw [List.cons_append, terminated_behind_blank white, terminated_behind_blank white]
      exact ih
  | comment rest hyphen ih =>
      rw [List.cons_append, terminated_behind_comment hyphen,
        terminated_behind_comment (head_append hyphen trail)]
      rcases split_line_before rest trail with same | ⟨none_, suffix_⟩
      · rw [same]
        exact ih
      · have within := terminated_blanks (fun c member => blank c (suffix_.mem member)) []
        rw [List.append_nil] at within
        rw [none_, within]
  | token c rest starts ih =>
      obtain ⟨same, left_⟩ := read_token_idle c rest idle
      rw [List.cons_append, terminated_behind_token starts,
        terminated_behind_token (starts_token_idle starts idle), same]
      rcases left_ with behind | ⟨_, _, none_, none'⟩
      · rw [behind]
        exact and_congr_right fun _ => ih
      · rw [none_, none']

end Blanks

/-- The characters of a string literal are those of a text with its quotes doubled, and no quote
follows the literal. -/
theorem split_string_shape {cs raw rest : List Char} (found : splitString cs = some (raw, rest)) :
    (∃ text, raw = Text.doubleQuotes text) ∧ rest.head? ≠ some quoteMark := by
  fun_induction splitString cs generalizing raw rest with
  | case1 => cases found
  | case2 =>
      cases found
      exact ⟨⟨[], rfl⟩, by simp⟩
  | case3 c other => cases found
  | case4 rest' ih =>
      obtain ⟨⟨inner, tail⟩, read, same⟩ := Option.map_eq_some_iff.mp found
      cases same
      obtain ⟨⟨text, rfl⟩, stops⟩ := ih read
      exact ⟨⟨quoteMark :: text, (Text.double_quotes_quote text).symm⟩, stops⟩
  | case5 d rest' different =>
      cases found
      exact ⟨⟨[], rfl⟩, by simpa using different⟩
  | case6 c d rest' different ih =>
      obtain ⟨⟨inner, tail⟩, read, same⟩ := Option.map_eq_some_iff.mp found
      cases same
      obtain ⟨⟨text, rfl⟩, stops⟩ := ih read
      exact ⟨⟨c :: text, (Text.double_quotes_other different text).symm⟩, stops⟩

/-- A string literal is the same in front of everything that does not start with a quote. -/
theorem split_string_moved {cs raw rest after : List Char}
    (found : splitString cs = some (raw, rest)) (stops : after.head? ≠ some quoteMark) :
    splitString (raw ++ quoteMark :: after) = some (raw, after) := by
  obtain ⟨⟨text, rfl⟩, _⟩ := split_string_shape found
  exact split_string_double text after stops

/-- A quoted name is the same in front of everything. -/
theorem split_quoted_moved {quote : Char} {cs name rest : List Char}
    (found : splitQuoted quote cs = some (name, rest)) (after : List Char) :
    splitQuoted quote (name ++ quote :: after) = some (name, after) := by
  fun_induction splitQuoted quote cs generalizing name rest with
  | case1 => cases found
  | case2 rest' =>
      cases found
      simp [splitQuoted]
  | case3 c rest' different ih =>
      obtain ⟨⟨inner, tail⟩, read, same⟩ := Option.map_eq_some_iff.mp found
      cases same
      simp [splitQuoted, different, ih read]

theorem head_behind {rest after : List Char} {d : Char} (first : rest.head? ≠ some d)
    (second : after.head? ≠ some d) : (rest ++ after).head? ≠ some d := by
  cases rest with
  | nil => exact second
  | cons c rest => exact first

theorem split_string_separated {cs after : List Char} {parts : List Char × List Char}
    (read : splitString cs = some parts) (stops : after.head? ≠ some quoteMark) :
    splitString (cs ++ after) = some (parts.1, parts.2 ++ after) := by
  have behind := split_string_moved read (head_behind (split_string_shape read).2 stops)
  rwa [← List.cons_append, ← List.append_assoc, ← split_string_append read] at behind

theorem split_quoted_separated {quote : Char} {cs : List Char} {parts : List Char × List Char}
    (read : splitQuoted quote cs = some parts) (after : List Char) :
    splitQuoted quote (cs ++ after) = some (parts.1, parts.2 ++ after) := by
  have behind := split_quoted_moved read (parts.2 ++ after)
  rwa [← List.cons_append, ← List.append_assoc, ← split_quoted_append read] at behind

/-- What does not continue a token and opens no literal does not change the token in front of it,
unless this is a quoted one without its end. -/
theorem read_token_apart {c : Char} {cs after : List Char}
    (closed : ((readToken c cs).1 == .illegal && opensQuote c) = false)
    (breaks : Breaks after) (unquoted : after.head? ≠ some quoteMark) :
    readToken c (cs ++ after) =
      ((readToken c cs).1, (readToken c cs).2.1, (readToken c cs).2.2 ++ after) := by
  by_cases noQuote : opensQuote c = false
  · exact read_token_before noQuote breaks
  · have quote : opensQuote c = true := by simpa using noQuote
    have quotes := quote
    simp only [opensQuote, Bool.or_eq_true, beq_iff_eq] at quotes
    rcases quotes with (rfl | rfl) | rfl
    · cases read : splitString cs with
      | none => simp [readToken, read, quoteMark, opensQuote] at closed
      | some parts =>
          simp [readToken, read, split_string_separated read unquoted, quoteMark]
    · cases read : splitQuoted '\x22' cs with
      | none => simp [readToken, read, quoteMark, opensQuote] at closed
      | some parts => simp [readToken, read, split_quoted_separated read after, quoteMark]
    · cases read : splitQuoted '\x60' cs with
      | none => simp [readToken, read, quoteMark, opensQuote] at closed
      | some parts => simp [readToken, read, split_quoted_separated read after, quoteMark]

theorem read_token_separated {c : Char} {cs after : List Char}
    (closed : ((readToken c cs).1 == .illegal && opensQuote c) = false)
    (separated : Separated after) :
    readToken c (cs ++ after) =
      ((readToken c cs).1, (readToken c cs).2.1, (readToken c cs).2.2 ++ after) :=
  read_token_apart closed separated.breaks separated.no_quote

theorem starts_token_separated {c : Char} {rest after : List Char} (starts : StartsToken c rest)
    (separated : Separated after) : StartsToken c (rest ++ after) := by
  refine starts_token_append starts fun first => ?_
  have hyphen := separated '-' (by simpa using first)
  revert hyphen
  decide

/-- A text whose literals have ends and that does not end in a comment is scanned apart from what a
separator cuts off. -/
theorem kinds_separated {text after : List Char} (terminated : Terminated text)
    (outside : endsInComment text = false) (separated : Separated after) :
    kinds (text ++ after) = kinds text ++ kinds after := by
  induction text using scan_induction with
  | nil => rfl
  | blank c rest white ih =>
      rw [comment_behind_blank white] at outside
      rw [List.cons_append, kinds_blank white, kinds_blank white]
      exact ih ((terminated_behind_blank white rest).mp terminated) outside
  | comment rest hyphen ih =>
      have goesOn := mt (comment_behind_comment hyphen).mpr (by simpa using outside)
      rw [not_or] at goesOn
      rw [List.cons_append, kinds_comment hyphen, kinds_comment (head_append hyphen _)]
      rcases split_line_before rest after with same | ⟨none_, _⟩
      · rw [same]
        exact ih ((terminated_behind_comment hyphen).mp terminated) (by simpa using goesOn.2)
      · -- A comment without an end of line is where the text ends.
        exact absurd (by rw [none_]; rfl) goesOn.1
  | token c rest starts ih =>
      obtain ⟨closed, others⟩ := (terminated_behind_token starts).mp terminated
      rw [comment_behind_token starts] at outside
      rw [List.cons_append, kinds_token starts,
        kinds_token (starts_token_separated starts separated),
        read_token_separated closed separated]
      exact congrArg _ (ih others outside)

end Cohort.Sql
