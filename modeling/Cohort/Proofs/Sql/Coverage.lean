import Cohort.Proofs.Sql.Cutting
import Cohort.Proofs.Text.Words

/-!
The places of tokens. The tokens of a text stand one behind the other, each on characters of its
own, and what the text has between them is layout: blanks and comments. A token that carries a text
carries that of its place, without the quotes around it.
-/

namespace Cohort.Sql

open Text (byteLength isBlank quoteMark)

inductive Layout : List Char → Prop where
  | nothing : Layout []
  | blank {c : Char} {rest : List Char} (white : isBlank c = true) (behind : Layout rest) :
      Layout (c :: rest)
  | comment {line rest : List Char} (within : '\n' ∉ line) (behind : Layout rest) :
      Layout ('-' :: '-' :: (line ++ '\n' :: rest))

inductive LastLayout : List Char → Prop where
  | closed {layout : List Char} (whole : Layout layout) : LastLayout layout
  | comment {layout line : List Char} (whole : Layout layout) (within : '\n' ∉ line) :
      LastLayout (layout ++ '-' :: '-' :: line)

theorem LastLayout.behind_blank {c : Char} {rest : List Char} (white : isBlank c = true)
    (last : LastLayout rest) : LastLayout (c :: rest) := by
  cases last with
  | closed whole => exact .closed (.blank white whole)
  | comment whole within =>
      rw [← List.cons_append]
      exact .comment (.blank white whole) within

theorem LastLayout.behind_comment {line rest : List Char} (within : '\n' ∉ line)
    (last : LastLayout rest) : LastLayout ('-' :: '-' :: (line ++ '\n' :: rest)) := by
  cases last with
  | closed whole => exact .closed (.comment within whole)
  | @comment layout open_ whole within' =>
      have shape : '-' :: '-' :: (line ++ '\n' :: (layout ++ '-' :: '-' :: open_)) =
          '-' :: '-' :: (line ++ '\n' :: layout) ++ '-' :: '-' :: open_ := by simp
      rw [shape]
      exact .comment (.comment within whole) within'

/-- A line ends with its line feed, or where the text ends. -/
theorem split_line_shape (text : List Char) :
    ∃ line, '\n' ∉ line ∧ ((splitLine text).1 = line ++ ['\n'] ∨
      (splitLine text).1 = line ∧ (splitLine text).2 = []) := by
  induction text with
  | nil => exact ⟨[], by simp, .inr ⟨rfl, rfl⟩⟩
  | cons c rest ih =>
      by_cases feed : c = '\n'
      · exact ⟨[], by simp, .inl (by simp [splitLine, feed])⟩
      · obtain ⟨line, within, ends⟩ := ih
        refine ⟨c :: line, by simp [within, Ne.symm feed], ?_⟩
        simpa [splitLine, feed] using ends

/-- What is split off in front of a token is layout, and so is what is split off where there is no
token. -/
theorem layout_split (text : List Char) :
    LastLayout (splitLayout false text).1 ∧
      ((splitLayout false text).2 ≠ [] → Layout (splitLayout false text).1) := by
  induction text using scan_induction with
  | nil => exact ⟨.closed .nothing, fun _ => .nothing⟩
  | blank c rest white ih =>
      have split : splitLayout false (c :: rest) =
          (c :: (splitLayout false rest).1, (splitLayout false rest).2) := by
        simp [splitLayout, white]
      rw [split]
      exact ⟨ih.1.behind_blank white, fun some_ => .blank white (ih.2 some_)⟩
  | comment rest hyphen ih =>
      obtain ⟨rest, rfl⟩ : ∃ more, rest = '-' :: more := List.head?_eq_some_iff.mp hyphen
      have filled : isBlank '-' = false := by decide
      have split : splitLayout false ('-' :: '-' :: rest) =
          ('-' :: '-' :: ((splitLine rest).1 ++ (splitLayout false (splitLine rest).2).1),
            (splitLayout false (splitLine rest).2).2) := by
        simp [splitLayout, filled, split_comment]
      have same : (splitLine ('-' :: rest)).2 = (splitLine rest).2 := by simp [splitLine]
      rw [same] at ih
      rw [split]
      obtain ⟨line, within, ends | ⟨last, nothing⟩⟩ := split_line_shape rest
      · rw [ends, List.append_assoc, List.singleton_append]
        exact ⟨ih.1.behind_comment within, fun some_ => .comment within (ih.2 some_)⟩
      · -- The comment runs to the end of the text, so no token stands behind it.
        rw [last, nothing]
        exact ⟨by simpa [splitLayout] using LastLayout.comment .nothing within,
          fun some_ => absurd rfl some_⟩
  | token c rest starts ih =>
      rw [split_layout_token starts]
      exact ⟨.closed .nothing, fun _ => .nothing⟩

theorem kinds_layout {layout : List Char} (whole : Layout layout) (rest : List Char) :
    kinds (layout ++ rest) = kinds rest := by
  induction whole with
  | nothing => rfl
  | blank white _ ih => rw [List.cons_append, kinds_blank white, ih]
  | @comment line behind within _ ih =>
      have ends (more : List Char) : (splitLine (line ++ '\n' :: more)).2 = more := by
        induction line with
        | nil => simp [splitLine]
        | cons c line others =>
            simp only [List.mem_cons, not_or] at within
            simpa [splitLine, Ne.symm within.1] using others within.2
      rw [List.cons_append, kinds_comment rfl]
      simp only [List.cons_append, List.append_assoc, splitLine]
      simpa [ends] using ih

/-- What a token of the kind carries of its characters: a number and a word all of them, a literal
and a quoted name all but the quotes around. In a literal, the quotes inside stand in pairs. -/
def TokenKind.Carries : TokenKind → List Char → Prop
  | .number digits, lexeme => lexeme = digits.toList
  | .identifier name, lexeme =>
      lexeme = name.toList ∧ (∀ c ∈ lexeme.head?, isWordStart c = true) ∨
        ∃ quote, (quote = '\x22' ∨ quote = '\x60') ∧ lexeme = quote :: (name.toList ++ [quote])
  | .string raw, lexeme =>
      lexeme = quoteMark :: (raw.toList ++ [quoteMark]) ∧
        ∀ run ∈ Text.runs (· == quoteMark) raw.toList, Even run.length
  | _, _ => True

theorem even_quotes (text : List Char) :
    ∀ run ∈ Text.runs (· == quoteMark) (Text.doubleQuotes text), Even run.length := by
  induction text with
  | nil => simp [Text.runs]
  | cons c rest ih =>
      by_cases quote : c = quoteMark
      · subst quote
        rw [Text.double_quotes_quote]
        generalize Text.doubleQuotes rest = doubled at ih ⊢
        have first : Text.startsRun (· == quoteMark) (quoteMark :: doubled) = true := by
          simp [Text.startsRun]
        simp only [Text.runs, beq_self_eq_true, ↓reduceIte, first]
        -- The pair makes a run that it stands in front of longer by two, or is a run of its own.
        cases starts : Text.startsRun (· == quoteMark) doubled with
        | false => simpa using ih
        | true =>
            cases runs : Text.runs (· == quoteMark) doubled with
            | nil => simp
            | cons run others =>
                rw [runs] at ih
                simpa [Nat.even_add_one] using ih
      · rw [Text.double_quotes_other quote, Text.runs_skip (by simpa using quote)]
        exact ih

theorem read_token_carries (c : Char) (cs : List Char) :
    (readToken c cs).1.Carries (c :: (readToken c cs).2.1) := by
  fun_cases readToken c cs
  case case17 quote raw rest found =>
    obtain ⟨⟨text, rfl⟩, _⟩ := split_string_shape found
    simpa [TokenKind.Carries, quote] using even_quotes text
  case case19 quotes name rest found =>
    exact .inr ⟨c, quotes, by simp⟩
  case case21 => simp [TokenKind.Carries]
  case case22 start word =>
    rw [wordKind]
    split
    · trivial
    · exact .inl ⟨by simp, by simpa using start⟩
  all_goals trivial

/-- The tokens make up the text, which starts at the byte `offset`, with layout in front of each of
them and behind the last. -/
inductive Tiles : Nat → List Char → List Token → Prop where
  | layout {offset : Nat} {rest : List Char} (last : LastLayout rest) : Tiles offset rest []
  | token {offset : Nat} {token : Token} {rest : List Char} {tokens : List Token}
      (layout : Layout token.layout) (some_ : token.lexeme ≠ [])
      (carries : token.kind.Carries token.lexeme)
      (start : token.start = offset + byteLength token.layout)
      (behind : Tiles token.stop rest tokens) :
      Tiles offset (token.layout ++ (token.lexeme ++ rest)) (token :: tokens)

/-- A scan goes to the end of the text. -/
theorem scan_tiles {bound : Nat} (offset : Nat) {text : List Char}
    (enough : text.length ≤ bound) : Tiles offset text (scan bound offset text) := by
  induction bound generalizing offset text with
  | zero =>
      obtain rfl : text = [] := List.length_eq_zero_iff.mp (Nat.le_zero.mp enough)
      exact .layout (.closed .nothing)
  | succ bound ih =>
      have parts := split_layout_append false text
      have layout := layout_split text
      simp only [scan]
      cases body : (splitLayout false text).2 with
      | nil =>
          rw [body, List.append_nil] at parts
          exact .layout (parts ▸ layout.1)
      | cons c cs =>
          have shorter := read_token_shorter c cs
          have length := congrArg List.length parts
          rw [List.length_append, body, List.length_cons] at length
          have token := @Tiles.token offset
            ⟨(readToken c cs).1, (splitLayout false text).1, c :: (readToken c cs).2.1,
              offset + byteLength (splitLayout false text).1⟩ (readToken c cs).2.2 _
            (layout.2 (by simp [body])) (List.cons_ne_nil _ _) (read_token_carries c cs) rfl
            (ih _ (by omega))
          rw [List.cons_append, read_token_append, ← body, parts] at token
          exact token

theorem tokenize_tiles (text : String) : Tiles 0 text.toList (tokenize text) :=
  scan_tiles 0 le_rfl

def Between (text : String) (start stop : Nat) (piece : List Char) : Prop :=
  ∃ front back : String, text = front ++ String.ofList piece ++ back ∧
    front.utf8ByteSize = start ∧ (front ++ String.ofList piece).utf8ByteSize = stop

def endOf : Nat → List Token → Nat
  | start, [] => start
  | _, token :: rest => endOf token.stop rest

def startOf (stop : Nat) : List Token → Nat
  | [] => stop
  | token :: _ => token.start

theorem byte_length_size (cs : List Char) : byteLength cs = (String.ofList cs).utf8ByteSize := by
  induction cs with
  | nil => rfl
  | cons c rest ih => simp [byteLength, ih, String.utf8ByteSize_ofList]

section Places

variable {text : List Char} {tokens : List Token} {offset : Nat} {before : String}

def Token.reach (before : String) (token : Token) : String :=
  before ++ String.ofList token.layout ++ String.ofList token.lexeme

theorem reach_size {token : Token}
    (start : token.start = before.utf8ByteSize + byteLength token.layout) :
    (token.reach before).utf8ByteSize = token.stop := by
  simp only [Token.reach, String.utf8ByteSize_append, ← byte_length_size, Token.stop, start]

theorem reach_text (before : String) (token : Token) (rest : List Char) :
    before ++ String.ofList (token.layout ++ (token.lexeme ++ rest)) =
      token.reach before ++ String.ofList rest := by
  simp [Token.reach, String.ofList_append, String.append_assoc]

theorem Tiles.ordered (tiles : Tiles offset text tokens) :
    (∀ token ∈ tokens, offset ≤ token.start) ∧
      tokens.Pairwise fun first second => first.stop ≤ second.start := by
  induction tiles with
  | layout => exact ⟨by simp, .nil⟩
  | @token offset token rest tokens layout some_ carries start behind ih =>
      have here : offset ≤ token.start := by omega
      have ends : offset ≤ token.stop := here.trans (Nat.le_add_right _ _)
      refine ⟨List.forall_mem_cons.mpr ⟨here, fun other member => ?_⟩, .cons ih.1 ih.2⟩
      exact ends.trans (ih.1 other member)

theorem Tiles.placed (tiles : Tiles before.utf8ByteSize text tokens) :
    ∀ token ∈ tokens, token.start < token.stop ∧
      Between (before ++ String.ofList text) token.start token.stop token.lexeme ∧
      token.kind.Carries token.lexeme := by
  generalize here : before.utf8ByteSize = offset at tiles
  induction tiles generalizing before with
  | layout => simp
  | @token offset token rest tokens layout some_ carries start behind ih =>
      subst here
      have size := reach_size start
      rw [reach_text, List.forall_mem_cons]
      refine ⟨⟨?_, ⟨before ++ String.ofList token.layout, String.ofList rest, rfl, ?_, size⟩,
        carries⟩, ih size⟩
      · obtain ⟨c, more, shape⟩ := List.exists_cons_of_ne_nil some_
        have wide := c.utf8Size_pos
        simp only [Token.stop, shape, byteLength]
        omega
      · rw [String.utf8ByteSize_append, ← byte_length_size, start]

/-- Between two tokens that follow one another there is layout, and so is in front of the first
token and behind the last. -/
theorem Tiles.gaps (tiles : Tiles before.utf8ByteSize text tokens) {front back : List Token}
    (split : tokens = front ++ back) :
    ∃ gap, Between (before ++ String.ofList text) (endOf before.utf8ByteSize front)
        (startOf (before ++ String.ofList text).utf8ByteSize back) gap ∧
      LastLayout gap ∧ (back ≠ [] → Layout gap) := by
  generalize here : before.utf8ByteSize = offset at tiles
  induction tiles generalizing before front with
  | @layout offset rest last =>
      obtain ⟨rfl, rfl⟩ := List.append_eq_nil_iff.mp split.symm
      exact ⟨rest, ⟨before, "", by simp, here, rfl⟩, last, fun some_ => absurd rfl some_⟩
  | @token offset token rest tokens layout some_ carries start behind ih =>
      subst here
      rw [reach_text]
      cases front with
      | nil =>
          obtain rfl : back = token :: tokens := split.symm
          refine ⟨token.layout,
            ⟨before, String.ofList token.lexeme ++ String.ofList rest, ?_, rfl, ?_⟩,
            .closed layout, fun _ => layout⟩
          · simp [Token.reach, String.append_assoc]
          · rw [String.utf8ByteSize_append, ← byte_length_size, startOf, start]
      | cons first front =>
          obtain ⟨rfl, others⟩ := List.cons.inj split
          have size := reach_size start
          rw [endOf]
          exact ih others size

end Places

/-- Every token of a text takes up characters of its own, one token behind the other, and carries
what stands there. All that the text has in front of the first token, between two of them and
behind the last is blanks and comments, and only behind the last a comment may go on to the end of
the text. -/
theorem tokens_cover_text (text : String) :
    (∀ token ∈ tokenize text, token.start < token.stop ∧ token.stop ≤ text.utf8ByteSize ∧
      Between text token.start token.stop token.lexeme ∧ token.kind.Carries token.lexeme) ∧
    ((tokenize text).Pairwise fun first second => first.stop ≤ second.start) ∧
    ∀ front back, tokenize text = front ++ back →
      ∃ gap, Between text (endOf 0 front) (startOf text.utf8ByteSize back) gap ∧
        LastLayout gap ∧ (back ≠ [] → Layout gap) := by
  have tiles := tokenize_tiles text
  have whole : "" ++ String.ofList text.toList = text := by simp
  refine ⟨fun token member => ?_, tiles.ordered.2, fun front back split => ?_⟩
  · have placed := @Tiles.placed _ _ "" tiles token member
    rw [whole] at placed
    obtain ⟨wide, between, carries⟩ := placed
    refine ⟨wide, ?_, between, carries⟩
    obtain ⟨before, behind, rfl, _, stop⟩ := between
    rw [String.utf8ByteSize_append, stop]
    exact Nat.le_add_right _ _
  · have gaps := @Tiles.gaps _ _ "" tiles front back split
    rw [whole] at gaps
    exact gaps

example : (tokenize "é='it''s' -- ?\n2").map (fun token => (token.start, token.stop)) =
    [(0, 2), (2, 3), (3, 10), (16, 17)] := by decide +kernel

end Cohort.Sql
