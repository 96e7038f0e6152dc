import Cohort.Proofs.Recovery.Names
import Cohort.Proofs.Sql.Ending
import Cohort.Session

/-!
Statements that differ in layout only. Two statements count as the same if their tokens are, apart
from a semicolon at the end, unless one of them ends in a comment: the semicolon that is missing is
written into the comment then.
-/

namespace Cohort

namespace Sql

open Text (isBlank quoteMark)

theorem idle_semicolon : Idle [';'] := by simp [Idle]

/-- Behind a text that does not end in a comment, a semicolon is a token. -/
theorem kinds_with_semicolon {text : List Char} (terminated : Terminated text)
    (outside : endsInComment text = false) :
    kinds (text ++ [';']) = kinds text ++ [.mark .semicolon] :=
  kinds_separated terminated outside (separated_head (by decide) [])

def EndsFilled (text : List Char) : Prop :=
  ∀ c ∈ text.getLast?, isBlank c = false

theorem EndsFilled.suffix {text back : List Char} (filled : EndsFilled text)
    (suffix_ : back <:+ text) : EndsFilled back := by
  obtain ⟨front, rfl⟩ := suffix_
  intro c last
  exact filled c (by simp [List.getLast?_append, show back.getLast? = some c from last])

theorem split_line_suffix (text : List Char) : (splitLine text).2 <:+ text := by
  induction text with
  | nil => exact List.suffix_rfl
  | cons c rest ih =>
      by_cases last : c = '\n'
      · simp [splitLine, last]
      · simpa [splitLine, last] using ih.trans (List.suffix_cons c rest)

theorem read_token_suffix (c : Char) (cs : List Char) : (readToken c cs).2.2 <:+ c :: cs := by
  have whole := read_token_append c cs
  exact (List.IsSuffix.trans ⟨_, whole⟩ (List.suffix_cons c cs))

/-- A last line that does not end goes on behind it. -/
theorem split_line_open {text : List Char} (filled : EndsFilled text)
    (last : (splitLine text).2 = []) : (splitLine (text ++ [';'])).2 = [] := by
  induction text with
  | nil => rfl
  | cons c rest ih =>
      by_cases feed : c = '\n'
      · simp only [splitLine, feed, ↓reduceIte] at last
        subst last feed
        have blank : isBlank '\n' = false := filled '\n' rfl
        exact absurd blank (by decide)
      · simp only [splitLine, feed, ↓reduceIte] at last
        simpa [splitLine, feed] using ih (filled.suffix (List.suffix_cons c rest)) last

/-- A text of layout only that does not end in a blank ends in a comment. -/
theorem comment_of_no_tokens {text : List Char} (filled : EndsFilled text) (some_ : text ≠ [])
    (none_ : kinds text = []) : endsInComment text = true := by
  have last : isBlank (text.getLast some_) = false :=
    filled _ (List.getLast?_eq_some_getLast some_)
  rw [comment_eq, (kinds_none_iff text).mp none_]
  exact List.any_eq_true.mpr ⟨_, List.getLast_mem some_, by simp [last]⟩

/-- Behind a text that ends in a comment, a semicolon is part of the comment. -/
theorem kinds_comment_tail {text : List Char} (filled : EndsFilled text)
    (within : endsInComment text = true) : kinds (text ++ [';']) = kinds text := by
  induction text using scan_induction with
  | nil => cases within
  | blank c rest white ih =>
      rw [comment_behind_blank white] at within
      rw [List.cons_append, kinds_blank white, kinds_blank white]
      exact ih (filled.suffix (List.suffix_cons c rest)) within
  | comment rest hyphen ih =>
      have suffix_ := (split_line_suffix rest).trans (List.suffix_cons '-' rest)
      rw [List.cons_append, kinds_comment hyphen, kinds_comment (head_append hyphen _)]
      rcases split_line_before rest [';'] with same | ⟨none_, _⟩
      · rw [same]
        -- What stands behind the comment ends in a comment too, as the text does.
        by_cases empty : (splitLine rest).2 = []
        · have lasts := split_line_open (filled.suffix (List.suffix_cons '-' rest)) empty
          rw [same, empty] at lasts
          cases lasts
        · apply ih (filled.suffix suffix_)
          rcases (comment_behind_comment hyphen).mp within with none_ | behind
          · exact comment_of_no_tokens (filled.suffix suffix_) empty none_
          · exact behind
      · rw [split_line_open (filled.suffix (List.suffix_cons '-' rest)) none_, none_]
  | token c rest starts ih =>
      obtain ⟨same, left_⟩ := read_token_idle c rest idle_semicolon
      rw [comment_behind_token starts] at within
      rw [List.cons_append, kinds_token starts,
        kinds_token (starts_token_idle starts idle_semicolon), same]
      rcases left_ with behind | ⟨_, _, none_, none'⟩
      · rw [behind, ih (filled.suffix (read_token_suffix c rest)) within]
      · rw [none_] at within
        cases within

theorem number_characters (cs : List Char) :
    ∀ d ∈ (splitNumber cs).1, d.isDigit = true ∨ d = '.' := by
  intro d member
  simp only [splitNumber] at member
  have digits (text : List Char) : d ∈ text.takeWhile Char.isDigit → d.isDigit = true :=
    fun found => List.mem_takeWhile_imp found
  split at member
  · split_ifs at member
    · rcases List.mem_append.mp member with whole | fraction
      · exact .inl (digits _ whole)
      · rcases List.mem_cons.mp fraction with point | fraction
        · exact .inr point
        · exact .inl (digits _ fraction)
    · exact .inl (digits _ member)
  · exact .inl (digits _ member)

/-- A token ends in a semicolon only if it is one. -/
theorem read_token_last {c : Char} {cs : List Char}
    (closed : ((readToken c cs).1 == .illegal && opensQuote c) = false) :
    (readToken c cs).1 = .mark .semicolon ↔ (c :: (readToken c cs).2.1).getLast? = some ';' := by
  revert closed
  fun_cases readToken c cs
  case case17 => simp [List.getLast?_cons, quoteMark]
  case case19 quote _ _ _ =>
    rcases quote with rfl | rfl <;> simp [List.getLast?_cons]
  case case20 quote _ =>
    rcases quote with rfl | rfl <;> simp [opensQuote]
  case case21 digit digits rest found =>
    intro _
    refine iff_of_false (by simp) fun last => ?_
    have characters := number_characters cs
    rw [found] at characters
    rcases List.mem_cons.mp (List.mem_of_getLast? last) with rfl | member
    · exact absurd digit (by decide)
    · rcases characters _ member with number | point
      · exact absurd number (by decide)
      · exact absurd point (by decide)
  case case22 noDigit start word =>
    intro _
    refine iff_of_false ?_ fun last => ?_
    · simp only [wordKind]
      split <;> simp
    · have other : ¬ isWordChar ';' = true := fun letter => word_no_mark letter (by decide)
      rcases List.mem_cons.mp (List.mem_of_getLast? last) with rfl | member
      · exact other (word_start_is_word start)
      · exact other (List.mem_takeWhile_imp member)
  all_goals simp_all [opensQuote, quoteMark]

theorem last_of_suffix {α : Type} {text back : List α} (suffix_ : back <:+ text)
    (some_ : back ≠ []) :
    text.getLast? = back.getLast? := by
  obtain ⟨front, rfl⟩ := suffix_
  exact List.getLast?_append_of_ne_nil front some_

/-- The last token of a text that ends in one is a semicolon if the last character is. -/
theorem last_semicolon {text : List Char} (terminated : Terminated text)
    (filled : EndsFilled text) (outside : endsInComment text = false) :
    (kinds text).getLast? = some (.mark .semicolon) ↔ text.getLast? = some ';' := by
  induction text using scan_induction with
  | nil => simp
  | blank c rest white ih =>
      have suffix_ := List.suffix_cons c rest
      have more : rest ≠ [] := by
        rintro rfl
        have blank := filled c rfl
        simp [white] at blank
      rw [comment_behind_blank white] at outside
      rw [kinds_blank white, last_of_suffix suffix_ more]
      exact ih ((terminated_behind_blank white rest).mp terminated) (filled.suffix suffix_) outside
  | comment rest hyphen ih =>
      have suffix_ := (split_line_suffix rest).trans (List.suffix_cons '-' rest)
      have goesOn := mt (comment_behind_comment hyphen).mpr (by simpa using outside)
      rw [not_or] at goesOn
      have more : (splitLine rest).2 ≠ [] := fun none_ => goesOn.1 (by rw [none_]; rfl)
      rw [kinds_comment hyphen, last_of_suffix suffix_ more]
      exact ih ((terminated_behind_comment hyphen).mp terminated) (filled.suffix suffix_)
        (by simpa using goesOn.2)
  | token c rest starts ih =>
      have suffix_ := read_token_suffix c rest
      obtain ⟨closed, others⟩ := (terminated_behind_token starts).mp terminated
      rw [comment_behind_token starts] at outside
      rw [kinds_token starts]
      -- The token is the last one, or something stands behind it that is not only a comment.
      by_cases last : (readToken c rest).2.2 = []
      · have whole := read_token_append c rest
        rw [last, List.append_nil] at whole
        have alone := read_token_last closed
        rw [whole] at alone
        rw [last, ← alone]
        simp
      · have later := ih others (filled.suffix suffix_) outside
        have more : kinds (readToken c rest).2.2 ≠ [] := fun none_ => by
          have within := comment_of_no_tokens (filled.suffix suffix_) last none_
          simp [outside] at within
        rw [last_of_suffix suffix_ last, ← later, last_of_suffix (List.suffix_cons _ _) more]

end Sql

open Sql

def withoutSemicolon (ks : List TokenKind) : List TokenKind :=
  if ks.getLast? = some (.mark .semicolon) then ks.dropLast else ks

/-- Whether a semicolon at the end of a text would be part of a comment: its last token is none,
and a comment stands behind it. -/
def SwallowsSemicolon (sql : String) : Prop :=
  (kindsOf (tokenize sql)).getLast? ≠ some (.mark .semicolon) ∧ endsInComment sql.toList = true

instance (sql : String) : Decidable (SwallowsSemicolon sql) :=
  inferInstanceAs (Decidable (_ ∧ _))

/-- A text lies between blanks, and what lies between them does not end in a blank. -/
theorem trim_parts (sql : String) :
    EndsFilled (Text.trim sql).toList ∧ ∃ lead trail : List Char,
      (∀ c ∈ lead, Text.isBlank c = true) ∧ (∀ c ∈ trail, Text.isBlank c = true) ∧
        sql.toList = lead ++ ((Text.trim sql).toList ++ trail) := by
  obtain ⟨lead, front, blank⟩ := trim_start_parts sql.toList
  obtain ⟨trail, back, blank'⟩ := trim_end_parts (Text.trimStart sql.toList)
  have core : (Text.trim sql).toList = Text.trimEnd (Text.trimStart sql.toList) := by
    simp [Text.trim]
  constructor
  · intro c last
    rw [core, Text.trimEnd, List.getLast?_reverse] at last
    have stop := List.head?_dropWhile_not Text.isBlank (Text.trimStart sql.toList).reverse
    rw [last] at stop
    simpa using stop
  · exact ⟨lead, trail, blank, blank', by rw [core, ← back, ← front]⟩

theorem normalized_text (sql : String) : (normalizeStatement sql).toList =
    if (Text.trim sql).toList.getLast? = some ';' then (Text.trim sql).toList
    else (Text.trim sql).toList ++ [';'] := by
  simp only [normalizeStatement, String.toList_ofList]

theorem without_semicolon_append {ks : List TokenKind}
    (last : ks.getLast? = some (.mark .semicolon)) :
    withoutSemicolon ks ++ [.mark .semicolon] = ks := by
  rw [withoutSemicolon, if_pos last]
  exact List.dropLast_append_getLast? _ last

theorem normalized_kinds {sql : String} (terminated : Terminated sql.toList) :
    kinds (normalizeStatement sql).toList = kinds sql.toList ∧ SwallowsSemicolon sql ∨
      kinds (normalizeStatement sql).toList =
        withoutSemicolon (kinds sql.toList) ++ [.mark .semicolon] ∧ ¬ SwallowsSemicolon sql := by
  obtain ⟨filled, lead, trail, blank, blank', shape⟩ := trim_parts sql
  simp only [SwallowsSemicolon, kinds_of_tokenize, normalized_text]
  generalize (Text.trim sql).toList = text at filled shape ⊢
  rw [shape, terminated_blanks blank, terminated_blank_tail blank'] at terminated
  rw [shape, kinds_blanks blank, kinds_blank_tail blank', comment_blanks blank,
    comment_blank_tail blank']
  -- In a comment, a semicolon that is put behind the text is none of its tokens.
  by_cases within : endsInComment text = true
  · have kept : kinds (if text.getLast? = some ';' then text else text ++ [';']) = kinds text := by
      split_ifs
      · rfl
      · exact kinds_comment_tail filled within
    by_cases last : (kinds text).getLast? = some (.mark .semicolon)
    · exact .inr ⟨by rw [kept, without_semicolon_append last], fun both => both.1 last⟩
    · exact .inl ⟨kept, last, within⟩
  · have outside : endsInComment text = false := by simpa using within
    refine .inr ⟨?_, fun both => within both.2⟩
    have ends := last_semicolon terminated filled outside
    split_ifs with last
    · rw [without_semicolon_append (ends.mpr last)]
    · rw [kinds_with_semicolon terminated outside, withoutSemicolon, if_neg (mt ends.mp last)]

theorem swallows_without {sql : String} (swallows : SwallowsSemicolon sql) :
    withoutSemicolon (kinds sql.toList) = kinds sql.toList :=
  if_neg swallows.1

/-- What makes two statements the same: their tokens apart from a semicolon at the end, and that a
semicolon at their ends would be a token of both or of none. -/
def SameButLayout (a b : String) : Prop :=
  withoutSemicolon (kindsOf (tokenize a)) = withoutSemicolon (kindsOf (tokenize b)) ∧
    (SwallowsSemicolon a ↔ SwallowsSemicolon b)

theorem normalized_same_iff {a b : String} (left_ : Terminated a.toList)
    (right_ : Terminated b.toList) : sameStatement a b = true ↔ SameButLayout a b := by
  change (kinds (normalizeStatement a).toList == kinds (normalizeStatement b).toList) = true ↔ _
  rw [beq_iff_eq, SameButLayout, kinds_of_tokenize, kinds_of_tokenize]
  rcases normalized_kinds left_ with ⟨same, swallows⟩ | ⟨same, open_⟩
  · rw [same, swallows_without swallows]
    rcases normalized_kinds right_ with ⟨same', swallows'⟩ | ⟨same', open'⟩
    · rw [same', swallows_without swallows']
      simp [swallows, swallows']
    · rw [same']
      refine iff_of_false (fun alike => ?_) fun both => open' (both.2.mp swallows)
      exact swallows.1 (by rw [kinds_of_tokenize, alike, List.getLast?_concat])
  · rw [same]
    rcases normalized_kinds right_ with ⟨same', swallows'⟩ | ⟨same', open'⟩
    · rw [same']
      refine iff_of_false (fun alike => ?_) fun both => open_ (both.2.mpr swallows')
      exact swallows'.1 (by rw [kinds_of_tokenize, ← alike, List.getLast?_concat])
    · rw [same']
      simp [open_, open']

theorem terminated_of_tokens {sql : String}
    (closed : ∀ token ∈ tokenize sql, token.isUnterminated = false) : Terminated sql.toList := by
  intro token member
  obtain ⟨placed, found, rfl⟩ := List.mem_map.mp member
  exact closed placed found

/-- Two statements whose literals all have ends are the same exactly if their tokens are, apart from
a semicolon at the end, and neither or both end in a comment that would take a semicolon in. So a
statement of a session that is laid out in another way is no change. -/
theorem same_statement_iff {a b : String}
    (left_ : ∀ token ∈ tokenize a, token.isUnterminated = false)
    (right_ : ∀ token ∈ tokenize b, token.isUnterminated = false) :
    (sameStatement a b = true ↔ SameButLayout a b) ∧
      ∀ session : Session, session.statement = b →
        (session.hasChanges a = false ↔ SameButLayout a b) := by
  have law := normalized_same_iff (terminated_of_tokens left_) (terminated_of_tokens right_)
  refine ⟨law, fun session own => ?_⟩
  rw [Session.hasChanges, own, Bool.not_eq_false', law]

/-- A comment in front of a token, one behind the semicolon, and other blanks. -/
theorem comments_leave_statement :
    let typed := "SELECT -- everyone\n * FROM t WHERE 1=1 ; -- the end"
    let session : Session := ⟨"t", {}, {}, {}, []⟩
    sameStatement typed session.statement = true ∧ session.hasChanges typed = false := by
  intro typed session
  have closed : ∀ token ∈ tokenize typed, token.isUnterminated = false := by decide +kernel
  have written : ∀ token ∈ tokenize session.statement, token.isUnterminated = false := by
    decide +kernel
  have law := same_statement_iff closed written
  have alike : SameButLayout typed session.statement :=
    ⟨by decide +kernel, by decide +kernel⟩
  exact ⟨law.1.mpr alike, (law.2 session rfl).mpr alike⟩

/-- A comment at the end takes in the semicolon that is missing. -/
theorem last_comment_changes_statement :
    let a := "SELECT * FROM t WHERE 1=1 -- everyone"
    let b := "SELECT * FROM t WHERE 1=1"
    (∀ token ∈ tokenize a ++ tokenize b, token.isUnterminated = false) ∧
      withoutSemicolon (kindsOf (tokenize a)) = withoutSemicolon (kindsOf (tokenize b)) ∧
      sameStatement a b = false := by
  decide +kernel

end Cohort
