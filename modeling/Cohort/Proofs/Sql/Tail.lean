import Cohort.Proofs.Sql.Writing
import Cohort.Recovery

/-!
Blanks and semicolons at the ends of a text change nothing of the names in it. They may end up
within a comment or a literal without its end, but they neither close nor continue anything.
-/

namespace Cohort.Sql

open Text (isBlank quoteMark)

def Idle (cs : List Char) : Prop :=
  ∀ c ∈ cs, isBlank c = true ∨ c = ';'

theorem idle_outside {c : Char} (idle : isBlank c = true ∨ c = ';') :
    continuesToken c = false ∧ opensQuote c = false ∧ c ≠ '-' := by
  rcases idle with blank | rfl
  · have word : isWordChar c = false := by
      by_contra word
      have filled := word_not_blank (c := c) (by simpa using word)
      simp [filled] at blank
    have other (d : Char) (filled : isBlank d = false) : c ≠ d := by
      rintro rfl
      simp [filled] at blank
    have point := other '.' (by decide)
    have equals := other '=' (by decide)
    have greater := other '>' (by decide)
    have single := other quoteMark (by decide)
    have double := other '\x22' (by decide)
    have back := other '\x60' (by decide)
    have hyphen := other '-' (by decide)
    simp [continuesToken, opensQuote, word, point, equals, greater, single, double, back, hyphen]
  · exact ⟨by decide, by decide, by decide⟩

section Tails

variable {back : List Char} (idle : Idle back)

include idle

theorem idle_breaks : Breaks back :=
  fun c first => (idle_outside (idle c (List.mem_of_mem_head? first))).1

theorem idle_no_quote {quote : Char} (opens : opensQuote quote = true) : quote ∉ back := by
  intro member
  have outside := (idle_outside (idle quote member)).2.1
  simp [opens] at outside

theorem idle_kinds : ∀ kind ∈ kinds back, kind = .mark .semicolon := by
  induction back with
  | nil => simp
  | cons c rest ih =>
      have others := ih fun d member => idle d (List.mem_cons_of_mem c member)
      rcases idle c List.mem_cons_self with blank | rfl
      · rw [kinds_blank blank]
        exact others
      · have read : readToken ';' rest = (.mark .semicolon, [], rest) := by simp [readToken]
        rw [kinds_token ⟨by decide, by simp⟩, read]
        simpa using others

end Tails

theorem kinds_blanks {lead : List Char} (blank : ∀ c ∈ lead, isBlank c = true)
    (rest : List Char) : kinds (lead ++ rest) = kinds rest := by
  induction lead with
  | nil => rfl
  | cons c lead ih =>
      rw [List.cons_append, kinds_blank (blank c List.mem_cons_self)]
      exact ih fun d member => blank d (List.mem_cons_of_mem c member)

theorem split_string_before {cs back : List Char} (none_ : quoteMark ∉ back) :
    splitString (cs ++ back) =
      (splitString cs).map fun (raw, after) => (raw, after ++ back) := by
  have other : ∀ d ∈ back, d ≠ quoteMark := fun d member same => none_ (same ▸ member)
  have alone : splitString back = none := by
    induction back with
    | nil => rfl
    | cons c rest ih =>
        have first := other c List.mem_cons_self
        have behind := ih (fun member => none_ (List.mem_cons_of_mem c member))
          fun d member => other d (List.mem_cons_of_mem c member)
        cases rest with
        | nil => simp [splitString, first]
        | cons d rest => simp [splitString, first, behind]
  fun_induction splitString cs with
  | case1 => simpa using alone
  | case2 =>
      cases back with
      | nil => simp [splitString]
      | cons d rest => simp [splitString, other d List.mem_cons_self]
  | case3 c other_ =>
      cases back with
      | nil => simp [splitString, other_]
      | cons d rest => simpa [splitString, other_] using alone
  | case4 rest ih => simp [splitString, ih, Function.comp_def]
  | case5 d rest different => simp [splitString, different]
  | case6 c d rest different ih =>
      rw [List.cons_append] at ih
      simp [splitString, different, ih, Function.comp_def]

theorem split_quoted_before {quote : Char} {cs back : List Char} (none_ : quote ∉ back) :
    splitQuoted quote (cs ++ back) =
      (splitQuoted quote cs).map fun (name, after) => (name, after ++ back) := by
  induction cs with
  | nil =>
      induction back with
      | nil => rfl
      | cons c rest ih =>
          simp only [List.mem_cons, not_or] at none_
          have behind := ih none_.2
          simp only [List.nil_append, splitQuoted, Option.map_none] at behind ⊢
          simp [Ne.symm none_.1, behind]
  | cons c cs ih =>
      by_cases last : c = quote
      · simp [splitQuoted, last]
      · simp [splitQuoted, last, ih, Function.comp_def]

/-- A token in front of a tail is the same token, or a quoted one without its end, which takes the
tail in. -/
theorem read_token_idle (c : Char) (cs : List Char) {back : List Char} (idle : Idle back) :
    (readToken c (cs ++ back)).1 = (readToken c cs).1 ∧
      ((readToken c (cs ++ back)).2.2 = (readToken c cs).2.2 ++ back ∨
        opensQuote c = true ∧ (readToken c cs).1 = .illegal ∧
          (readToken c cs).2.2 = [] ∧ (readToken c (cs ++ back)).2.2 = []) := by
  by_cases noQuote : opensQuote c = false
  · rw [read_token_before noQuote (idle_breaks idle)]
    exact ⟨rfl, .inl rfl⟩
  · have quote : opensQuote c = true := by simpa using noQuote
    have none_ := idle_no_quote idle quote
    have opens := quote
    simp only [opensQuote, Bool.or_eq_true, beq_iff_eq] at quote
    rcases quote with (rfl | rfl) | rfl
    · have split := @split_string_before cs back none_
      cases read : splitString cs with
      | none => simp_all [readToken, quoteMark]
      | some parts => simp_all [readToken, quoteMark]
    · have split := @split_quoted_before _ cs back none_
      cases read : splitQuoted '\x22' cs with
      | none => simp_all [readToken, quoteMark]
      | some parts => simp_all [readToken, quoteMark]
    · have split := @split_quoted_before _ cs back none_
      cases read : splitQuoted '\x60' cs with
      | none => simp_all [readToken, quoteMark]
      | some parts => simp_all [readToken, quoteMark]

/-- The layout in a comment is the rest of its line and the layout behind the line. -/
theorem split_comment (text : List Char) :
    splitLayout true text =
      ((splitLine text).1 ++ (splitLayout false (splitLine text).2).1,
        (splitLayout false (splitLine text).2).2) := by
  induction text with
  | nil => rfl
  | cons c rest ih =>
      by_cases last : c = '\n'
      · simp [splitLayout, splitLine, last]
      · have goesOn : (c != '\n') = true := by simpa using last
        simp [splitLayout, splitLine, last, goesOn, ih]

theorem kinds_comment {rest : List Char} (hyphen : rest.head? = some '-') :
    kinds ('-' :: rest) = kinds (splitLine rest).2 := by
  have blank : isBlank '-' = false := by decide
  rw [kinds_eq ('-' :: rest), kinds_eq (splitLine rest).2]
  simp [splitLayout, blank, hyphen, split_comment]

theorem split_line_shorter (text : List Char) : (splitLine text).2.length ≤ text.length := by
  induction text with
  | nil => rfl
  | cons c rest ih =>
      by_cases last : c = '\n'
      · simp [splitLine, last]
      · simp only [splitLine, last, ↓reduceIte, List.length_cons]
        omega

/-- The line ends where it did, or within the tail. -/
theorem split_line_before (cs back : List Char) :
    (splitLine (cs ++ back)).2 = (splitLine cs).2 ++ back ∨
      (splitLine cs).2 = [] ∧ (splitLine (cs ++ back)).2 <:+ back := by
  induction cs with
  | nil =>
      refine .inr ⟨rfl, ?_⟩
      simp only [List.nil_append]
      induction back with
      | nil => simp [splitLine]
      | cons c rest ih =>
          by_cases last : c = '\n'
          · simp [splitLine, last]
          · simpa [splitLine, last] using ih.trans (List.suffix_cons c rest)
  | cons c cs ih => by_cases last : c = '\n' <;> simp [splitLine, last, ih]

/-- What holds of the empty text, and of a text that starts with a blank, a comment or a token if it
holds of what follows, holds of every text. -/
theorem scan_induction {motive : List Char → Prop} (nil : motive [])
    (blank : ∀ c rest, isBlank c = true → motive rest → motive (c :: rest))
    (comment : ∀ rest, rest.head? = some '-' → motive (splitLine rest).2 → motive ('-' :: rest))
    (token : ∀ c rest, StartsToken c rest → motive (readToken c rest).2.2 → motive (c :: rest))
    (text : List Char) : motive text := by
  generalize size : text.length = n
  induction n using Nat.strong_induction_on generalizing text with
  | _ n ih =>
      cases text with
      | nil => exact nil
      | cons c rest =>
          simp only [List.length_cons] at size
          by_cases white : isBlank c = true
          · exact blank c rest white (ih rest.length (by omega) rest rfl)
          by_cases hyphens : c = '-' ∧ rest.head? = some '-'
          · obtain ⟨rfl, hyphen⟩ := hyphens
            have shorter := split_line_shorter rest
            exact comment rest hyphen (ih _ (by omega) _ rfl)
          · have shorter := read_token_shorter c rest
            exact token c rest ⟨by simpa using white, hyphens⟩ (ih _ (by omega) _ rfl)

theorem idle_no_names {back : List Char} (idle : Idle back) (name : String) :
    .identifier name ∉ kinds back := by
  intro member
  have other := idle_kinds idle _ member
  simp at other

theorem starts_token_append {c : Char} {rest back : List Char} (starts : StartsToken c rest)
    (other : back.head? ≠ some '-') : StartsToken c (rest ++ back) := by
  refine ⟨starts.1, fun both => ?_⟩
  cases rest with
  | nil => exact other both.2
  | cons d rest => exact starts.2 both

theorem idle_no_hyphen {back : List Char} (idle : Idle back) : back.head? ≠ some '-' :=
  fun first => (idle_outside (idle '-' (List.mem_of_mem_head? first))).2.2 rfl

theorem starts_token_idle {c : Char} {rest back : List Char} (starts : StartsToken c rest)
    (idle : Idle back) : StartsToken c (rest ++ back) :=
  starts_token_append starts (idle_no_hyphen idle)

theorem head_append {cs : List Char} {d : Char} (first : cs.head? = some d) (back : List Char) :
    (cs ++ back).head? = some d := by
  cases cs with
  | nil => cases first
  | cons c cs => exact first

/-- Behind a text, a part of a tail is scanned as if it stood alone. The part in front of it is in a
comment, or in a quoted token without its end. -/
theorem kinds_idle_tail (front : List Char) {back : List Char} (idle : Idle back) :
    ∃ part, part <:+ back ∧ kinds (front ++ back) = kinds front ++ kinds part := by
  induction front using scan_induction with
  | nil => exact ⟨back, List.suffix_rfl, rfl⟩
  | blank c rest white ih =>
      rw [List.cons_append, kinds_blank white, kinds_blank white]
      exact ih
  | comment rest hyphen ih =>
      rw [List.cons_append, kinds_comment hyphen, kinds_comment (head_append hyphen back)]
      rcases split_line_before rest back with same | ⟨none_, suffix_⟩
      · rw [same]
        exact ih
      · rw [none_]
        exact ⟨_, suffix_, rfl⟩
  | token c rest starts ih =>
      obtain ⟨same, left_⟩ := read_token_idle c rest idle
      rw [List.cons_append, kinds_token starts, kinds_token (starts_token_idle starts idle), same]
      rcases left_ with behind | ⟨_, _, none_, none'⟩
      · rw [behind]
        obtain ⟨part, suffix_, apart⟩ := ih
        exact ⟨part, suffix_, congrArg _ apart⟩
      · rw [none_, none']
        exact ⟨[], List.nil_suffix, rfl⟩

/-- A tail adds no names and takes none away. -/
theorem names_of_append {front back : List Char} (idle : Idle back) (name : String) :
    .identifier name ∈ kinds (front ++ back) ↔ .identifier name ∈ kinds front := by
  obtain ⟨part, suffix_, apart⟩ := kinds_idle_tail front idle
  have within : Idle part := fun c member => idle c (suffix_.mem member)
  rw [apart, List.mem_append]
  exact or_iff_left (idle_no_names within name)

end Cohort.Sql
