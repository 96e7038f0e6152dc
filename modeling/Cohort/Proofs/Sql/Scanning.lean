import Cohort.Proofs.Text.Blank
import Cohort.Proofs.Text.Quoted
import Cohort.Sql.Lexer

/-!
The kinds of the tokens of a text. What a token is depends on the characters behind it only as far
as they could continue it: `kinds_append` scans two texts apart where the second cannot continue
the last token of the first. Quotes and comments are the only tokens that reach further, so the
first text must hold none.
-/

namespace Cohort.Sql

open Text (byteLength isBlank isLetter isNumeric quoteMark)

def kindsOf (tokens : List Token) : List TokenKind :=
  tokens.map Token.kind

def kinds (text : List Char) : List TokenKind :=
  kindsOf (scan text.length 0 text)

theorem kinds_of_tokenize (text : String) : kindsOf (tokenize text) = kinds text.toList := rfl

theorem split_layout_append (inComment : Bool) (text : List Char) :
    (splitLayout inComment text).1 ++ (splitLayout inComment text).2 = text := by
  induction text generalizing inComment with
  | nil => rfl
  | cons c rest ih =>
      simp only [splitLayout]
      split_ifs <;> simp [ih]

theorem split_string_append {cs raw after : List Char}
    (found : splitString cs = some (raw, after)) : cs = raw ++ quoteMark :: after := by
  fun_induction splitString cs generalizing raw after with
  | case1 => simp at found
  | case2 => simp_all
  | case3 c other => simp at found
  | case4 rest ih =>
      obtain ⟨⟨inner, tail⟩, read, same⟩ := Option.map_eq_some_iff.mp found
      cases same
      simp [ih read]
  | case5 d rest different => simp_all
  | case6 c d rest different ih =>
      obtain ⟨⟨inner, tail⟩, read, same⟩ := Option.map_eq_some_iff.mp found
      cases same
      simp [ih read]

theorem split_quoted_append {quote : Char} {cs name after : List Char}
    (found : splitQuoted quote cs = some (name, after)) : cs = name ++ quote :: after := by
  fun_induction splitQuoted quote cs generalizing name after with
  | case1 => simp at found
  | case2 rest => simp_all
  | case3 c rest different ih =>
      obtain ⟨⟨inner, tail⟩, read, same⟩ := Option.map_eq_some_iff.mp found
      cases same
      simp [ih read]

theorem split_number_append (cs : List Char) : (splitNumber cs).1 ++ (splitNumber cs).2 = cs := by
  have whole := List.takeWhile_append_dropWhile (p := Char.isDigit) (l := cs)
  simp only [splitNumber]
  split
  · next d rest shape =>
      have fraction := List.takeWhile_append_dropWhile (p := Char.isDigit) (l := d :: rest)
      rw [shape] at whole
      split_ifs
      · simpa only [List.append_assoc, List.cons_append, fraction] using whole
      · exact whole
  · exact whole

/-- The characters of a token behind its first one, and what follows, make up the text. -/
theorem read_token_append (c : Char) (cs : List Char) :
    (readToken c cs).2.1 ++ (readToken c cs).2.2 = cs := by
  fun_cases readToken c cs
  case case17 found => simp [split_string_append found]
  case case19 found => simp [split_quoted_append found]
  case case21 digits rest found => simpa [found] using split_number_append cs
  case case22 => exact List.takeWhile_append_dropWhile
  all_goals simp

theorem read_token_shorter (c : Char) (cs : List Char) :
    (readToken c cs).2.2.length ≤ cs.length := by
  have whole := congrArg List.length (read_token_append c cs)
  rw [List.length_append] at whole
  omega

def Token.unplaced (token : Token) : Token :=
  { token with start := 0 }

/-- A bound that is long enough does not matter, and the offset only for the places of the
tokens. -/
theorem scan_unplaced (first second : Nat) (here there : Nat) (text : List Char)
    (enough : text.length ≤ first) (enough' : text.length ≤ second) :
    (scan first here text).map Token.unplaced = (scan second there text).map Token.unplaced := by
  induction first generalizing second here there text with
  | zero =>
      have empty : text = [] := List.length_eq_zero_iff.mp (Nat.le_zero.mp enough)
      subst empty
      cases second <;> rfl
  | succ first ih =>
      have parts := congrArg List.length (split_layout_append false text)
      rw [List.length_append] at parts
      cases second with
      | zero =>
          have empty : text = [] := List.length_eq_zero_iff.mp (Nat.le_zero.mp enough')
          subst empty
          rfl
      | succ second =>
          simp only [scan]
          cases body : (splitLayout false text).2 with
          | nil => rfl
          | cons c cs =>
              have shorter := read_token_shorter c cs
              simp only [body, List.length_cons] at parts
              have bound : (readToken c cs).2.2.length ≤ first := by omega
              have bound' : (readToken c cs).2.2.length ≤ second := by omega
              simp only [List.map_cons]
              exact congrArg _ (ih second _ _ _ bound bound')

def pieces (text : List Char) : List Token :=
  (scan text.length 0 text).map Token.unplaced

theorem pieces_eq (text : List Char) :
    pieces text = match (splitLayout false text).2 with
      | [] => []
      | c :: cs =>
          ⟨(readToken c cs).1, (splitLayout false text).1, c :: (readToken c cs).2.1, 0⟩ ::
            pieces (readToken c cs).2.2 := by
  have parts := congrArg List.length (split_layout_append false text)
  rw [List.length_append] at parts
  cases text with
  | nil => rfl
  | cons first text =>
      simp only [pieces, scan, List.length_cons]
      cases body : (splitLayout false (first :: text)).2 with
      | nil => rfl
      | cons c cs =>
          have shorter := read_token_shorter c cs
          simp only [body, List.length_cons] at parts
          have bound : (readToken c cs).2.2.length ≤ text.length := by omega
          simp only [List.map_cons]
          exact congrArg _ (scan_unplaced _ _ _ _ _ bound le_rfl)

theorem kinds_unplaced (tokens : List Token) :
    kindsOf (tokens.map Token.unplaced) = kindsOf tokens := by
  simp only [kindsOf, List.map_map]
  rfl

theorem kinds_of_pieces (text : List Char) : kindsOf (pieces text) = kinds text :=
  kinds_unplaced _

theorem kinds_eq (text : List Char) :
    kinds text = match (splitLayout false text).2 with
      | [] => []
      | c :: cs => (readToken c cs).1 :: kinds (readToken c cs).2.2 := by
  rw [← kinds_of_pieces, pieces_eq]
  cases (splitLayout false text).2 with
  | nil => rfl
  | cons c cs => exact congrArg _ (kinds_of_pieces _)

@[simp] theorem kinds_nil : kinds [] = [] := rfl

theorem kinds_blank {c : Char} (blank : isBlank c = true) (rest : List Char) :
    kinds (c :: rest) = kinds rest := by
  rw [kinds_eq (c :: rest), kinds_eq rest]
  simp [splitLayout, blank]

def StartsToken (c : Char) (rest : List Char) : Prop :=
  isBlank c = false ∧ ¬ (c = '-' ∧ rest.head? = some '-')

theorem kinds_token {c : Char} {rest : List Char} (starts : StartsToken c rest) :
    kinds (c :: rest) = (readToken c rest).1 :: kinds (readToken c rest).2.2 := by
  rw [kinds_eq (c :: rest)]
  simp [splitLayout, starts.1, starts.2]

/-! ### Texts that do not continue one another -/

def continuesToken (c : Char) : Bool :=
  isWordChar c || c == '.' || c == '=' || c == '>'

/-- The text does not continue the token in front of it. -/
def Breaks (after : List Char) : Prop :=
  ∀ c ∈ after.head?, continuesToken c = false

def opensQuote (c : Char) : Bool :=
  c == quoteMark || c == '\x22' || c == '\x60'

/-- The text holds no quote and no comment, and no comment can start at its end. -/
def tame : List Char → Bool
  | [] => true
  | [c] => !opensQuote c && c != '-'
  | c :: d :: rest => !opensQuote c && !(c == '-' && d == '-') && tame (d :: rest)

theorem digit_points :
    ∀ point ∈ List.range' 48 10,
      isWordChar (Char.ofNat point) = true ∧ isWordStart (Char.ofNat point) = false := by
  decide

theorem digit_listed {c : Char} (digit : c.isDigit = true) : c.toNat ∈ List.range' 48 10 := by
  simp only [Char.isDigit, Bool.and_eq_true, decide_eq_true_eq, UInt32.le_iff_toNat_le,
    ge_iff_le] at digit
  have bounds : 48 ≤ c.toNat ∧ c.toNat ≤ 57 := digit
  rw [List.mem_range'_1]
  omega

theorem digit_is_word {c : Char} (digit : c.isDigit = true) : isWordChar c = true := by
  simpa only [Char.ofNat_toNat] using (digit_points c.toNat (digit_listed digit)).1

theorem digit_no_word_start {c : Char} (digit : c.isDigit = true) : isWordStart c = false := by
  simpa only [Char.ofNat_toNat] using (digit_points c.toNat (digit_listed digit)).2

theorem tame_of_cons {c : Char} {rest : List Char} (whole : tame (c :: rest) = true) :
    opensQuote c = false ∧ tame rest = true := by
  cases rest with
  | nil => simp_all [tame]
  | cons d rest => simp_all [tame]

theorem tame_of_append (front : List Char) {back : List Char} (whole : tame (front ++ back) = true) :
    tame back = true := by
  induction front with
  | nil => exact whole
  | cons c front ih => exact ih (tame_of_cons whole).2

/-- A text without quotes and without hyphens. -/
theorem tame_calm {cs : List Char} (calm : ∀ c ∈ cs, opensQuote c = false ∧ c ≠ '-') :
    tame cs = true := by
  induction cs with
  | nil => rfl
  | cons c cs ih =>
      have rest := ih fun d member => calm d (List.mem_cons_of_mem c member)
      have first := calm c List.mem_cons_self
      cases cs <;> simp [tame, first, rest]

theorem tame_append {front back : List Char} (first : tame front = true)
    (second : tame back = true) : tame (front ++ back) = true := by
  induction front with
  | nil => exact second
  | cons c front ih =>
      have rest := ih (tame_of_cons first).2
      cases front with
      | nil =>
          cases back with
          | nil => exact first
          | cons d back => simp_all [tame]
      | cons d front => simp_all [tame]

/-- The rest of a text that does not break off within a run of kept characters. -/
theorem take_while_before {keep : Char → Bool} (cs : List Char) {after : List Char}
    (stops : ∀ c ∈ after.head?, keep c = false) :
    (cs ++ after).takeWhile keep = cs.takeWhile keep ∧
      (cs ++ after).dropWhile keep = cs.dropWhile keep ++ after := by
  induction cs with
  | nil =>
      cases after with
      | nil => simp
      | cons c after =>
          have stop : keep c = false := stops c (by simp)
          simp [stop]
  | cons c cs ih =>
      by_cases kept : keep c = true <;> simp [kept, ih.1, ih.2]

def EndsNumber (after : List Char) : Prop :=
  ∀ c ∈ after.head?, c.isDigit = false ∧ c ≠ '.'

theorem Breaks.number {after : List Char} (breaks : Breaks after) : EndsNumber after := by
  intro c first
  have stop := breaks c first
  simp only [continuesToken, Bool.or_eq_false_iff, beq_eq_false_iff_ne] at stop
  refine ⟨?_, stop.1.1.2⟩
  by_contra digit
  simp [digit_is_word (by simpa using digit)] at stop

theorem split_number_before (cs : List Char) {after : List Char} (ends : EndsNumber after) :
    splitNumber (cs ++ after) = ((splitNumber cs).1, (splitNumber cs).2 ++ after) := by
  have digits : ∀ c ∈ after.head?, Char.isDigit c = false := fun c first => (ends c first).1
  have whole := take_while_before cs digits
  simp only [splitNumber, whole.1, whole.2]
  -- Behind the digits, a point belongs to the number only if a digit follows it.
  cases shape : cs.dropWhile Char.isDigit with
  | nil =>
      cases after with
      | nil => rfl
      | cons c after =>
          have point : c ≠ '.' := (ends c (by simp)).2
          simp [point]
  | cons c tail =>
      by_cases point : c = '.'
      · subst point
        cases tail with
        | nil =>
            cases after with
            | nil => rfl
            | cons d after =>
                have other : d.isDigit = false := digits d (by simp)
                simp [other]
        | cons d tail =>
            have fraction := take_while_before (d :: tail) digits
            simp only [List.cons_append] at fraction ⊢
            by_cases digit : d.isDigit = true
            · simp only [digit, ↓reduceIte, fraction.1, fraction.2]
            · simp [digit]
      · simp [point]

theorem head_before {d : Char} {cs after : List Char} (continues : continuesToken d = true)
    (breaks : Breaks after) (other : ∀ rest, cs = d :: rest → False) (rest : List Char) :
    cs ++ after = d :: rest → False := by
  intro shape
  cases cs with
  | nil =>
      simp only [List.nil_append] at shape
      simpa [continues] using breaks d (by simp [shape])
  | cons c cs =>
      simp only [List.cons_append, List.cons.injEq] at shape
      exact other cs (by rw [shape.1])

/-- Text behind a token that does not continue it is left alone when the token is read. -/
theorem read_token_before {c : Char} {cs after : List Char} (noQuote : opensQuote c = false)
    (breaks : Breaks after) :
    readToken c (cs ++ after) =
      ((readToken c cs).1, (readToken c cs).2.1, (readToken c cs).2.2 ++ after) := by
  have words : ∀ d ∈ after.head?, isWordChar d = false := by
    intro d first
    have stop := breaks d first
    simp only [continuesToken, Bool.or_eq_false_iff] at stop
    exact stop.1.1.1
  have word := take_while_before cs words
  have number := split_number_before cs breaks.number
  simp only [opensQuote, Bool.or_eq_false_iff, beq_eq_false_iff_ne] at noQuote
  fun_cases readToken c cs
  -- Signs that a second character would make longer.
  case case12 less notLe notNe =>
    have notLe' := head_before (by decide) breaks notLe
    have notNe' := head_before (by decide) breaks notNe
    simp [readToken, less]
  case case14 greater notGe =>
    have notGe' := head_before (by decide) breaks notGe
    simp [readToken, greater]
  case case16 bang notNe =>
    have notNe' := head_before (by decide) breaks notNe
    simp [readToken, bang]
  case case22 noDigit start taken => simp_all [readToken, taken]
  all_goals simp_all [readToken]

theorem tame_starts {c : Char} {rest : List Char} (quiet : tame (c :: rest) = true)
    (filled : isBlank c = false) (back : List Char) : StartsToken c (rest ++ back) := by
  cases rest with
  | nil =>
      have last : c ≠ '-' := by simp_all [tame]
      simp [StartsToken, filled, last]
  | cons d rest =>
      have apart : ¬ (c = '-' ∧ d = '-') := by
        rintro ⟨rfl, rfl⟩
        simp [tame] at quiet
      simpa [StartsToken, filled] using apart

/-- What holds of the empty text, and of a text that starts with a blank or a token if it holds of
what follows, holds of every tame text. Its tokens start where they do whatever stands behind. -/
theorem tame_induction {motive : (text : List Char) → tame text = true → Prop}
    (nil : motive [] rfl)
    (blank : ∀ c rest quiet quieter, isBlank c = true → motive rest quieter →
      motive (c :: rest) quiet)
    (token : ∀ c rest quiet quieter, (∀ back, StartsToken c (rest ++ back)) →
      opensQuote c = false → motive (readToken c rest).2.2 quieter → motive (c :: rest) quiet)
    (text : List Char) (quiet : tame text = true) : motive text quiet := by
  generalize size : text.length = n
  induction n using Nat.strong_induction_on generalizing text with
  | _ n ih =>
      cases text with
      | nil => exact nil
      | cons c rest =>
          have parts := tame_of_cons quiet
          simp only [List.length_cons] at size
          by_cases white : isBlank c = true
          · exact blank c rest quiet parts.2 white (ih rest.length (by omega) rest parts.2 rfl)
          · have shorter := read_token_shorter c rest
            have quieter : tame (readToken c rest).2.2 = true := by
              apply tame_of_append (readToken c rest).2.1
              rw [read_token_append]
              exact parts.2
            exact token c rest quiet quieter (tame_starts quiet (by simpa using white)) parts.1
              (ih _ (by omega) _ quieter rfl)

/-- Two texts are scanned apart if the first is tame and the second does not continue it. -/
theorem kinds_append {front back : List Char} (quiet : tame front = true) (breaks : Breaks back) :
    kinds (front ++ back) = kinds front ++ kinds back := by
  induction front, quiet using tame_induction with
  | nil => rfl
  | blank c rest _ _ white ih =>
      rw [List.cons_append, kinds_blank white, kinds_blank white]
      exact ih
  | token c rest _ _ starts noQuote ih =>
      have alone := starts []
      rw [List.append_nil] at alone
      rw [List.cons_append, kinds_token alone, kinds_token (starts back),
        read_token_before noQuote breaks, List.cons_append]
      exact congrArg _ ih

theorem word_start_is_word {c : Char} (start : isWordStart c = true) : isWordChar c = true := by
  simp only [isWordStart, Bool.or_eq_true] at start
  rcases start with letter | score
  · simp [isWordChar, letter]
  · simp [isWordChar, score]

theorem word_not_blank {c : Char} (word : isWordChar c = true) : isBlank c = false := by
  by_contra blank
  have outside := Text.blank_no_word (by simpa using blank)
  simp only [isWordChar, outside.1, outside.2, Bool.or_self, Bool.false_or, beq_iff_eq] at word
  subst word
  simp [isBlank] at blank

def tokenMarks : List Char :=
  ['=', '(', ')', ',', '.', ';', '*', '+', '-', '<', '>', '!', quoteMark, '\x22', '\x60']

theorem token_marks_no_word :
    ∀ point ∈ tokenMarks.map Char.toNat, isWordChar (Char.ofNat point) = false := by
  decide +kernel

theorem word_no_mark {c : Char} (word : isWordChar c = true) : c ∉ tokenMarks := by
  intro mark
  have outside := token_marks_no_word c.toNat (List.mem_map_of_mem mark)
  simp [word] at outside

theorem word_starts_token {c : Char} (word : isWordChar c = true) (rest : List Char) :
    StartsToken c rest := by
  refine ⟨word_not_blank word, fun both => word_no_mark word ?_⟩
  rw [both.1]
  decide

theorem read_token_other {c : Char} (other : c ∉ tokenMarks) (cs : List Char) :
    readToken c cs =
      if c.isDigit then
        (.number (String.ofList (c :: (splitNumber cs).1)), (splitNumber cs).1, (splitNumber cs).2)
      else if isWordStart c then
        (wordKind (c :: cs.takeWhile isWordChar), cs.takeWhile isWordChar,
          cs.dropWhile isWordChar)
      else (.illegal, [], cs) := by
  simp only [tokenMarks, List.mem_cons, not_or] at other
  fun_cases readToken c cs
  case case22 noDigit start taken => simp_all [taken]
  all_goals simp_all

theorem kinds_word {c : Char} {word after : List Char} (start : isWordStart c = true)
    (letters : ∀ d ∈ word, isWordChar d = true) (stops : ∀ d ∈ after.head?, isWordChar d = false) :
    kinds (c :: (word ++ after)) = wordKind (c :: word) :: kinds after := by
  have whole := take_while_before word stops
  have noDigit : ¬ c.isDigit = true := by
    intro digit
    simp [digit_no_word_start digit] at start
  rw [kinds_token (word_starts_token (word_start_is_word start) _),
    read_token_other (word_no_mark (word_start_is_word start))]
  simp only [noDigit, start, ↓reduceIte, whole.1, whole.2]
  rw [List.takeWhile_eq_self_iff.mpr letters, List.dropWhile_eq_nil_iff.mpr letters]
  rfl

def numeral : List Char → Bool
  | [] => false
  | c :: rest => c.isDigit && splitNumber rest == (rest, [])

theorem read_token_number {c : Char} {digits after : List Char}
    (number : numeral (c :: digits) = true) (ends : EndsNumber after) :
    readToken c (digits ++ after) = (.number (String.ofList (c :: digits)), digits, after) := by
  simp only [numeral, Bool.and_eq_true, beq_iff_eq] at number
  rw [read_token_other (word_no_mark (digit_is_word number.1))]
  simp only [number.1, ↓reduceIte, split_number_before digits ends, number.2]
  rfl

theorem kinds_number {digits after : List Char} (number : numeral digits = true)
    (ends : EndsNumber after) :
    kinds (digits ++ after) = .number (String.ofList digits) :: kinds after := by
  cases digits with
  | nil => simp [numeral] at number
  | cons c digits =>
      have word := number
      simp only [numeral, Bool.and_eq_true] at word
      rw [List.cons_append, kinds_token (word_starts_token (digit_is_word word.1) _),
        read_token_number number ends]

theorem split_string_double (cs after : List Char) (stops : after.head? ≠ some quoteMark) :
    splitString (Text.doubleQuotes cs ++ quoteMark :: after) =
      some (Text.doubleQuotes cs, after) := by
  induction cs with
  | nil =>
      cases after with
      | nil => simp [splitString]
      | cons d after =>
          have other : d ≠ quoteMark := by simpa using stops
          simp [splitString, other]
  | cons c cs ih =>
      by_cases quote : c = quoteMark
      · subst quote
        rw [Text.double_quotes_quote]
        simp [splitString, ih]
      · rw [Text.double_quotes_other quote]
        cases shape : Text.doubleQuotes cs ++ quoteMark :: after with
        | nil => simp at shape
        | cons d rest =>
            rw [shape] at ih
            simp [splitString, quote, shape, ih]

theorem kinds_literal (text : String) {after : List Char} (stops : after.head? ≠ some quoteMark) :
    kinds ((Text.literal text).toList ++ after) =
      .string (String.ofList (Text.doubleQuotes text.toList)) :: kinds after := by
  have shape : (Text.literal text).toList ++ after =
      quoteMark :: (Text.doubleQuotes text.toList ++ quoteMark :: after) := by
    simp [Text.literal]
  have starts : ∀ rest, StartsToken quoteMark rest := fun rest => by
    simp [StartsToken, isBlank, quoteMark]
  have read := split_string_double text.toList after stops
  rw [shape, kinds_token (starts _)]
  generalize Text.doubleQuotes text.toList ++ quoteMark :: after = body at read ⊢
  simp [readToken, read, quoteMark]

end Cohort.Sql
