import Cohort.Proofs.Json.Number
import Cohort.Proofs.Sql.Nesting

/-!
Texts that are written as tokens. `Writes text ks` says that the text is scanned as tokens of the
kinds `ks` wherever a separator or nothing stands behind it, `Closed text ks` that it is whatever
stands behind it. Written texts are put together like the texts themselves.
-/

namespace Cohort.Sql

open Text (isBlank quoteMark)

def isSeparator (c : Char) : Bool :=
  c == ' ' || c == '(' || c == ')' || c == ',' || c == ';'

def Separated (after : List Char) : Prop :=
  ∀ c ∈ after.head?, isSeparator c = true

theorem separator_no_word {c : Char} (separator : isSeparator c = true) : isWordChar c = false := by
  by_contra word
  have mark := word_no_mark (c := c) (by simpa using word)
  have blank := word_not_blank (c := c) (by simpa using word)
  simp only [isSeparator, Bool.or_eq_true, beq_iff_eq] at separator
  rcases separator with (((rfl | rfl) | rfl) | rfl) | rfl
  · simp [isBlank] at blank
  all_goals exact mark (by decide)

theorem Separated.breaks {after : List Char} (separated : Separated after) : Breaks after := by
  intro c first
  have separator := separated c first
  have word := separator_no_word separator
  simp only [isSeparator, Bool.or_eq_true, beq_iff_eq] at separator
  rcases separator with (((rfl | rfl) | rfl) | rfl) | rfl <;> simp [continuesToken, word]

theorem Separated.no_quote {after : List Char} (separated : Separated after) :
    after.head? ≠ some quoteMark := by
  intro quote
  have separator := separated quoteMark (by simp [quote])
  revert separator
  decide

theorem Separated.no_word {after : List Char} (separated : Separated after) :
    ∀ c ∈ after.head?, isWordChar c = false :=
  fun c first => separator_no_word (separated c first)

theorem separated_nil : Separated [] := by
  simp [Separated]

theorem separated_head {c : Char} (separator : isSeparator c = true) (rest : List Char) :
    Separated (c :: rest) := by
  simpa [Separated] using separator

def Writes (text : String) (ks : List TokenKind) : Prop :=
  ∀ after, Separated after → kinds (text.toList ++ after) = ks ++ kinds after

def Closed (text : String) (ks : List TokenKind) : Prop :=
  ∀ after, kinds (text.toList ++ after) = ks ++ kinds after

def Separates (text : String) : Prop :=
  ∀ after, Separated after → Separated (text.toList ++ after)

def Opens (text : String) : Prop :=
  ∀ after, Separated (text.toList ++ after)

theorem Opens.separates {text : String} (opens : Opens text) : Separates text :=
  fun after _ => opens after

theorem separates_empty : Separates "" := by
  intro after separated
  simpa using separated

theorem opens_text {text : String} (first : text.toList.head?.any isSeparator = true) :
    Opens text := by
  intro after c head
  cases chars : text.toList with
  | nil => simp [chars] at first
  | cons d rest =>
      have same : d = c := by simpa [chars] using head
      simpa [chars, same] using first

theorem Opens.append {front : String} (opens : Opens front) (back : String) :
    Opens (front ++ back) := by
  intro after
  rw [String.toList_append, List.append_assoc]
  exact opens _

theorem opens_spaced (word : String) : Opens (" " ++ word ++ " ") :=
  ((opens_text (by decide)).append word).append " "

theorem Closed.writes {text : String} {ks : List TokenKind} (closed : Closed text ks) :
    Writes text ks :=
  fun after _ => closed after

theorem Closed.append {front back : String} {ks ls : List TokenKind} (first : Closed front ks)
    (second : Closed back ls) : Closed (front ++ back) (ks ++ ls) := by
  intro after
  rw [String.toList_append, List.append_assoc, first, second, List.append_assoc]

theorem Closed.then {front back : String} {ks ls : List TokenKind} (first : Closed front ks)
    (second : Writes back ls) : Writes (front ++ back) (ks ++ ls) := by
  intro after separated
  rw [String.toList_append, List.append_assoc, first, second after separated, List.append_assoc]

theorem Writes.close {front back : String} {ks ls : List TokenKind} (first : Writes front ks)
    (second : Closed back ls) (opens : Opens back) : Closed (front ++ back) (ks ++ ls) := by
  intro after
  rw [String.toList_append, List.append_assoc, first _ (opens after), second, List.append_assoc]

theorem Writes.append {front back : String} {ks ls : List TokenKind} (first : Writes front ks)
    (second : Writes back ls) (separates : Separates back) : Writes (front ++ back) (ks ++ ls) := by
  intro after separated
  rw [String.toList_append, List.append_assoc, first _ (separates after separated),
    second after separated, List.append_assoc]

theorem writes_empty : Writes "" [] := by
  intro after _
  simp

theorem Writes.kinds_eq {text : String} {ks : List TokenKind} (writes : Writes text ks) :
    kindsOf (tokenize text) = ks := by
  have whole := writes [] separated_nil
  simpa [kinds_of_tokenize] using whole

def separated (separator : TokenKind) : List (List TokenKind) → List TokenKind
  | [] => []
  | [ks] => ks
  | ks :: rest => ks ++ separator :: separated separator rest

theorem separated_cons (separator : TokenKind) (ks : List TokenKind) {rest : List (List TokenKind)}
    (more : rest ≠ []) :
    separated separator (ks :: rest) = ks ++ separator :: separated separator rest := by
  cases rest with
  | nil => exact absurd rfl more
  | cons => rfl

theorem writes_separated {word : String} {separator : TokenKind} (closed : Closed word [separator])
    (opens : Opens word) {texts : List String} {parts : List (List TokenKind)}
    (each : List.Forall₂ Writes texts parts) :
    Writes (word.intercalate texts) (separated separator parts) := by
  induction each with
  | nil => exact writes_empty
  | @cons text ks texts parts first others ih =>
      cases others with
      | nil => simpa [separated] using first
      | cons second others =>
          have whole := (first.close closed opens).then ih
          rw [String.intercalate_cons_of_ne_nil (List.cons_ne_nil _ _),
            separated_cons _ _ (List.cons_ne_nil _ _)]
          simpa using whole

theorem writes_text {text : String} {ks : List TokenKind} (quiet : tame text.toList = true)
    (scanned : kinds text.toList = ks) : Writes text ks := by
  subst scanned
  exact fun _ separated => kinds_append quiet separated.breaks

theorem closed_single {c : Char} (separator : isSeparator c = true) (after : List Char) :
    kinds (c :: after) = kinds [c] ++ kinds after := by
  simp only [isSeparator, Bool.or_eq_true, beq_iff_eq] at separator
  rcases separator with (((rfl | rfl) | rfl) | rfl) | rfl
  · rw [kinds_blank (by decide), kinds_blank (by decide)]
    rfl
  all_goals
    rw [kinds_token ⟨by decide, by simp⟩, kinds_token ⟨by decide, by simp⟩]
    rfl

def endsClosed (cs : List Char) : Bool :=
  tame cs.dropLast && cs.getLast?.any isSeparator

theorem closed_text {text : String} {ks : List TokenKind} (ends : endsClosed text.toList = true)
    (scanned : kinds text.toList = ks) : Closed text ks := by
  subst scanned
  intro after
  simp only [endsClosed, Bool.and_eq_true, Option.any_eq_true] at ends
  obtain ⟨quiet, c, last, separator⟩ := ends
  have shape := List.dropLast_append_getLast? c last
  have breaks : ∀ rest, Breaks (c :: rest) := fun rest => (separated_head separator rest).breaks
  rw [← shape, List.append_assoc, List.singleton_append, kinds_append quiet (breaks after),
    kinds_append quiet (breaks []), closed_single separator after, List.append_assoc]

theorem closed_minus : Closed "- " [.mark .minus] := by
  intro after
  have read : readToken '-' (' ' :: after) = (.mark .minus, [], ' ' :: after) := by
    simp [readToken]
  have starts : StartsToken '-' (' ' :: after) := ⟨by decide, by simp⟩
  rw [show "- ".toList ++ after = '-' :: ' ' :: after from rfl, kinds_token starts, read]
  exact congrArg _ (kinds_blank (by decide) after)

/-- Whether the whole of a name is one token that is a name without quotes. -/
def IsPlain (name : String) : Prop :=
  kindsOf (tokenize name) = [.identifier name]

instance (name : String) : Decidable (IsPlain name) :=
  inferInstanceAs (Decidable (_ = _))

theorem word_of_identifier {word : List Char} {name : String}
    (found : wordKind word = .identifier name) : word = name.toList := by
  cases keyword : Keyword.ofWord? word with
  | none =>
      have same : String.ofList word = name := by simpa [wordKind, keyword] using found
      simp [← same]
  | some k => simp [wordKind, keyword] at found

/-- A plain name is a word. -/
theorem plain_word {name : String} (plain : IsPlain name) :
    ∃ c word, name.toList = c :: word ∧ isWordStart c = true ∧
      (∀ d ∈ word, isWordChar d = true) ∧ wordKind (c :: word) = .identifier name := by
  have whole : kinds name.toList = [.identifier name] := plain
  rw [kinds_eq] at whole
  have parts := split_layout_append false name.toList
  cases body : (splitLayout false name.toList).2 with
  | nil => simp [body] at whole
  | cons c cs =>
      simp only [body, List.cons.injEq] at whole parts
      have found := whole.1
      generalize (splitLayout false name.toList).1 = layout at parts
      clear whole
      revert found
      fun_cases readToken c cs
      case case19 raw rest read =>
        intro found
        have same : String.ofList raw = name := by simpa using found
        have count := congrArg List.length parts
        rw [split_quoted_append read, ← same] at count
        simp only [List.length_append, List.length_cons, String.toList_ofList] at count
        omega
      case case22 noDigit start taken =>
        intro found
        have same := word_of_identifier found
        refine ⟨c, taken, same.symm, by simpa using start, ?_, found⟩
        intro d member
        exact List.mem_takeWhile_imp member
      all_goals simp

/-- A plain name is scanned as a name in front of everything that does not continue the word. -/
theorem plain_kinds {name : String} (plain : IsPlain name) {after : List Char}
    (stops : ∀ d ∈ after.head?, isWordChar d = false) :
    kinds (name.toList ++ after) = .identifier name :: kinds after := by
  obtain ⟨c, word, shape, start, letters, kind⟩ := plain_word plain
  rw [shape, List.cons_append, kinds_word start letters stops, kind]

theorem writes_name {name : String} (plain : IsPlain name) : Writes name [.identifier name] :=
  fun _ separated => plain_kinds plain separated.no_word

theorem writes_column {table name : String} (first : IsPlain table) (second : IsPlain name) :
    Writes (table ++ "." ++ name) [.identifier table, .mark .dot, .identifier name] := by
  intro after separated
  have point : kinds ('.' :: (name.toList ++ after)) =
      .mark .dot :: kinds (name.toList ++ after) := by
    rw [kinds_token ⟨by decide, by simp⟩]
    rfl
  have apart : isWordChar '.' = false := by
    simpa [isWordChar] using token_marks_no_word '.'.toNat (by decide)
  have stops : ∀ d ∈ ('.' :: (name.toList ++ after)).head?, isWordChar d = false := by
    simpa using apart
  have shape : (table ++ "." ++ name).toList ++ after =
      table.toList ++ '.' :: (name.toList ++ after) := by simp
  rw [shape, plain_kinds first stops, point, plain_kinds second separated.no_word]
  rfl

theorem writes_literal (text : String) :
    Writes (Text.literal text) [.string (String.ofList (Text.doubleQuotes text.toList))] :=
  fun _ separated => kinds_literal text separated.no_quote

/-- A name between quotes that are no part of it is scanned as the name, whatever follows. -/
theorem closed_quoted {quote : Char} (quotes : quote = '\x22' ∨ quote = '\x60') {name : String}
    (free : quote ∉ name.toList) :
    Closed (String.ofList (quote :: name.toList ++ [quote])) [.identifier name] := by
  intro after
  have split (cs : List Char) (free : quote ∉ cs) :
      splitQuoted quote (cs ++ quote :: after) = some (cs, after) := by
    induction cs with
    | nil => simp [splitQuoted]
    | cons c cs ih =>
        rw [List.mem_cons, not_or] at free
        simp [splitQuoted, Ne.symm free.1, ih free.2]
  have starts (rest : List Char) : StartsToken quote rest := by
    rcases quotes with rfl | rfl <;> exact ⟨by decide, by simp⟩
  have read : readToken quote (name.toList ++ quote :: after) =
      (.identifier name, name.toList ++ [quote], after) := by
    have found := split name.toList free
    rcases quotes with rfl | rfl <;> simp [readToken, found, quoteMark]
  have shape : (String.ofList (quote :: name.toList ++ [quote])).toList ++ after =
      quote :: (name.toList ++ quote :: after) := by simp
  rw [shape, kinds_token (starts _), read]
  rfl

theorem writes_numeral {text : String} (digits : numeral text.toList = true) :
    Writes text [.number text] := by
  intro after separated
  rw [kinds_number digits separated.breaks.number, String.ofList_toList]
  rfl

theorem numeral_no_hyphen {digits : List Char} (number : numeral digits = true)
    (after : List Char) : (digits ++ after).head? ≠ some '-' := by
  cases digits with
  | nil => simp [numeral] at number
  | cons c digits =>
      simp only [numeral, Bool.and_eq_true] at number
      simpa using (Json.digit_calm number.1).2

theorem kinds_minus {rest : List Char} (single : rest.head? ≠ some '-') :
    kinds ('-' :: rest) = .mark .minus :: kinds rest := by
  have starts : StartsToken '-' rest := ⟨by decide, fun both => single both.2⟩
  have read : readToken '-' rest = (.mark .minus, [], rest) := by simp [readToken]
  rw [kinds_token starts, read]

theorem kinds_plus (rest : List Char) : kinds ('+' :: rest) = .mark .plus :: kinds rest := by
  have starts : StartsToken '+' rest := ⟨by decide, by simp⟩
  have read : readToken '+' rest = (.mark .plus, [], rest) := by simp [readToken]
  rw [kinds_token starts, read]

theorem writes_negative {text : String} {digits : List Char} (number : numeral digits = true)
    (shape : text.toList = '-' :: digits) :
    Writes text [.mark .minus, .number (String.ofList digits)] := by
  intro after separated
  rw [shape, List.cons_append, kinds_minus (numeral_no_hyphen number after),
    kinds_number number separated.breaks.number]
  rfl

/-- The letter of an exponent is read as a name of its own. -/
theorem kinds_exponent {front digits : List Char} (number : numeral front = true)
    (number' : numeral digits = true) {sign : Char} (signed : sign = '-' ∨ sign = '+') :
    ∃ mark, (mark = .minus ∨ mark = .plus) ∧ ∀ after, Separated after →
      kinds (front ++ 'e' :: sign :: (digits ++ after)) =
        [.number (String.ofList front), .identifier "e", .mark mark,
          .number (String.ofList digits)] ++ kinds after := by
  have letter : ∀ rest, isWordChar sign = false → kinds (front ++ 'e' :: sign :: rest) =
      .number (String.ofList front) :: .identifier "e" :: kinds (sign :: rest) := by
    intro rest apart
    have ends : EndsNumber ('e' :: sign :: rest) := by simp [EndsNumber]
    have stops : ∀ d ∈ (sign :: rest).head?, isWordChar d = false := by simpa using apart
    have word := @kinds_word 'e' [] _ (by decide) (by simp) stops
    rw [kinds_number number ends]
    exact congrArg _ word
  have apart : isWordChar sign = false := by
    rcases signed with rfl | rfl
    · simpa [isWordChar] using token_marks_no_word '-'.toNat (by decide)
    · simpa [isWordChar] using token_marks_no_word '+'.toNat (by decide)
  rcases signed with rfl | rfl
  · refine ⟨.minus, .inl rfl, fun after separated => ?_⟩
    rw [letter _ apart, kinds_minus (numeral_no_hyphen number' after),
      kinds_number number' separated.breaks.number]
    rfl
  · refine ⟨.plus, .inr rfl, fun after separated => ?_⟩
    rw [letter _ apart, kinds_plus, kinds_number number' separated.breaks.number]
    rfl

/-- A number with an exponent is written as a number with a name, a sign and a number behind it. -/
theorem writes_exponent {number : Json.Number} (exponent : 'e' ∈ number.print.toList) :
    ∃ front digits mark digits', (front = [] ∨ front = [TokenKind.mark .minus]) ∧
      (mark = Mark.minus ∨ mark = Mark.plus) ∧
      Writes number.print
        (front ++ [.number digits, .identifier "e", .mark mark, .number digits']) := by
  obtain ⟨front, sign, n, numeral_, signed, shape⟩ := Json.number_print_exponent exponent
  have digits := Decimal.numeral_digits (Decimal.digit_text_digits n) (Decimal.digit_text_some n)
  obtain ⟨mark, signs, scanned⟩ := kinds_exponent numeral_ digits signed
  rcases shape with shape | shape
  · refine ⟨[], String.ofList front, mark, String.ofList (Decimal.digitText n), .inl rfl, signs,
      fun after separated => ?_⟩
    have whole := scanned after separated
    simpa [shape] using whole
  · refine ⟨[.mark .minus], String.ofList front, mark, String.ofList (Decimal.digitText n), .inr rfl,
      signs, fun after separated => ?_⟩
    have single := numeral_no_hyphen numeral_ ('e' :: sign :: (Decimal.digitText n ++ after))
    have whole := scanned after separated
    rw [shape]
    simp only [List.cons_append, List.append_assoc, kinds_minus single, whole, List.nil_append]

end Cohort.Sql
