import Cohort.Json.Printer
import Cohort.Proofs.Sql.Scanning

/-!
The text of numbers. Without an exponent it is a numeral, with a minus in front of it if the number
is negative; with one it still holds neither a quote nor a comment.
-/

namespace Cohort

open Decimal (Scaled Style digitText)
open Sql (numeral splitNumber tame)

namespace Decimal

theorem digit_text_digits (n : Nat) : ∀ c ∈ digitText n, c.isDigit = true :=
  fun _ member => Nat.isDigit_of_mem_toDigits (by decide) (by decide) member

theorem digit_text_some (n : Nat) : digitText n ≠ [] :=
  Nat.toDigits_ne_nil

theorem numeral_digits {cs : List Char} (digits : ∀ c ∈ cs, c.isDigit = true) (some_ : cs ≠ []) :
    numeral cs = true := by
  cases cs with
  | nil => exact absurd rfl some_
  | cons c cs =>
      have whole : cs.takeWhile Char.isDigit = cs :=
        List.takeWhile_eq_self_iff.mpr fun d member => digits d (List.mem_cons_of_mem c member)
      have none_ : cs.dropWhile Char.isDigit = [] :=
        List.dropWhile_eq_nil_iff.mpr fun d member => digits d (List.mem_cons_of_mem c member)
      simp [numeral, splitNumber, whole, none_, digits c List.mem_cons_self]

theorem numeral_point {whole fraction : List Char} (digits : ∀ c ∈ whole, c.isDigit = true)
    (digits' : ∀ c ∈ fraction, c.isDigit = true) (some_ : whole ≠ []) (some' : fraction ≠ []) :
    numeral (whole ++ '.' :: fraction) = true := by
  cases whole with
  | nil => exact absurd rfl some_
  | cons c whole =>
      have kept : ∀ d ∈ whole, d.isDigit = true :=
        fun d member => digits d (List.mem_cons_of_mem c member)
      cases fraction with
      | nil => exact absurd rfl some'
      | cons d fraction =>
          have rest : (d :: fraction).takeWhile Char.isDigit = d :: fraction :=
            List.takeWhile_eq_self_iff.mpr digits'
          have none_ : (d :: fraction).dropWhile Char.isDigit = [] :=
            List.dropWhile_eq_nil_iff.mpr digits'
          have point : ('.').isDigit = false := by decide
          have first := digits' d List.mem_cons_self
          have split : splitNumber (whole ++ '.' :: d :: fraction) =
              (whole ++ '.' :: d :: fraction, []) := by
            simp only [splitNumber, List.takeWhile_append_of_pos kept,
              List.dropWhile_append_of_pos kept]
            rw [List.takeWhile_cons_of_neg (by simp [point]),
              List.dropWhile_cons_of_neg (by simp [point])]
            simp only [first, ↓reduceIte, rest, none_, List.append_nil]
          simp [numeral, split, digits c List.mem_cons_self]

def isPositional (c : Char) : Bool :=
  c.isDigit || c == '.'

theorem positional_digits {cs : List Char} (digits : ∀ c ∈ cs, c.isDigit = true) :
    ∀ c ∈ cs, isPositional c = true :=
  fun c member => by simp [isPositional, digits c member]

theorem positional_point {whole fraction : List Char} (digits : ∀ c ∈ whole, c.isDigit = true)
    (digits' : ∀ c ∈ fraction, c.isDigit = true) :
    ∀ c ∈ whole ++ '.' :: fraction, isPositional c = true := by
  intro c member
  simp only [List.mem_append, List.mem_cons] at member
  rcases member with left | rfl | right
  · exact positional_digits digits c left
  · rfl
  · exact positional_digits digits' c right

def IsNumeral (text : List Char) : Prop :=
  numeral text = true ∧ ∀ c ∈ text, isPositional c = true

def IsDecimal (text : List Char) : Prop :=
  IsNumeral text ∨
    ∃ front sign n, text = front ++ 'e' :: sign :: digitText n ∧ IsNumeral front ∧
      (sign = '-' ∨ sign = '+')

theorem digits_numeral {cs : List Char} (digits : ∀ c ∈ cs, c.isDigit = true) (some_ : cs ≠ []) :
    IsNumeral cs :=
  ⟨numeral_digits digits some_, positional_digits digits⟩

theorem point_numeral {whole fraction : List Char} (digits : ∀ c ∈ whole, c.isDigit = true)
    (digits' : ∀ c ∈ fraction, c.isDigit = true) (some_ : whole ≠ []) (some' : fraction ≠ []) :
    IsNumeral (whole ++ '.' :: fraction) :=
  ⟨numeral_point digits digits' some_ some', positional_point digits digits'⟩

theorem zeros_digits (n : Nat) : ∀ c ∈ List.replicate n '0', c.isDigit = true := by
  intro c member
  rw [(List.mem_replicate.mp member).2]
  rfl

theorem positional_numeral {cs : List Char} (digits : ∀ c ∈ cs, c.isDigit = true) (some_ : cs ≠ [])
    (exponent lead : Int) (leads : lead = exponent + cs.length - 1) :
    IsNumeral
      (if 0 ≤ exponent then cs ++ List.replicate exponent.toNat '0' ++ ['.', '0']
      else if 0 ≤ lead then cs.take (lead.toNat + 1) ++ '.' :: cs.drop (lead.toNat + 1)
      else '0' :: '.' :: List.replicate (-lead - 1).toNat '0' ++ cs) := by
  have length : 0 < cs.length := List.length_pos_iff.mpr some_
  split_ifs with whole large
  · refine point_numeral ?_ (zeros_digits 1) (by simp [some_]) (by simp)
    intro c member
    rcases List.mem_append.mp member with left | right
    · exact digits c left
    · exact zeros_digits _ c right
  · refine point_numeral (fun c member => digits c (List.mem_of_mem_take member))
      (fun c member => digits c (List.mem_of_mem_drop member)) ?_ ?_
    · simp [some_]
    · rw [ne_eq, List.drop_eq_nil_iff]
      omega
  · have shape : '0' :: '.' :: List.replicate (-lead - 1).toNat '0' ++ cs =
        ['0'] ++ '.' :: (List.replicate (-lead - 1).toNat '0' ++ cs) := rfl
    rw [shape]
    refine point_numeral (zeros_digits 1) ?_ (by simp) (by simp [some_])
    intro c member
    rcases List.mem_append.mp member with left | right
    · exact zeros_digits _ c left
    · exact digits c right

theorem style_write_decimal (style : Style) (number : Scaled) :
    IsDecimal (style.write number) := by
  have digits := digit_text_digits number.digits
  have some_ := digit_text_some number.digits
  simp only [Style.write]
  generalize digitText number.digits = cs at digits some_ ⊢
  split
  · exact .inl (positional_numeral digits some_ _ _ rfl)
  · refine .inr ⟨_, _, _, rfl, ?_, by split <;> simp⟩
    have first : ∀ c ∈ cs.take 1, c.isDigit = true :=
      fun c member => digits c (List.mem_of_mem_take member)
    have start : cs.take 1 ≠ [] := by simpa using some_
    split
    · simpa using digits_numeral first start
    · next more =>
        refine point_numeral first (fun c member => digits c (List.mem_of_mem_drop member)) start ?_
        have length : 0 < cs.length := List.length_pos_iff.mpr some_
        rw [ne_eq, List.drop_eq_nil_iff]
        omega

end Decimal

namespace Json

open Decimal (IsDecimal IsNumeral isPositional)

/-- A number is a decimal, or a minus in front of one. -/
theorem number_print_decimal (number : Number) :
    ∃ text, IsDecimal text ∧
      (number.print.toList = text ∨ number.print.toList = '-' :: text) := by
  cases number with
  | int n =>
      have digits : ∀ n, IsDecimal (digitText n) := fun n =>
        .inl (Decimal.digits_numeral (Decimal.digit_text_digits n) (Decimal.digit_text_some n))
      cases n with
      | ofNat n => exact ⟨_, digits n, .inl (by simp [Number.print, intText])⟩
      | negSucc n => exact ⟨_, digits (n + 1), .inr (by simp [Number.print, intText])⟩
  | float bits =>
      have magnitude : IsDecimal
          (if (Decimal.Binary.ofBits bits).mantissa = 0 then ['0', '.', '0']
          else numberStyle.write (Decimal.shortest bits)) := by
        split
        · exact .inl (Decimal.point_numeral (Decimal.zeros_digits 1) (Decimal.zeros_digits 1)
            (by simp) (by simp))
        · exact Decimal.style_write_decimal _ _
      refine ⟨_, magnitude, ?_⟩
      simp only [Number.print, floatText, String.toList_ofList]
      split
      · exact .inr rfl
      · exact .inl rfl

/-- Without an exponent a number is a numeral, or a minus in front of one. -/
theorem number_print_numeral {number : Number} (plain : 'e' ∉ number.print.toList) :
    ∃ digits, IsNumeral digits ∧
      (number.print.toList = digits ∨ number.print.toList = '-' :: digits) := by
  obtain ⟨text, decimal, shape⟩ := number_print_decimal number
  rcases decimal with digits | ⟨front, sign, n, rfl, _⟩
  · exact ⟨text, digits, shape⟩
  · rcases shape with shape | shape <;> simp [shape] at plain

/-- With an exponent, a number is a numeral in front of the letter, the sign and the digits of the
exponent, or a minus in front of that. -/
theorem number_print_exponent {number : Number} (exponent : 'e' ∈ number.print.toList) :
    ∃ front sign n, numeral front = true ∧ (sign = '-' ∨ sign = '+') ∧
      (number.print.toList = front ++ 'e' :: sign :: digitText n ∨
        number.print.toList = '-' :: (front ++ 'e' :: sign :: digitText n)) := by
  obtain ⟨text, decimal, shape⟩ := number_print_decimal number
  rcases decimal with ⟨_, positional⟩ | ⟨front, sign, n, rfl, numeral, signed⟩
  · have letter : 'e' ∉ text := fun member => absurd (positional 'e' member) (by decide)
    rcases shape with shape | shape <;> simp [shape, letter] at exponent
  · exact ⟨front, sign, n, numeral.1, signed, shape⟩

theorem digit_calm {c : Char} (digit : c.isDigit = true) : Sql.opensQuote c = false ∧ c ≠ '-' := by
  have word := Sql.digit_is_word digit
  have marks := Sql.word_no_mark word
  simp only [Sql.tokenMarks, List.mem_cons, not_or] at marks
  simp [Sql.opensQuote, marks]

theorem positional_tame {cs : List Char} (positional : ∀ c ∈ cs, isPositional c = true) :
    tame cs = true := by
  apply Sql.tame_calm
  intro c member
  have kept := positional c member
  simp only [isPositional, Bool.or_eq_true, beq_iff_eq] at kept
  rcases kept with digit | rfl
  · exact digit_calm digit
  · decide

theorem minus_tame {c : Char} {cs : List Char} (other : c ≠ '-') (quiet : tame (c :: cs) = true) :
    tame ('-' :: c :: cs) = true := by
  simp [tame, quiet, other, Sql.opensQuote, Text.quoteMark]

theorem exponent_tame {sign : Char} (signed : sign = '-' ∨ sign = '+') (n : Nat) :
    tame (sign :: digitText n) = true := by
  have digits := Decimal.digit_text_digits n
  cases shape : digitText n with
  | nil => exact absurd shape (Decimal.digit_text_some n)
  | cons c cs =>
      rw [shape] at digits
      have quiet := positional_tame (Decimal.positional_digits digits)
      rcases signed with rfl | rfl
      · exact minus_tame (digit_calm (digits c List.mem_cons_self)).2 quiet
      · simp [tame, quiet, Sql.opensQuote, Text.quoteMark]

/-- A decimal holds neither a quote nor a comment, with a minus in front of it or without. -/
theorem decimal_tame {text : List Char} (decimal : IsDecimal text) :
    tame text = true ∧ tame ('-' :: text) = true := by
  have first : ∃ c cs, text = c :: cs ∧ c ≠ '-' := by
    rcases decimal with ⟨digits, _⟩ | ⟨front, sign, n, rfl, ⟨_, positional⟩, _⟩
    · cases text with
      | nil => simp [numeral] at digits
      | cons c cs =>
          simp only [numeral, Bool.and_eq_true] at digits
          exact ⟨c, cs, rfl, (digit_calm digits.1).2⟩
    · cases front with
      | nil => exact ⟨_, _, rfl, by decide⟩
      | cons c front =>
          refine ⟨c, _, rfl, ?_⟩
          rintro rfl
          exact absurd (positional '-' List.mem_cons_self) (by decide)
  have quiet : tame text = true := by
    rcases decimal with ⟨_, positional⟩ | ⟨front, sign, n, rfl, ⟨_, positional⟩, signed⟩
    · exact positional_tame positional
    · have letter : tame ['e'] = true := by decide
      have whole := Sql.tame_append (Sql.tame_append (positional_tame positional) letter)
        (exponent_tame signed n)
      simpa using whole
  obtain ⟨c, cs, rfl, other⟩ := first
  exact ⟨quiet, minus_tame other quiet⟩

/-- A number holds neither a quote nor a comment. -/
theorem number_print_tame (number : Number) : tame number.print.toList = true := by
  obtain ⟨text, decimal, shape⟩ := number_print_decimal number
  have quiet := decimal_tame decimal
  rcases shape with shape | shape
  · rw [shape]
    exact quiet.1
  · rw [shape]
    exact quiet.2

end Json

end Cohort
