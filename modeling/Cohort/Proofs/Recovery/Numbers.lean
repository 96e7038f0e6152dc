import Cohort.Proofs.Clause.Event
import Cohort.Proofs.Text.Words
import Cohort.Recovery

/-!
Counts and spans of time are read back as the numbers they were written for.
-/

namespace Cohort

open Decimal (digitText digitsValue numberText)
open Text (IsWord IsTrimmed)

namespace Decimal

theorem digits_value (n : Nat) : digitsValue (digitText n) = n := by
  have whole := @Nat.ofDigitChars_toDigits 10 n (by decide) (by decide)
  rw [Nat.ofDigitChars_eq_foldl] at whole
  simpa only [digitsValue, digitText, Nat.mul_comm] using whole

end Decimal

theorem digit_text_head {c : Char} {rest : List Char} {n : Nat} (shape : digitText n = c :: rest) :
    c ≠ '-' ∧ c ≠ '+' := by
  have digit := Decimal.digit_text_digits n c (by simp [shape])
  constructor
  · rintro rfl
    exact absurd digit (by decide)
  · rintro rfl
    exact absurd digit (by decide)

theorem sign_bit : (Decimal.signBit : Int) = 2 ^ 63 := rfl

/-- An amount of time that fits 64 bits is read back. -/
theorem read_integer_int {value : Int} (fits : -2 ^ 63 ≤ value ∧ value < 2 ^ 63) :
    readInteger? (String.ofList (Json.intText value)) = some value := by
  rw [← sign_bit] at fits
  have digits : ∀ n, (digitText n).all Char.isDigit = true := fun n =>
    List.all_eq_true.mpr (Decimal.digit_text_digits n)
  have some_ : ∀ n, digitText n ≠ [] := Decimal.digit_text_some
  cases value with
  | ofNat n =>
      have all := digits n
      have number := Decimal.digits_value n
      simp only [readInteger?, Json.intText, String.toList_ofList]
      cases shape : digitText n with
      | nil => exact absurd shape (some_ n)
      | cons c rest =>
          have head := digit_text_head shape
          rw [shape] at all number
          split
          · simp_all
          · simp_all
          · simp only [all, number, ne_eq, reduceCtorEq, not_false_eq_true, and_self, ↓reduceIte,
              one_mul]
            exact if_pos fits
  | negSucc n =>
      simp only [readInteger?, Json.intText, String.toList_ofList]
      simp only [some_ (n + 1), digits (n + 1), Decimal.digits_value, ne_eq, not_false_eq_true,
        and_self, ↓reduceIte]
      have same : (-1 : Int) * ((n + 1 : Nat) : Int) = Int.negSucc n := by
        rw [Int.negSucc_eq]
        omega
      rw [same, if_pos fits]

theorem int_text_word (value : Int) : IsWord (String.ofList (Json.intText value)) := by
  have digits : ∀ n, ∀ c ∈ digitText n, Text.isBlank c = false := fun n c member =>
    Sql.word_not_blank (Sql.digit_is_word (Decimal.digit_text_digits n c member))
  cases value with
  | ofNat n =>
      exact ⟨by simpa [Json.intText] using Decimal.digit_text_some n,
        by simpa [Json.intText] using digits n⟩
  | negSucc n =>
      have minus : Text.isBlank '-' = false := by decide
      exact ⟨by simp [Json.intText], by simpa [Json.intText, minus] using digits (n + 1)⟩

/-- A span of time is read back with single blanks between the words of its unit. -/
theorem split_interval_span {value : Int} {period : String}
    (fits : -2 ^ 63 ≤ value ∧ value < 2 ^ 63) (some_ : Text.isBlankText period = false) :
    splitInterval? (spanText value period) = some (value, " ".intercalate (Text.words period)) := by
  have words := Text.words_front (int_text_word value) period
  have units := Text.words_some some_
  cases shape : Text.words period with
  | nil => exact absurd shape units
  | cons unit units => 
      simp only [splitInterval?, spanText, words, shape, read_integer_int fits, Option.map_some]

theorem count_threshold {args : List Sql.Operand} {op : Sql.Comparison} {n : Nat}
    (fits : n ≤ Decimal.maxU32) :
    countThreshold? (.compare (.call "COUNT" args) op (.number (numberText n))) = some n := by
  have name : "COUNT".toList.map Char.toLower = ['c', 'o', 'u', 'n', 't'] := by decide
  have digits : (digitText n).all Char.isDigit = true :=
    List.all_eq_true.mpr (Decimal.digit_text_digits n)
  have value := Decimal.digits_value n
  simp only [countThreshold?, numberText, String.toList_ofList, name, digits, value, ne_eq,
    Decimal.digit_text_some, not_false_eq_true, and_self, ↓reduceIte]
  exact congrArg some (Nat.min_eq_left fits)

end Cohort
