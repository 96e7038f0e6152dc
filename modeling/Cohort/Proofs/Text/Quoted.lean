import Mathlib
import Cohort.Text.Quoted

/-!
Doubling the quotes of a text loses nothing: reading pairs as one quote gives the text back.
-/

namespace Cohort.Text

@[simp] theorem double_quotes_nil : doubleQuotes [] = [] := rfl

theorem double_quotes_quote (rest : List Char) :
    doubleQuotes (quoteMark :: rest) = quoteMark :: quoteMark :: doubleQuotes rest := by
  simp [doubleQuotes]

theorem double_quotes_other {c : Char} (other : c ≠ quoteMark) (rest : List Char) :
    doubleQuotes (c :: rest) = c :: doubleQuotes rest := by
  simp [doubleQuotes, other]

theorem undouble_quotes_other {c : Char} (other : c ≠ quoteMark) (rest : List Char) :
    undoubleQuotes (c :: rest) = c :: undoubleQuotes rest := by
  cases rest <;> simp [undoubleQuotes, other]

theorem undouble_double (cs : List Char) : undoubleQuotes (doubleQuotes cs) = cs := by
  induction cs with
  | nil => rfl
  | cons c rest ih =>
      by_cases quote : c = quoteMark
      · subst quote
        rw [double_quotes_quote]
        simp [undoubleQuotes, ih]
      · rw [double_quotes_other quote, undouble_quotes_other quote, ih]

theorem double_quotes_append (front back : List Char) :
    doubleQuotes (front ++ back) = doubleQuotes front ++ doubleQuotes back := by
  induction front with
  | nil => rfl
  | cons c rest ih =>
      by_cases quote : c = quoteMark <;> simp [doubleQuotes, quote, ih]

/-- A text without quotes is its own literal, apart from the quotes around it. -/
theorem double_quotes_none {cs : List Char} (none : quoteMark ∉ cs) : doubleQuotes cs = cs := by
  induction cs with
  | nil => rfl
  | cons c rest ih =>
      have other : c ≠ quoteMark := fun same => none (by simp [same])
      rw [double_quotes_other other, ih (fun member => none (List.mem_cons_of_mem c member))]

theorem undouble_quotes_none {cs : List Char} (none : quoteMark ∉ cs) : undoubleQuotes cs = cs := by
  have whole := undouble_double cs
  rwa [double_quotes_none none] at whole

/-- A text that is read along with its doubled form, which is some quotes ahead, does not catch up:
with each of its quotes the doubled form gets one more ahead. -/
theorem double_quotes_ahead {rest after : List Char} (single : ¬ [quoteMark, quoteMark] <+: rest)
    (cs : List Char) (ahead : Nat) :
    cs ++ rest ≠
      List.replicate (ahead + 1) quoteMark ++ (doubleQuotes cs ++ quoteMark :: after) := by
  have pushed (count : Nat) (back : List Char) :
      List.replicate count quoteMark ++ quoteMark :: back =
        quoteMark :: (List.replicate count quoteMark ++ back) := by
    rw [List.append_cons, ← List.replicate_succ', List.replicate_succ, List.cons_append]
  induction cs generalizing ahead with
  | nil =>
      intro same
      rw [List.nil_append, double_quotes_nil, List.nil_append, pushed, List.replicate_succ] at same
      exact single ⟨_, same.symm⟩
  | cons c cs ih =>
      intro same
      rw [List.replicate_succ, List.cons_append, List.cons_append, List.cons.injEq] at same
      obtain ⟨rfl, same⟩ := same
      rw [double_quotes_quote, List.cons_append, List.cons_append, pushed, pushed] at same
      exact ih (ahead + 1) same

/-- Where a text stands in the place of its doubled form and the quote behind that, it holds no
quote. -/
theorem double_quotes_same {cs rest after : List Char}
    (single : ¬ [quoteMark, quoteMark] <+: rest)
    (same : cs ++ rest = doubleQuotes cs ++ quoteMark :: after) : quoteMark ∉ cs := by
  induction cs with
  | nil => simp
  | cons c cs ih =>
      by_cases quote : c = quoteMark
      · subst quote
        rw [double_quotes_quote] at same
        exact absurd (List.cons.inj same).2 (double_quotes_ahead single cs 0)
      · rw [double_quotes_other quote] at same
        simpa [Ne.symm quote] using ih (List.cons.inj same).2

end Cohort.Text
