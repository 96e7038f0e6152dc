import Mathlib
import Cohort.Text.Blank
import Cohort.Text.Letter
import Cohort.Text.Numeric

/-!
Blanks are neither letters nor numeric, and what is left of a text without its blanks.
-/

namespace Cohort.Text

def blankPoints : List Nat :=
  [0x09, 0x0a, 0x0b, 0x0c, 0x0d, 0x20, 0x85, 0xa0, 0x1680, 0x2000, 0x2001, 0x2002, 0x2003, 0x2004,
   0x2005, 0x2006, 0x2007, 0x2008, 0x2009, 0x200a, 0x2028, 0x2029, 0x202f, 0x205f, 0x3000]

theorem blank_listed {c : Char} (blank : isBlank c = true) : c.toNat ∈ blankPoints := by
  simp only [isBlank, Bool.or_eq_true, Bool.and_eq_true, decide_eq_true_eq, beq_iff_eq] at blank
  simp only [blankPoints, List.mem_cons, List.not_mem_nil, or_false]
  omega

theorem blank_points_no_words :
    ∀ point ∈ blankPoints,
      isLetter (Char.ofNat point) = false ∧ isNumeric (Char.ofNat point) = false := by
  decide +kernel

theorem blank_no_word {c : Char} (blank : isBlank c = true) :
    isLetter c = false ∧ isNumeric c = false := by
  have checked := blank_points_no_words c.toNat (blank_listed blank)
  simpa only [Char.ofNat_toNat] using checked

end Cohort.Text
