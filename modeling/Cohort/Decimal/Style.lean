import Cohort.Decimal.Digits
import Cohort.Decimal.Shortest

/-!
How a decimal is written. Numbers of moderate size are positional, with at least one digit on each
side of the point; all others have one digit in front of the point and an exponent with its sign.
-/

namespace Cohort.Decimal

/-- The powers of ten of the leading digit that are written positionally. -/
structure Style where
  least : Int
  most : Int

def Style.write (style : Style) (number : Scaled) : List Char :=
  let digits := digitText number.digits
  let lead := number.exponent + digits.length - 1
  if style.least ≤ lead ∧ lead ≤ style.most then
    if 0 ≤ number.exponent then
      digits ++ List.replicate number.exponent.toNat '0' ++ ['.', '0']
    else if 0 ≤ lead then
      let whole := lead.toNat + 1
      digits.take whole ++ '.' :: digits.drop whole
    else '0' :: '.' :: List.replicate (-lead - 1).toNat '0' ++ digits
  else
    let fraction := if digits.length = 1 then [] else '.' :: digits.drop 1
    let sign := if lead < 0 then '-' else '+'
    digits.take 1 ++ fraction ++ 'e' :: sign :: digitText lead.natAbs

end Cohort.Decimal
