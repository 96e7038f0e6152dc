import Cohort.Decimal.Binary

/-!
The binary number next to a given decimal. A tie goes to the even mantissa.
-/

namespace Cohort.Decimal

def divideToEven (num den : Nat) : Nat :=
  let quotient := num / den
  let twice := 2 * (num % den)
  if den < twice ∨ (twice = den ∧ quotient % 2 = 1) then quotient + 1 else quotient

def nearest (digits : Nat) (exponent : Int) : Option UInt64 :=
  if digits = 0 then some 0
  else if 400 < exponent then none
  else if exponent + digits.log2 + 1 < -400 then some 0
  else
    let num := digits * raise 10 exponent
    let den := raise 10 (-exponent)
    let quotientAt (rounding : Nat → Nat → Nat) (power : Int) : Nat :=
      rounding (num * raise 2 (-power)) (den * raise 2 power)
    let guess := max ((num.log2 : Int) - den.log2 - 53) (-1074)
    let power := if 2 * hiddenBit ≤ quotientAt (· / ·) guess then guess + 1 else guess
    let mantissa := quotientAt divideToEven power
    -- A mantissa that rounds up to the next power of two carries into the exponent by itself.
    let bits := (power + 1074).toNat * hiddenBit + mantissa
    if bits < 2047 * hiddenBit then some (UInt64.ofNat bits) else none

end Cohort.Decimal
