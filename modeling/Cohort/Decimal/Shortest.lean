import Cohort.Decimal.Binary

/-!
The shortest decimal that reads back as a given binary number. The decimals that read back form an
interval around the number. Of the grids of multiples of a power of ten, the coarsest that meets the
interval gives the fewest digits, and its point next to the number is taken. A tie goes to the even
point.
-/

namespace Cohort.Decimal

structure Scaled where
  digits : Nat
  exponent : Int
  deriving DecidableEq, Repr

/-- The point of the grid of step `10 ^ power` next to the number, if it reads back. Both are scaled
to whole numbers: the number to `value`, the step to `step`, the interval to `low` and `high`. -/
def pointOnGrid (number : Binary) (power : Int) : Option Nat :=
  let scale := number.exponent - 2
  let unit := raise 2 scale * raise 10 (-power)
  let step := raise 10 power * raise 2 (-scale)
  let value := 4 * number.mantissa * unit
  let low := value - (if number.narrowBelow then 1 else 2) * unit
  let high := value + 2 * unit
  let below := value / step
  let inside (point : Nat) : Bool :=
    if number.mantissa % 2 = 0 then low ≤ point * step && point * step ≤ high
    else low < point * step && point * step < high
  let belowGap := value - below * step
  let aboveGap := (below + 1) * step - value
  if inside below && inside (below + 1) then
    if belowGap < aboveGap ∨ (belowGap = aboveGap ∧ below % 2 = 0) then some below
    else some (below + 1)
  else if inside below then some below
  else if inside (below + 1) then some (below + 1)
  else none

def firstOnGrids (number : Binary) (power : Int) : Nat → Scaled
  | 0 => ⟨0, 0⟩
  | bound + 1 =>
      match pointOnGrid number power with
      | some point => ⟨point, power⟩
      | none => firstOnGrids number (power - 1) bound

/-- The shortest decimal for the magnitude of a finite number that is not zero. No such number is
above `10 ^ 309`, and the grid of step `10 ^ (-324)` meets every interval. -/
def shortest (bits : UInt64) : Scaled :=
  firstOnGrids (Binary.ofBits bits) 308 633

end Cohort.Decimal
