import Cohort.Decimal.Digits

/-!
Binary numbers of 64 bits taken apart: a sign, and a magnitude `mantissa * 2 ^ exponent`.
-/

namespace Cohort.Decimal

structure Binary where
  mantissa : Nat
  exponent : Int
  /-- Whether the number below is only half as far away as the one above. -/
  narrowBelow : Bool
  deriving DecidableEq, Repr

def isNegative (bits : UInt64) : Bool :=
  signBit ≤ bits.toNat

def hiddenBit : Nat := 1 <<< 52

/-- The magnitude of a finite number; the mantissa of a number that is not tiny has a hidden bit. -/
def Binary.ofBits (bits : UInt64) : Binary :=
  let fraction : Nat := bits.toNat % hiddenBit
  let scale : Nat := bits.toNat / hiddenBit % 2048
  if scale = 0 then ⟨fraction, -1074, false⟩
  else ⟨hiddenBit + fraction, scale - 1075, fraction = 0 ∧ 1 < scale⟩

def raise (base : Nat) (n : Int) : Nat :=
  base.pow n.toNat

end Cohort.Decimal
