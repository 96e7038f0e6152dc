/-!
Whole numbers and their decimal digits.
-/

namespace Cohort.Decimal

def digitText (n : Nat) : List Char :=
  Nat.toDigits 10 n

def numberText (n : Nat) : String :=
  String.ofList (digitText n)

def digitsValue (digits : List Char) : Nat :=
  digits.foldl (fun n c => n * 10 + (c.toNat - '0'.toNat)) 0

def maxU64 : Nat := UInt64.size - 1

def maxU32 : Nat := UInt32.size - 1

/-- The highest of 64 bits. A number with a sign lies below it and not below its negation. -/
def signBit : Nat := 1 <<< 63

end Cohort.Decimal
