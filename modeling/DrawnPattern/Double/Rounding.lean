import DrawnPattern.Double
set_option autoImplicit false

/-!
# Rounding to doubles

Every operation takes the exact result as a quotient of natural numbers in
units of `2 ^ -1074` and rounds it once, to the nearest double, a tie going to
the even significand.  A quotient of `2 ^ 1024` and more becomes infinity.
-/

namespace DrawnPattern.Double

/-- The whole number nearest to `num / den`; a tie goes to the even one. -/
def nearestEven (num den : Nat) : Nat :=
  let quotient := num / den
  let twice := 2 * (num % den)
  if twice < den then quotient
  else if den < twice then quotient + 1
  else quotient + quotient % 2

/-- The payload nearest to `num / den` units.  The unit in the last place is
chosen so that 53 bits remain; one more from rounding up carries into the
exponent by itself. -/
def payloadOfQuotient (num den : Nat) : Nat :=
  let shift := (num / den).log2 - 52
  min infinitePayload (shift * leadingBit +
    nearestEven num (den * Nat.pow 2 shift))

/-- The double nearest to a natural number, or infinity if the number is too big
for the greatest double. -/
def ofNat (n : Nat) : Double :=
  make false (payloadOfQuotient (n * unitsPerOne) 1)

/-- The double nearest to an integer. -/
def ofInt (i : Int) : Double :=
  if i < 0 then (ofNat i.natAbs).neg else ofNat i.natAbs

/-- The product of two finite magnitudes, rounded once.  Signs are left out
here: they are set after the digits are read. -/
def times (x y : Double) : Double :=
  make false (payloadOfQuotient (x.magnitude * y.magnitude) unitsPerOne)

/-- The quotient of two finite magnitudes, rounded; the second is not zero. -/
def dividedBy (x y : Double) : Double :=
  make false (payloadOfQuotient (x.magnitude * unitsPerOne) y.magnitude)

end DrawnPattern.Double
