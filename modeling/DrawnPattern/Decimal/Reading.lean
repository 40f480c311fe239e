import DrawnPattern.Double.Rounding
set_option autoImplicit false

/-!
# Reading decimals

A decimal is read in steps: its digits become a double, and that double is
multiplied or divided by a power of ten, by at most `10 ^ 308` at a time.  Each
step rounds, so the result is exact only as long as the digits and the power
are doubles themselves; a number whose digits and exponent are small reads as
the nearest double.
-/

namespace DrawnPattern.Decimal

/-- The double nearest to a power of ten. -/
def powerOfTen (exponent : Nat) : Double := Double.ofNat (Nat.pow 10 exponent)

/-- Scales a magnitude by a power of ten; nothing if the result is too big.
Several steps are taken only down, where the result may still be a double. -/
def scale? (x : Double) (exponent : Int) : Option Double :=
  if exponent < -308 then
    if x.isZero then some x
    else scale? (x.dividedBy (powerOfTen 308)) (exponent + 308)
  else if exponent < 0 then some (x.dividedBy (powerOfTen exponent.natAbs))
  else if exponent ≤ 308 then
    let product := x.times (powerOfTen exponent.natAbs)
    if product.isInfinite then none else some product
  else if x.isZero then some x else none
termination_by exponent.natAbs

/-- The double read for `digits * 10 ^ exponent`; nothing if it is too big.
Digits and power are rounded apart, so it need not be the nearest one. -/
def read? (digits : Nat) (exponent : Int) : Option Double :=
  scale? (Double.ofNat digits) exponent

end DrawnPattern.Decimal
