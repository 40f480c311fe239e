set_option autoImplicit false

/-!
# Doubles

A 64-bit floating point number is kept as its bits.  Identity of two doubles is
identity of bits; the numeric comparison `same` follows IEEE 754 (a NaN differs
from everything, the two zeros are the same); `order` is the total order that
agrees with identity.

A finite double is `magnitude / 2 ^ 1074` up to its sign, so everything below
is arithmetic on natural numbers.
-/

namespace DrawnPattern

/-- A 64-bit floating point number, given by its bits.  What is computed of it
is told in natural numbers, so nothing rests on the arithmetic of a machine. -/
structure Double where
  bits : UInt64
  deriving DecidableEq, Inhabited, Repr

namespace Double

/-! ## Fields -/

/-- The weight of the sign among the bits. -/
def signBit : Nat := Nat.pow 2 63

/-- The weight of the leading bit of a significand, and of the lowest bit of the
exponent. -/
def leadingBit : Nat := Nat.pow 2 52

/-- How many units of `2 ^ -1074` make one.  The unit is the least positive
double, so that every finite double is a whole number of units. -/
def unitsPerOne : Nat := Nat.pow 2 1074

/-- The bits without the sign: exponent and fraction read as one number, which
grows with the magnitude. -/
def payload (x : Double) : Nat := x.bits.toNat % signBit

/-- Whether the sign bit is set. -/
def negative (x : Double) : Bool := decide (signBit ≤ x.bits.toNat)

/-- The payload of infinity; a NaN lies above it, a finite number below. -/
def infinitePayload : Nat := 2047 * leadingBit

def isNaN (x : Double) : Bool := decide (infinitePayload < x.payload)

def isInfinite (x : Double) : Bool := x.payload == infinitePayload

def isFinite (x : Double) : Bool := decide (x.payload < infinitePayload)

def isZero (x : Double) : Bool := x.payload == 0

/-- How often the unit `2 ^ -1074` is doubled to get the unit in the
last place. -/
def shift (x : Double) : Nat := x.payload / leadingBit - 1

/-- The magnitude in units in the last place. -/
def significand (x : Double) : Nat :=
  if x.payload < leadingBit then x.payload
  else leadingBit + x.payload % leadingBit

/-- The magnitude of a finite double in units of `2 ^ -1074`: its significand,
doubled as often as its exponent says. -/
def magnitude (x : Double) : Nat := x.significand * Nat.pow 2 x.shift

/-- The double with this sign and payload. -/
def make (negative : Bool) (payload : Nat) : Double :=
  ⟨UInt64.ofNat (payload + if negative then signBit else 0)⟩

def zero : Double := make false 0
def infinity : Double := make false infinitePayload
def nan : Double := make false (infinitePayload + leadingBit / 2)

/-- The same magnitude with the other sign. -/
def neg (x : Double) : Double := make (!x.negative) x.payload

/-! ## Comparison -/

/-- Numeric equality: no NaN equals anything, not even itself, and the two zeros
are equal. -/
def same (x y : Double) : Bool :=
  !x.isNaN && !y.isNaN && (x == y || (x.isZero && y.isZero))

/-- The position of a double in the total order: negative numbers by falling
magnitude, then the others by rising magnitude. -/
def rank (x : Double) : Int :=
  if x.negative then -(x.payload : Int) - 1 else x.payload

/-- The total order on doubles, from the negative NaNs up to the other ones;
only identical doubles tie, so the two zeros do not. -/
def order (x y : Double) : Ordering := compare x.rank y.rank

end Double

end DrawnPattern
