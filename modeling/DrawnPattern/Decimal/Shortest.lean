import DrawnPattern.Double
set_option autoImplicit false

/-!
# The shortest decimal of a double

Of all decimals that round to a finite double, `shortest` takes one with the
fewest digits, and of those the nearest.  The reals that round to the double
form an interval; for one digit, two, and so on, the two neighbours of the
double on that decimal grid are tested against it in exact arithmetic, and the
first grid with a hit decides.  Seventeen digits always suffice.
-/

namespace DrawnPattern.Decimal

/-- Which of two equally near decimals is taken. -/
inductive Tie where
  | up
  | even
  deriving DecidableEq, Repr

/-- The number `digits * 10 ^ exponent`: what is left of a double when only its
shortest decimal is known. -/
structure Scientific where
  digits : Nat
  exponent : Int
  deriving DecidableEq, Repr

/-- How many decimal digits a number is written with. -/
def width (n : Nat) : Nat := (Nat.toDigits 10 n).length

/-- The exponent `k` with `10 ^ k ≤ num / den < 10 ^ (k + 1)`, for a positive
quotient. -/
def decade (num den : Nat) : Int :=
  if den ≤ num then (width (num / den) : Int) - 1
  else -(width ((den - 1) / num) : Int)

/-- The reals that round to a double, in quarters of `2 ^ -1074`; the ends
belong to them iff the significand is even. -/
structure Interval where
  least : Nat
  most : Nat
  closed : Bool

/-- Half a unit in the last place on either side; below a power of two the unit
is half as large. -/
def Interval.ofDouble (x : Double) : Interval :=
  let unit := Nat.pow 2 x.shift
  let narrow := x.significand == Double.leadingBit && decide (0 < x.shift)
  { least := 4 * x.magnitude - (if narrow then unit else 2 * unit)
    most := 4 * x.magnitude + 2 * unit
    closed := x.significand % 2 == 0 }

/-- Whether the quotient `num / den`, in units of `2 ^ -1074`, lies in the
interval. -/
def Interval.holds (i : Interval) (num den : Nat) : Bool :=
  if i.closed then
    decide (i.least * den ≤ 4 * num) && decide (4 * num ≤ i.most * den)
  else decide (i.least * den < 4 * num) && decide (4 * num < i.most * den)

/-- The decimal with step `10 ^ exponent` nearest to the double among those of
its two neighbours that round to it. -/
def onGrid? (tie : Tie) (x : Double) (exponent : Int) : Option Scientific :=
  let num := Nat.pow 10 exponent.toNat * Double.unitsPerOne
  let den := Nat.pow 10 (-exponent).toNat
  let low := x.magnitude * den / num
  let rest := x.magnitude * den % num
  let interval := Interval.ofDouble x
  let lowHit := interval.holds (low * num) den
  let highHit := interval.holds ((low + 1) * num) den
  let upper : Bool :=
    if 2 * rest < num then false
    else if num < 2 * rest then true
    else match tie with
      | .up => true
      | .even => low % 2 == 1
  match lowHit, highHit with
  | true, true => some ⟨if upper then low + 1 else low, exponent⟩
  | true, false => some ⟨low, exponent⟩
  | false, true => some ⟨low + 1, exponent⟩
  | false, false => none

/-- The same number without zeros at the end of its digits. -/
def trim (digits : Nat) (exponent : Int) : Scientific :=
  if digits ≠ 0 ∧ digits % 10 = 0 then trim (digits / 10) (exponent + 1)
  else ⟨digits, exponent⟩
termination_by digits
decreasing_by omega

/-- The shortest decimal that rounds to a positive finite double.  Only the step
up to the next power of ten leaves a zero to trim. -/
def shortest (tie : Tie) (x : Double) : Scientific :=
  let top := decade x.magnitude Double.unitsPerOne
  match (List.range 17).findSome? fun (more : Nat) =>
      onGrid? tie x (top - more) with
  | some found => trim found.digits found.exponent
  | none => ⟨0, 0⟩

end DrawnPattern.Decimal
