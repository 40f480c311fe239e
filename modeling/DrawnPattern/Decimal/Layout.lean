import DrawnPattern.Decimal.Shortest
set_option autoImplicit false

/-!
# How decimals are laid out

A `Layout` says which numbers are written positionally (`0.0001`, `30.0`) and
which with an exponent (`1e16`, `1.5e-5`), whether a positive exponent carries a
plus sign, and which of two equally near shortest decimals is written.  A
positional text always has a digit on both sides of the point; an exponent is
not padded.
-/

namespace DrawnPattern.Decimal

/-- The choices of a decimal format.  The point stands after the digit number
`point` of the shortest digits; it is written positionally from `leastPoint` to
`mostPoint`.  With `plus`, an exponent above zero has a plus sign. -/
structure Layout where
  tie : Tie
  leastPoint : Int
  mostPoint : Int
  plus : Bool

/-- Digits with a point after the first `point` of them, padded by zeros where
the point lies in front of them or behind them. -/
def positional (digits : List Char) (point : Int) : List Char :=
  if point ≤ 0 then
    ['0', '.'] ++ List.replicate (-point).toNat '0' ++ digits
  else if (digits.length : Int) ≤ point then
    digits ++ List.replicate (point - digits.length).toNat '0' ++ ['.', '0']
  else
    digits.take point.toNat ++ ['.'] ++ digits.drop point.toNat

/-- Digits with a point after the first, and the exponent of ten that
belongs to it. -/
def exponential (plus : Bool) (digits : List Char) (point : Int) : List Char :=
  digits.take 1 ++ (if digits.length ≤ 1 then [] else '.' :: digits.drop 1) ++
    'e' :: (if plus ∧ 1 < point then ['+'] else []) ++
    (toString (point - 1)).toList

/-- The text of a number without its sign. -/
def Layout.magnitudeText (layout : Layout) (s : Scientific) : List Char :=
  let digits := Nat.toDigits 10 s.digits
  let point := (digits.length : Int) + s.exponent
  if layout.leastPoint ≤ point ∧ point ≤ layout.mostPoint then
    positional digits point
  else exponential layout.plus digits point

/-- The text of a finite double: a minus if it is negative, then its shortest
digits as the layout sets them. -/
def Layout.text (layout : Layout) (x : Double) : String :=
  let magnitude :=
    if x.isZero then ['0', '.', '0']
    else layout.magnitudeText (shortest layout.tie x)
  String.ofList (if x.negative then '-' :: magnitude else magnitude)

/-- Numbers in queries and trees: positional from `0.0001` up to sixteen digits
before the point, and `1e16`. -/
def Layout.display : Layout := ⟨.up, -3, 16, false⟩

/-- Numbers in documents: positional from `0.00001` up to sixteen digits before
the point, and `1e+16`. -/
def Layout.document : Layout := ⟨.even, -4, 16, true⟩

end DrawnPattern.Decimal
