set_option autoImplicit false

/-!
# TOML numbers and dates

A number or a date is recognised from its whole word.  Integers have 64 bits,
doubles must not exceed the largest one, and dates and times have to exist.
-/

namespace DrawnPattern.Toml

/-! ## Numbers -/

/-- Digits of some base, with single underscores between digits. -/
def isGroups (isDigit : Char → Bool) : List Char → Bool
  | [] => false
  | [c] => isDigit c
  | c :: '_' :: rest => isDigit c && isGroups isDigit rest
  | c :: rest => isDigit c && isGroups isDigit rest

def withoutUnderscores (cs : List Char) : List Char := cs.filter (· != '_')

/-- Decimal digits without an idle zero in front. -/
def isDecimal (cs : List Char) : Bool :=
  isGroups Char.isDigit cs && (cs == ['0'] || cs.head? != some '0')

/-- The value of a digit in a base up to sixteen. -/
def digitValue (c : Char) : Nat :=
  if c.isDigit then c.toNat - '0'.toNat else c.toLower.toNat - 'a'.toNat + 10

def valueInBase (base : Nat) (cs : List Char) : Nat :=
  (withoutUnderscores cs).foldl (fun n c => base * n + digitValue c) 0

def isHexDigit (c : Char) : Bool :=
  c.isDigit || ('a' ≤ c && c ≤ 'f') || ('A' ≤ c && c ≤ 'F')

/-- Removes a sign; whether it was a minus. -/
def unsigned : List Char → Bool × List Char
  | '-' :: rest => (true, rest)
  | '+' :: rest => (false, rest)
  | cs => (false, cs)

/-- The greatest integer of 64 bits. -/
def greatest : Nat := 0x7fffffffffffffff

/-- Whether a word is an integer of 64 bits, in decimal digits with a sign or in
another base without one. -/
def isInteger : List Char → Bool
  | '0' :: 'x' :: rest =>
    isGroups isHexDigit rest && decide (valueInBase 16 rest ≤ greatest)
  | '0' :: 'o' :: rest =>
    isGroups (fun c => '0' ≤ c && c ≤ '7') rest &&
      decide (valueInBase 8 rest ≤ greatest)
  | '0' :: 'b' :: rest =>
    isGroups (fun c => c == '0' || c == '1') rest &&
      decide (valueInBase 2 rest ≤ greatest)
  | cs =>
    let (negative, digits) := unsigned cs
    isDecimal digits &&
      decide (valueInBase 10 digits ≤ if negative then greatest + 1
        else greatest)

/-- The least number that rounds to infinity: half a unit above the
largest double. -/
def tooLarge : Nat := Nat.pow 2 1024 - Nat.pow 2 970

/-- Whether `digits * 10 ^ exponent` rounds to infinity.  Exponents far from
either side of the bound need no arithmetic. -/
def overflows (digits : Nat) (exponent : Int) : Bool :=
  if digits = 0 then false
  else if 400 < exponent then true
  else if 0 ≤ exponent then
    decide (tooLarge ≤ digits * Nat.pow 10 exponent.toNat)
  else if exponent < -(digits.log2 : Int) then false
  else decide (tooLarge * Nat.pow 10 (-exponent).toNat ≤ digits)

/-- The exponent after its letter; digits may start with zeros. -/
def exponent? (cs : List Char) : Option Int :=
  let (negative, digits) := unsigned cs
  if isGroups Char.isDigit digits then
    some (if negative then -(valueInBase 10 digits : Int)
      else valueInBase 10 digits)
  else none

def isExponentLetter (c : Char) : Bool := c == 'e' || c == 'E'

/-- Whether a word is a double; a positive one must not round to infinity. -/
def isDouble (cs : List Char) : Bool :=
  let (negative, magnitude) := unsigned cs
  if magnitude == ['i', 'n', 'f'] || magnitude == ['n', 'a', 'n'] then true
  else
    let (mantissa, power) := magnitude.span (!isExponentLetter ·)
    let (whole, point) := mantissa.span (· != '.')
    let fraction := point.drop 1
    let exponent := if power.isEmpty then some 0 else exponent? (power.drop 1)
    match exponent with
    | none => false
    | some exponent =>
      isDecimal whole && (point.isEmpty || isGroups Char.isDigit fraction) &&
        !(point.isEmpty && power.isEmpty) &&
        (negative ||
          !overflows (valueInBase 10 (whole ++ fraction))
            (exponent - (withoutUnderscores fraction).length))

/-! ## Dates and times -/

/-- A number of exactly so many digits. -/
def fixedDigits? (count : Nat) (cs : List Char) : Option Nat :=
  if cs.length = count ∧ cs.all Char.isDigit then some (valueInBase 10 cs)
  else none

def isLeapYear (year : Nat) : Bool :=
  year % 4 == 0 && (year % 100 != 0 || year % 400 == 0)

def daysIn (year month : Nat) : Nat :=
  if month = 2 then (if isLeapYear year then 29 else 28)
  else if [4, 6, 9, 11].contains month then 30 else 31

/-- A date such as 2000-02-29. -/
def isDate (cs : List Char) : Bool :=
  cs.length == 10 && cs[4]? == some '-' && cs[7]? == some '-' &&
    match fixedDigits? 4 (cs.take 4), fixedDigits? 2 ((cs.drop 5).take 2),
    fixedDigits? 2 (cs.drop 8) with
    | some year, some month, some day =>
      decide (1 ≤ month ∧ month ≤ 12 ∧ 1 ≤ day ∧ day ≤ daysIn year month)
    | _, _, _ => false

/-- Hours and minutes such as 07:32. -/
def isClock (cs : List Char) : Bool :=
  cs.length == 5 && cs[2]? == some ':' &&
    match fixedDigits? 2 (cs.take 2), fixedDigits? 2 (cs.drop 3) with
    | some hour, some minute => decide (hour ≤ 23 ∧ minute ≤ 59)
    | _, _ => false

/-- A time such as 07:32:00.5; a leap second is a second. -/
def isTime (cs : List Char) : Bool :=
  let (seconds, fraction) := (cs.drop 6).span (· != '.')
  isClock (cs.take 5) && cs[5]? == some ':' &&
    (match fixedDigits? 2 seconds with
      | some second => decide (second ≤ 60)
      | none => false) &&
    (fraction.isEmpty ||
      (decide (1 < fraction.length) && (fraction.drop 1).all Char.isDigit))

/-- A time with or without its distance from universal time. -/
def isOffsetTime (cs : List Char) : Bool :=
  let (time, offset) := cs.span fun c => c.isDigit || c == ':' || c == '.'
  isTime time &&
    match offset with
    | [] => true
    | ['Z'] => true
    | ['z'] => true
    | c :: clock => (c == '+' || c == '-') && isClock clock

/-- A date, a time, or both with a letter between them.  Only that it is one
matters here. -/
def isDateOrTime (cs : List Char) : Bool :=
  isDate cs || isTime cs ||
    (isDate (cs.take 10) && (cs[10]? == some 'T' || cs[10]? == some 't') &&
      isOffsetTime (cs.drop 11))

end DrawnPattern.Toml
