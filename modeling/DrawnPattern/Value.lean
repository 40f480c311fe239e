import DrawnPattern.Decimal.Layout
import DrawnPattern.Text.Quoted
set_option autoImplicit false

/-!
# Property values

A property holds null, a truth value, a 64-bit integer, a double or a text.
There are two notions of agreement: identity (`=`), which tells every bit of a
double apart, and `same`, which compares doubles as numbers.  `order` is total
and ties only on identity.
-/

namespace DrawnPattern

/-- The value of a property.  Null is a value too: an element drawn with a
property that is null has to lack that property. -/
inductive Value where
  | null
  | bool (value : Bool)
  | int (value : Int)
  | float (value : Double)
  | string (value : String)
  deriving DecidableEq, Inhabited

namespace Value

def isNull : Value → Bool
  | .null => true
  | _ => false

/-- Agreement of two values, as a database compares them: doubles agree
as numbers, so a NaN agrees with nothing, and an integer never agrees
with a double. -/
def same : Value → Value → Bool
  | .float x, .float y => x.same y
  | a, b => a == b

/-- Null, truth values, integers, doubles and texts follow each other in
this order. -/
def kindRank : Value → Nat
  | .null => 0
  | .bool _ => 1
  | .int _ => 2
  | .float _ => 3
  | .string _ => 4

/-- The total order on values: by kind, then within the kind.  Doubles go by
their bits here, so that only identical values tie. -/
def order : Value → Value → Ordering
  | .bool a, .bool b => compare a b
  | .int a, .int b => compare a b
  | .float a, .float b => a.order b
  | .string a, .string b => compare a b
  | a, b => compare a.kindRank b.kindRank

/-- The value as shown in trees: texts stand between double quotes, and numbers
are written as in queries. -/
def display : Value → String
  | .null => "null"
  | .bool b => if b then "true" else "false"
  | .int i => toString i
  | .float x =>
    if x.isNaN then "NaN"
    else if x.isInfinite then (if x.negative then "-inf" else "inf")
    else Decimal.Layout.display.text x
  | .string s => Text.quoted s

end Value

end DrawnPattern
