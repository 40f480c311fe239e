import DrawnPattern.Query.Name
import DrawnPattern.Traits
set_option autoImplicit false

/-!
# Values in queries

Texts stand between single quotes; a backslash escapes the quote, itself, the
line feed, the carriage return, the tab, and every other control character by
its code point.  Doubles keep a point or an exponent, and the three that have no
numeral are written as quotients.
-/

namespace DrawnPattern.Query

/-- Whether a character is a control character. -/
def isControl (c : Char) : Bool :=
  decide (c.toNat < 32 ∨ (127 ≤ c.toNat ∧ c.toNat < 160))

/-- The hexadecimal digit of a number below sixteen. -/
def upperHexDigit (n : Nat) : Char := (Nat.digitChar n).toUpper

/-- A code point below `16 ^ 4` as four hexadecimal digits. -/
def fourHexDigits (n : Nat) : List Char :=
  [n / 4096 % 16, n / 256 % 16, n / 16 % 16, n % 16].map upperHexDigit

/-- How one character is written between single quotes; control characters are
written by their code points, so a literal stays on its line. -/
def escapedChar (c : Char) : List Char :=
  if c = '\x5c' then ['\x5c', '\x5c']
  else if c = '\x27' then ['\x5c', '\x27']
  else if c = '\n' then ['\x5c', 'n']
  else if c = '\r' then ['\x5c', 'r']
  else if c = '\t' then ['\x5c', 't']
  else if isControl c then ['\x5c', 'u'] ++ fourHexDigits c.toNat
  else [c]

/-- The characters of a text literal. -/
def textChars (text : List Char) : List Char :=
  '\x27' :: text.flatMap escapedChar ++ ['\x27']

/-- The text that stands for a value in a query.  There are no literals for
infinities and NaN, so divisions that yield them stand for them. -/
def literal : Value → String
  | .float x =>
    if x.isNaN then "0.0/0.0"
    else if x.isInfinite then (if x.negative then "-1.0/0.0" else "1.0/0.0")
    else Decimal.Layout.display.text x
  | .string s => String.ofList (textChars s.toList)
  | v => v.display

/-- The properties that have a value; null says that a property is missing. -/
def presentProperties (properties : Properties) : List (String × Value) :=
  properties.toList.filter fun entry => !entry.2.isNull

/-- One entry of a property map: the name as an identifier, a colon, and the
value as a literal. -/
def propertyEntry (entry : String × Value) : String :=
  identifier entry.1 ++ ": " ++ literal entry.2

/-- The properties that have a value as a map; nothing if there are none. -/
def propertyMap? (properties : Properties) : Option String :=
  match presentProperties properties with
  | [] => none
  | entries =>
    some ("\x7b" ++ ", ".intercalate (entries.map propertyEntry) ++ "\x7d")

end DrawnPattern.Query
