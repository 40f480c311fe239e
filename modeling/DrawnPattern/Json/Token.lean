import DrawnPattern.Decimal.Reading
import DrawnPattern.Json
set_option autoImplicit false

/-!
# JSON tokens

A text is cut into marks, words and quoted strings.  A word is a maximal run of
characters that are neither blank nor a mark nor a quote, so a number or a
constant is recognised from its whole word.  One pass over the characters does
it all.
-/

namespace DrawnPattern.Json

/-- What a text consists of, blanks apart: marks, texts and words, the words
already taken for what they stand for. -/
inductive Token where
  | openArray
  | closeArray
  | openObject
  | closeObject
  | comma
  | colon
  /-- nothing if the string holds half a surrogate pair -/
  | string (value : Option String)
  /-- a constant or a number -/
  | scalar (value : Json)

/-! ## Numbers -/

/-- A number as it is written, taken apart but not yet computed. -/
structure Numeral where
  negative : Bool
  whole : List Char
  fraction : List Char
  exponent : Option Int

/-- Digits of which the first is not an idle zero. -/
def isWhole : List Char → Bool
  | [] => false
  | ['0'] => true
  | c :: rest => c != '0' && c.isDigit && rest.all Char.isDigit

def isDigits (cs : List Char) : Bool := !cs.isEmpty && cs.all Char.isDigit

def valueOfDigits (digits : List Char) : Nat := Nat.ofDigitChars 10 digits 0

/-- The exponent after the letter that announces it. -/
def exponent? : List Char → Option Int
  | '+' :: digits =>
    if isDigits digits then some (valueOfDigits digits) else none
  | '-' :: digits =>
    if isDigits digits then some (-(valueOfDigits digits : Int)) else none
  | digits => if isDigits digits then some (valueOfDigits digits) else none

/-- Nothing, or an exponent. -/
def exponentPart? : List Char → Option (Option Int)
  | [] => some none
  | c :: rest => if c = 'e' ∨ c = 'E' then (exponent? rest).map some else none

/-- The numeral written without its sign. -/
def magnitude? (negative : Bool) (cs : List Char) : Option Numeral :=
  let whole := cs.takeWhile Char.isDigit
  if !isWhole whole then none
  else match cs.dropWhile Char.isDigit with
    | '.' :: rest =>
      let fraction := rest.takeWhile Char.isDigit
      if fraction.isEmpty then none
      else (exponentPart? (rest.dropWhile Char.isDigit)).map
        (⟨negative, whole, fraction, ·⟩)
    | rest => (exponentPart? rest).map (⟨negative, whole, [], ·⟩)

/-- The numeral that a word spells. -/
def numeral? : List Char → Option Numeral
  | '-' :: cs => magnitude? true cs
  | cs => magnitude? false cs

/-- The greatest integer of 64 bits without a sign. -/
def greatest : Nat := 0xffffffffffffffff

/-- The magnitude of the least integer of 64 bits with a sign. -/
def leastMagnitude : Nat := 0x8000000000000000

/-- Takes digits into a number as long as it has 64 bits; the digits
from the first that does not fit are counted only. -/
def absorb (n : Nat) : List Char → Nat × Nat
  | [] => (n, 0)
  | c :: rest =>
    let next := 10 * n + (c.toNat - '0'.toNat)
    if next ≤ greatest then absorb next rest else (n, rest.length + 1)

/-- The double that a numeral stands for; nothing if it is too big. -/
def Numeral.double? (n : Numeral) : Option Double :=
  let (digits, skippedWhole) := absorb 0 n.whole
  let (digits, skippedFraction) := absorb digits n.fraction
  let shift :=
    (skippedWhole : Int) - (n.fraction.length - skippedFraction : Nat)
  (Decimal.read? digits (shift + n.exponent.getD 0)).map fun x =>
    if n.negative then x.neg else x

/-- The integer that a numeral stands for, if it is one of 64 bits.  There is no
negative zero among them. -/
def Numeral.int? (n : Numeral) : Option Int :=
  let value := valueOfDigits n.whole
  if !n.fraction.isEmpty || n.exponent.isSome then none
  else if n.negative then
    (if 0 < value ∧ value ≤ leastMagnitude then some (-(value : Int)) else none)
  else if value ≤ greatest then some value else none

def Numeral.json (n : Numeral) : Json :=
  match n.int? with
  | some i => .num (.int i)
  | none => match n.double? with
    | some x => .num (.float x)
    | none => .unreadable

/-- What a word stands for: a constant, or else a number. -/
def word? (word : List Char) : Option Json :=
  if word = ['n', 'u', 'l', 'l'] then some .null
  else if word = ['t', 'r', 'u', 'e'] then some (.bool true)
  else if word = ['f', 'a', 'l', 's', 'e'] then some (.bool false)
  else (numeral? word).map Numeral.json

/-! ## Strings -/

/-- A character of a string, or a 16-bit unit given by its number. -/
inductive Piece where
  | char (value : Char)
  | unit (value : Nat)

/-- The text of some pieces: two halves of a surrogate pair make a character,
and a lone half makes the string unreadable. -/
def textOfPieces : List Piece → Option (List Char)
  | [] => some []
  | .char c :: rest => (c :: ·) <$> textOfPieces rest
  | .unit high :: .unit low :: rest =>
    if 0xD800 ≤ high ∧ high < 0xDC00 then
      if 0xDC00 ≤ low ∧ low < 0xE000 then
        (Char.ofNat (0x10000 + (high - 0xD800) * 0x400 + (low - 0xDC00)) ::
          ·) <$> textOfPieces rest
      else none
    else if 0xDC00 ≤ high ∧ high < 0xE000 then none
    else (Char.ofNat high :: ·) <$> textOfPieces (.unit low :: rest)
  | .unit u :: rest =>
    if 0xD800 ≤ u ∧ u < 0xE000 then none
    else (Char.ofNat u :: ·) <$> textOfPieces rest

/-- The character that a one-letter escape stands for. -/
def shortEscape? (c : Char) : Option Char :=
  if c = '\x22' ∨ c = '\x5c' ∨ c = '/' then some c
  else if c = 'b' then some '\x08'
  else if c = 'f' then some '\x0c'
  else if c = 'n' then some '\n'
  else if c = 'r' then some '\r'
  else if c = 't' then some '\t'
  else none

def hexValue? (c : Char) : Option Nat :=
  if c.isDigit then some (c.toNat - '0'.toNat)
  else if 'a' ≤ c ∧ c ≤ 'f' then some (c.toNat - 'a'.toNat + 10)
  else if 'A' ≤ c ∧ c ≤ 'F' then some (c.toNat - 'A'.toNat + 10)
  else none

/-! ## The pass -/

/-- Where in a token the pass is; what was read of it stands in reverse. -/
inductive Place where
  /-- between tokens, or in a word that is not finished -/
  | outside (word : List Char)
  | inside (pieces : List Piece)
  | escape (pieces : List Piece)
  /-- in a unit of which some digits are still missing -/
  | hex (pieces : List Piece) (missing value : Nat)

/-- A character that ends a word. -/
inductive Boundary where
  | blank
  | quote
  | mark (token : Token)

def boundary? (c : Char) : Option Boundary :=
  if c = ' ' ∨ c = '\n' ∨ c = '\t' ∨ c = '\r' then some .blank
  else if c = '\x22' then some .quote
  else if c = '[' then some (.mark .openArray)
  else if c = ']' then some (.mark .closeArray)
  else if c = '\x7b' then some (.mark .openObject)
  else if c = '\x7d' then some (.mark .closeObject)
  else if c = ',' then some (.mark .comma)
  else if c = ':' then some (.mark .colon)
  else none

/-- The token of the word before a boundary; none if there is no word. -/
def endWord (word : List Char) : Option (List Token) :=
  if word.isEmpty then some []
  else (word? word.reverse).map fun j => [.scalar j]

def endString (pieces : List Piece) : Token :=
  .string ((textOfPieces pieces.reverse).map String.ofList)

/-- The tokens of a text from some place on; nothing if some token is
malformed. -/
def tokensFrom : Place → List Char → Option (List Token)
  | .outside word, [] => endWord word
  | .outside word, c :: rest =>
    match boundary? c with
    | none => tokensFrom (.outside (c :: word)) rest
    | some .blank => do
        pure ((← endWord word) ++ (← tokensFrom (.outside []) rest))
    | some .quote => do
        pure ((← endWord word) ++ (← tokensFrom (.inside []) rest))
    | some (.mark token) => do
        pure ((← endWord word) ++ token :: (← tokensFrom (.outside []) rest))
  | .inside pieces, c :: rest =>
    if c = '\x22' then (endString pieces :: ·) <$> tokensFrom (.outside []) rest
    else if c = '\x5c' then tokensFrom (.escape pieces) rest
    else if c.toNat < 32 then none
    else tokensFrom (.inside (.char c :: pieces)) rest
  | .escape pieces, c :: rest =>
    if c = 'u' then tokensFrom (.hex pieces 4 0) rest
    else match shortEscape? c with
      | some c => tokensFrom (.inside (.char c :: pieces)) rest
      | none => none
  | .hex pieces missing value, c :: rest =>
    match hexValue? c with
    | none => none
    | some digit =>
      let value := 16 * value + digit
      if missing ≤ 1 then tokensFrom (.inside (.unit value :: pieces)) rest
      else tokensFrom (.hex pieces (missing - 1) value) rest
  | _, [] => none

/-- The tokens of a text. -/
def tokens (text : List Char) : Option (List Token) :=
  tokensFrom (.outside []) text

end DrawnPattern.Json
