import DrawnPattern.Text.Invisible
import DrawnPattern.Text.Extending
import DrawnPattern.Text.Ignorable
set_option autoImplicit false

/-!
# Quoted text

How a text is shown in trees and messages: between double quotes, with a
backslash before a quote or a backslash, short escapes for the null character,
tab, line feed and carriage return, and the code point in hexadecimal for every
other character that would not be seen on its own.
-/

namespace DrawnPattern.Text

/-- Whether one of the ranges holds the code point. -/
def inRanges (ranges : List (Nat × Nat)) (code : Nat) : Bool :=
  ranges.any fun range => decide (range.1 ≤ code ∧ code ≤ range.2)

/-- Whether a character is shown by its code point.  ASCII from the space to the
tilde shows itself. -/
def isHidden (c : Char) : Bool :=
  if ' ' ≤ c ∧ c ≤ '~' then false
  else [extendingRanges, ignorableRanges,
    invisibleRanges].any (inRanges · c.toNat)

/-- How one character is shown between double quotes. -/
def quotedChar (c : Char) : List Char :=
  if c = '\x00' then ['\x5c', '0']
  else if c = '\t' then ['\x5c', 't']
  else if c = '\r' then ['\x5c', 'r']
  else if c = '\n' then ['\x5c', 'n']
  else if c = '\x5c' ∨ c = '\x22' then ['\x5c', c]
  else if isHidden c then
    ['\x5c', 'u', '\x7b'] ++ Nat.toDigits 16 c.toNat ++ ['\x7d']
  else [c]

/-- The text between double quotes, readable on one line however many
lines it has. -/
def quoted (text : String) : String :=
  String.ofList ('\x22' :: text.toList.flatMap quotedChar ++ ['\x22'])

end DrawnPattern.Text
