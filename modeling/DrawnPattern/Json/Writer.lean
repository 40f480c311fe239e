import DrawnPattern.Decimal.Layout
import DrawnPattern.Json
set_option autoImplicit false

/-!
# Writing JSON

A value is written on one line without blanks, or over several lines with two
more blanks for each level.  Only quotes, backslashes and the characters below
the blank are escaped.  A double that is no number is written as null.
-/

namespace DrawnPattern.Json

/-- How one character is written between double quotes. -/
def escapedChar (c : Char) : List Char :=
  if c = '\x22' ∨ c = '\x5c' then ['\x5c', c]
  else if c = '\x08' then ['\x5c', 'b']
  else if c = '\t' then ['\x5c', 't']
  else if c = '\n' then ['\x5c', 'n']
  else if c = '\x0c' then ['\x5c', 'f']
  else if c = '\r' then ['\x5c', 'r']
  else if c.toNat < 32 then
    ['\x5c', 'u', '0', '0', Nat.digitChar (c.toNat / 16),
      Nat.digitChar (c.toNat % 16)]
  else [c]

/-- A string between double quotes. -/
def stringText (s : String) : String :=
  String.ofList ('\x22' :: s.toList.flatMap escapedChar ++ ['\x22'])

def numberText : Number → String
  | .int i => toString i
  | .float x => if x.isFinite then Decimal.Layout.document.text x else "null"

/-! ## On one line -/

mutual

/-- The value on one line, without blanks.  Members are written in the order in
which they are given. -/
def compact : Json → String
  | null => "null"
  | bool b => if b then "true" else "false"
  | num n => numberText n
  | str s => stringText s
  | arr items => "[" ++ compactItems items ++ "]"
  | obj members => "\x7b" ++ compactMembers members ++ "\x7d"
  | unreadable => "null"

def compactItems : List Json → String
  | [] => ""
  | j :: rest =>
    j.compact ++ (if rest.isEmpty then "" else ",") ++ compactItems rest

def compactMembers : List (String × Json) → String
  | [] => ""
  | (name, j) :: rest =>
    stringText name ++ ":" ++ j.compact ++ (if rest.isEmpty then "" else ",") ++
      compactMembers rest

end

/-! ## Over several lines -/

/-- The start of a line at some level. -/
def margin (level : Nat) : String :=
  "\n" ++ String.ofList (List.replicate (2 * level) ' ')

mutual

/-- The value over several lines, at some level; each item and each member has a
line of its own. -/
def prettyAt (level : Nat) : Json → String
  | null => "null"
  | bool b => if b then "true" else "false"
  | num n => numberText n
  | str s => stringText s
  | arr items =>
    if items.isEmpty then "[]"
    else "[" ++ prettyItems (level + 1) items ++ margin level ++ "]"
  | obj members =>
    if members.isEmpty then "\x7b\x7d"
    else "\x7b" ++ prettyMembers (level + 1) members ++ margin level ++ "\x7d"
  | unreadable => "null"

def prettyItems (level : Nat) : List Json → String
  | [] => ""
  | j :: rest =>
    margin level ++ j.prettyAt level ++ (if rest.isEmpty then "" else ",") ++
      prettyItems level rest

def prettyMembers (level : Nat) : List (String × Json) → String
  | [] => ""
  | (name, j) :: rest =>
    margin level ++ stringText name ++ ": " ++ j.prettyAt level ++
      (if rest.isEmpty then "" else ",") ++ prettyMembers level rest

end

/-- The value over several lines. -/
def pretty (j : Json) : String := j.prettyAt 0

end DrawnPattern.Json
