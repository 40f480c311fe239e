set_option autoImplicit false

/-!
# TOML strings

A string stands between quotes, one or three of them.  Between double quotes
backslashes escape; between single quotes every character stands for itself.
Three quotes let a string run over several lines, and then a backslash at the
end of a line joins it to the next text.
-/

namespace DrawnPattern.Toml

/-- Blanks inside a line. -/
def isBlank (c : Char) : Bool := c == ' ' || c == '\t'

/-- Characters that may stand in strings and comments: all but controls,
and the tab. -/
def isVisible (c : Char) : Bool :=
  c == '\t' || (decide (' ' ≤ c) && c != '\x7f')

/-- Line ends of two characters become one. -/
def oneCharLineEnds : List Char → List Char
  | [] => []
  | '\r' :: '\n' :: rest => '\n' :: oneCharLineEnds rest
  | c :: rest => c :: oneCharLineEnds rest

/-! ## Finding the end -/

/-- The text before a closing quote and what follows it; a backslash protects
the character after it if it escapes. -/
def untilQuote (quote : Char) (escapes : Bool) :
    List Char → Option (List Char × List Char)
  | [] => none
  | c :: rest =>
    if c = quote then some ([], rest)
    else if escapes && c == '\x5c' then
      match rest with
      | [] => none
      | d :: rest =>
        (untilQuote quote escapes rest).map fun (body, rest) =>
          (c :: d :: body, rest)
    else (untilQuote quote escapes rest).map fun (body, rest) =>
      (c :: body, rest)

/-- The text before three closing quotes and what follows them. -/
def untilThree (quote : Char) (escapes : Bool) :
    List Char → Option (List Char × List Char)
  | [] => none
  | c :: rest =>
    if c = quote ∧ rest.take 2 = [quote, quote] then some ([], rest.drop 2)
    else if escapes && c == '\x5c' then
      match rest with
      | [] => none
      | d :: rest =>
        (untilThree quote escapes rest).map fun (body, rest) =>
          (c :: d :: body, rest)
    else (untilThree quote escapes rest).map fun (body, rest) =>
      (c :: body, rest)

/-- Up to two quotes before the three that close belong to the text. -/
def takeExtraQuotes (quote : Char) (found : List Char × List Char) :
    List Char × List Char :=
  let extra := (found.2.take 2).takeWhile (· == quote)
  (found.1 ++ extra, found.2.drop extra.length)

/-! ## Escapes -/

def hexDigit? (c : Char) : Option Nat :=
  if c.isDigit then some (c.toNat - '0'.toNat)
  else if 'a' ≤ c ∧ c ≤ 'f' then some (c.toNat - 'a'.toNat + 10)
  else if 'A' ≤ c ∧ c ≤ 'F' then some (c.toNat - 'A'.toNat + 10)
  else none

def shortEscape? (c : Char) : Option Char :=
  if c = '\x22' ∨ c = '\x5c' then some c
  else if c = 'b' then some '\x08'
  else if c = 't' then some '\t'
  else if c = 'n' then some '\n'
  else if c = 'f' then some '\x0c'
  else if c = 'r' then some '\r'
  else none

/-- The character with a code point, if there is one. -/
def char? (code : Nat) : Option Char :=
  if code.isValidChar then some (Char.ofNat code) else none

/-- Where in an escaped text the reading is: after a plain character, after a
backslash, or inside a code point. -/
inductive Escape where
  | plain
  | backslash
  /-- in a code point of which some digits are still missing -/
  | code (missing value : Nat)
  /-- after a backslash and blanks, before the line ends -/
  | lineEnd
  /-- after such a line, before its text goes on -/
  | margin

/-- The text that an escaped one stands for; nothing if something in it may not
stand there. -/
def unescape (manyLines : Bool) : Escape → List Char → Option (List Char)
  | .plain, [] => some []
  | .margin, [] => some []
  | _, [] => none
  | .plain, c :: rest =>
    if c = '\x5c' then unescape manyLines .backslash rest
    else if isVisible c || (manyLines && c == '\n') then
      (c :: ·) <$> unescape manyLines .plain rest
    else none
  | .backslash, c :: rest =>
    if c = 'u' then unescape manyLines (.code 4 0) rest
    else if c = 'U' then unescape manyLines (.code 8 0) rest
    else if manyLines && c == '\n' then unescape manyLines .margin rest
    else if manyLines && isBlank c then unescape manyLines .lineEnd rest
    else match shortEscape? c with
      | some d => (d :: ·) <$> unescape manyLines .plain rest
      | none => none
  | .code missing value, c :: rest => do
    let value := 16 * value + (← hexDigit? c)
    if missing ≤ 1 then
      pure ((← char? value) :: (← unescape manyLines .plain rest))
    else unescape manyLines (.code (missing - 1) value) rest
  | .lineEnd, c :: rest =>
    if c = '\n' then unescape manyLines .margin rest
    else if isBlank c then unescape manyLines .lineEnd rest
    else none
  | .margin, c :: rest =>
    if isBlank c || c == '\n' then unescape manyLines .margin rest
    else if c = '\x5c' then unescape manyLines .backslash rest
    else if isVisible c then (c :: ·) <$> unescape manyLines .plain rest
    else none

/-! ## Strings -/

/-- A line end right after three opening quotes is not part of the text. -/
def dropLineEnd : List Char → List Char
  | '\n' :: rest => rest
  | cs => cs

/-- The text between quotes of one kind. -/
def body? (escapes manyLines : Bool) (body : List Char) : Option (List Char) :=
  if escapes then unescape manyLines .plain body
  else if body.all fun c => isVisible c || (manyLines && c == '\n') then
    some body
  else none

/-- A string on one line, after its opening quote. -/
def lineString? (quote : Char) (cs : List Char) :
    Option (String × List Char) := do
  let escapes := quote == '\x22'
  let (body, rest) ← untilQuote quote escapes cs
  pure (String.ofList (← body? escapes false body), rest)

/-- A string over several lines, after its three opening quotes. -/
def blockString? (quote : Char) (cs : List Char) :
    Option (String × List Char) := do
  let escapes := quote == '\x22'
  let (body, rest) := takeExtraQuotes quote (← untilThree quote escapes cs)
  pure (String.ofList
    (← body? escapes true (dropLineEnd (oneCharLineEnds body))), rest)

/-- A string of either kind, after its first quote. -/
def string? (quote : Char) (cs : List Char) : Option (String × List Char) :=
  if cs.take 2 = [quote, quote] then blockString? quote (cs.drop 2)
  else lineString? quote cs

end DrawnPattern.Toml
