import DrawnPattern.Toml
import DrawnPattern.Toml.Scalar
import DrawnPattern.Toml.Text
set_option autoImplicit false

/-!
# Reading TOML

A document is read line by line: a pair of key and value, a header, or nothing;
each may be followed by a comment.  The statements are then carried out in order
on the table of the document.  Values and keys are nested at most 79 deep.
-/

namespace DrawnPattern.Toml

/-! ## Blanks, comments and keys -/

def skipBlanks (cs : List Char) : List Char := cs.dropWhile isBlank

/-- What follows a line end. -/
def lineEnd? : List Char → Option (List Char)
  | '\n' :: rest => some rest
  | '\r' :: '\n' :: rest => some rest
  | _ => none

/-- Skips a comment up to the end of its line. -/
def skipComment : List Char → List Char
  | '#' :: rest => rest.dropWhile isVisible
  | cs => cs

/-- What follows the line, if nothing but blanks and a comment is left of it. -/
def finishLine? (cs : List Char) : Option (List Char) :=
  match skipComment (skipBlanks cs) with
  | [] => some []
  | rest => lineEnd? rest

/-- Skips blanks, comments and line ends. -/
def skipLines : Nat → List Char → List Char
  | 0, cs => cs
  | fuel + 1, cs =>
    let cs := skipComment (skipBlanks cs)
    match lineEnd? cs with
    | some rest => skipLines fuel rest
    | none => cs

def isBareKey (c : Char) : Bool := c.isAlphanum || c == '_' || c == '-'

/-- One part of a key. -/
def keyPart? : List Char → Option (String × List Char)
  | [] => none
  | c :: rest =>
    if c = '\x22' ∨ c = '\x27' then lineString? c rest
    else
      let word := (c :: rest).takeWhile isBareKey
      if word.isEmpty then none
      else some (String.ofList word, (c :: rest).dropWhile isBareKey)

/-- The parts of a key with the blanks after it. -/
def keyParts? : Nat → List Char → Option (List String × List Char)
  | 0, _ => none
  | fuel + 1, cs => do
    let (part, rest) ← keyPart? cs
    match skipBlanks rest with
    | '.' :: rest => do
      let (parts, rest) ← keyParts? fuel (skipBlanks rest)
      pure (part :: parts, rest)
    | rest => pure ([part], rest)

/-- How deep values are nested and how many parts a key has, plus one. -/
def depthLimit : Nat := 80

/-- The parts of a key before the last, and the last; blanks may stand around
the points. -/
def key? (cs : List Char) : Option ((List String × String) × List Char) := do
  let (parts, rest) ← keyParts? cs.length cs
  let last ← parts.getLast?
  if parts.length < depthLimit then pure ((parts.dropLast, last), rest)
  else none

/-! ## Values -/

/-- Characters that end a word. -/
def endsWord (c : Char) : Bool :=
  isBlank c || [',', ']', '\x7d', '#', '\n', '\r'].contains c

/-- The value that a word spells. -/
def word? (word : List Char) : Option Toml :=
  if word = ['t', 'r', 'u', 'e'] then some (.boolean true)
  else if word = ['f', 'a', 'l', 's', 'e'] then some (.boolean false)
  else if isDateOrTime word then some .date
  else if isInteger word || isDouble word then some .number
  else none

/-- A constant, a number or a date; a date and a time may have a blank
between them. -/
def scalar? (cs : List Char) : Option (Toml × List Char) :=
  let word := cs.takeWhile (!endsWord ·)
  let rest := cs.dropWhile (!endsWord ·)
  match rest with
  | ' ' :: c :: _ =>
    if isDate word && c.isDigit then
      let time := (rest.drop 1).takeWhile (!endsWord ·)
      if isOffsetTime time then
        some (.date, (rest.drop 1).dropWhile (!endsWord ·))
      else none
    else (word? word).map (·, rest)
  | _ => (word? word).map (·, rest)

mutual

/-- A value inside so many arrays and tables. -/
def value? (fuel depth : Nat) (cs : List Char) : Option (Toml × List Char) :=
  match fuel with
  | 0 => none
  | fuel + 1 =>
    match cs with
    | '\x22' :: rest =>
      (string? '\x22' rest).map fun (s, rest) => (.string s, rest)
    | '\x27' :: rest =>
      (string? '\x27' rest).map fun (s, rest) => (.string s, rest)
    | '[' :: rest =>
      if depth + 1 < depthLimit then
        (items? fuel (depth + 1) (skipLines rest.length rest)).map
          fun (items, rest) => (.array items, rest)
      else none
    | '\x7b' :: rest =>
      if depth + 1 < depthLimit then
        match skipBlanks rest with
        | '\x7d' :: rest => some (.table .closed [], rest)
        | rest =>
          (pairs? fuel (depth + 1) [] rest).map fun (members, rest) =>
            (.table .closed members, rest)
      else none
    | _ => scalar? cs

/-- The items of an array up to its end; a comma may follow the last. -/
def items? (fuel depth : Nat) (cs : List Char) :
    Option (List Toml × List Char) :=
  match fuel with
  | 0 => none
  | fuel + 1 =>
    match cs with
    | ']' :: rest => some ([], rest)
    | _ => do
      let (item, rest) ← value? fuel depth cs
      match skipLines rest.length rest with
      | ',' :: rest => do
        let (items, rest) ← items? fuel depth (skipLines rest.length rest)
        pure (item :: items, rest)
      | ']' :: rest => pure ([item], rest)
      | _ => none

/-- The pairs of a table between braces up to its end, added to those before. -/
def pairs? (fuel depth : Nat) (members : Members) (cs : List Char) :
    Option (Members × List Char) :=
  match fuel with
  | 0 => none
  | fuel + 1 => do
    let ((path, key), rest) ← key? cs
    match rest with
    | '=' :: rest => do
      let (value, rest) ← value? fuel depth (skipBlanks rest)
      let members ← addPair path key value .header members
      match skipBlanks rest with
      | ',' :: rest => pairs? fuel depth members (skipBlanks rest)
      | '\x7d' :: rest => pure (members, rest)
      | _ => none
    | _ => none

end

/-! ## Statements -/

/-- What a line says: a header, which the lines after it are under, or a pair of
key and value. -/
inductive Statement where
  | pair (path : List String) (key : String) (value : Toml)
  | header (path : List String) (key : String)
  | tableHeader (path : List String) (key : String)

/-- The header of a table, after its first bracket. -/
def header? (cs : List Char) : Option (Statement × List Char) :=
  match cs with
  | '[' :: rest => do
    let ((path, key), rest) ← key? (skipBlanks rest)
    match rest with
    | ']' :: ']' :: rest => pure (.tableHeader path key, rest)
    | _ => none
  | _ => do
    let ((path, key), rest) ← key? (skipBlanks cs)
    match rest with
    | ']' :: rest => pure (.header path key, rest)
    | _ => none

/-- A pair of key and value. -/
def pair? (cs : List Char) : Option (Statement × List Char) := do
  let ((path, key), rest) ← key? cs
  match rest with
  | '=' :: rest => do
    let rest := skipBlanks rest
    let (value, rest) ← value? (rest.length + 1) 0 rest
    pure (.pair path key value, rest)
  | _ => none

/-- The statements of a document, one for each line that says something. -/
def statements? : Nat → List Char → Option (List Statement)
  | 0, _ => none
  | fuel + 1, cs =>
    match skipLines cs.length cs with
    | [] => some []
    | '[' :: rest => do
      let (statement, rest) ← header? rest
      (statement :: ·) <$> statements? fuel (← finishLine? rest)
    | rest => do
      let (statement, rest) ← pair? rest
      (statement :: ·) <$> statements? fuel (← finishLine? rest)

/-- A document under construction and the header it is under, which pairs are
added below. -/
structure Builder where
  members : Members := []
  current : List String := []

/-- Carries out a statement. -/
def Builder.apply (b : Builder) : Statement → Option Builder
  | .pair path key value => do
    let members ← descend false (addPair path key value) b.current
      .header b.members
    pure { b with members }
  | .header path key => do pure ⟨← addHeader path key b.members, path ++ [key]⟩
  | .tableHeader path key => do
      pure ⟨← addTable path key b.members, path ++ [key]⟩

/-- The table that a text spells.  A byte order mark in front is passed over. -/
def read? (text : String) : Option Members := do
  let cs := match text.toList with
    | '\ufeff' :: rest => rest
    | cs => cs
  let statements ← statements? (cs.length + 1) cs
  let built ← statements.foldlM Builder.apply {}
  pure built.members

end DrawnPattern.Toml
