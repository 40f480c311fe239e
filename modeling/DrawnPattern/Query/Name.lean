set_option autoImplicit false

/-!
# Names in queries

A plain name is an ASCII word that does not start with a digit.  Every other
name stands between backticks, with each backtick inside it written twice.
-/

namespace DrawnPattern.Query

/-- The character that encloses names which are not plain. -/
def backtick : Char := '\x60'

/-- Letters and the underscore start a plain name. -/
def startsName (c : Char) : Bool := c.isAlpha || c == '_'

/-- Digits may follow. -/
def continuesName (c : Char) : Bool := c.isAlphanum || c == '_'

/-- Whether a name needs no backticks. -/
def isPlain : List Char → Bool
  | [] => false
  | c :: rest => startsName c && rest.all continuesName

/-- Writes each backtick twice. -/
def doubleBackticks (name : List Char) : List Char :=
  name.flatMap fun c => if c = backtick then [c, c] else [c]

/-- The characters that stand for a name in a query: the name itself if it is
plain, else the name between backticks, with those inside doubled. -/
def nameChars (name : List Char) : List Char :=
  if isPlain name then name else backtick :: doubleBackticks name ++ [backtick]

/-- The text that stands for a name in a query. -/
def identifier (name : String) : String := String.ofList (nameChars name.toList)

end DrawnPattern.Query
