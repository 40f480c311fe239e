import DrawnPattern.Json.Token
set_option autoImplicit false

/-!
# Reading JSON

The tokens of a text are read from left to right with the arrays and objects
that are still open on a stack, so the only recursion is along the tokens.
-/

namespace DrawnPattern.Json

/-- An array or object that is still open; what it holds so far stands
in reverse. -/
inductive Frame where
  | array (items : List Json)
  /-- an object with the name of the member to come; it is readable as long as
  all its names are -/
  | object (members : List (String × Json)) (name : String) (readable : Bool)

/-- What has to come next, given what was read. -/
inductive Expected where
  | value
  /-- a value or the end of an array -/
  | firstItem
  | name (members : List (String × Json)) (readable : Bool)
  /-- a name or the end of an object -/
  | firstName
  | colon (members : List (String × Json)) (name : String) (readable : Bool)
  /-- this value is finished: a comma or the end of what holds it -/
  | after (value : Json)

/-- An array or object closed below so many open ones; it cannot be held where
they are too many. -/
def atDepth (depth : Nat) (j : Json) : Json :=
  if depth < depthLimit then j else .unreadable

/-- An object with its members in reverse. -/
def closeObject (depth : Nat) (members : List (String × Json))
    (readable : Bool) : Json :=
  if readable then atDepth depth (.obj members.reverse) else .unreadable

/-- Reads the start of a value. -/
def beginValue (stack : List Frame) : Token → Option (Expected × List Frame)
  | .scalar j => some (.after j, stack)
  | .string (some s) => some (.after (.str s), stack)
  | .string none => some (.after .unreadable, stack)
  | .openArray => some (.firstItem, stack)
  | .openObject => some (.firstName, stack)
  | _ => none

/-- Reads the name of a member. -/
def beginMember (members : List (String × Json)) (readable : Bool)
    (stack : List Frame) :
    Token → Option (Expected × List Frame)
  | .string (some s) => some (.colon members s readable, stack)
  | .string none => some (.colon members "" false, stack)
  | _ => none

/-- Reads one token: what has to come next and what is still open, before and
after it. -/
def step : Expected × List Frame → Token → Option (Expected × List Frame)
  | (.value, stack), token => beginValue stack token
  | (.firstItem, stack), .closeArray =>
    some (.after (atDepth stack.length (.arr [])), stack)
  | (.firstItem, stack), token => beginValue (.array [] :: stack) token
  | (.firstName, stack), .closeObject =>
    some (.after (closeObject stack.length [] true), stack)
  | (.firstName, stack), token => beginMember [] true stack token
  | (.name members readable, stack), token =>
    beginMember members readable stack token
  | (.colon members name readable, stack), .colon =>
    some (.value, .object members name readable :: stack)
  | (.after j, .array items :: stack), .comma =>
    some (.value, .array (j :: items) :: stack)
  | (.after j, .array items :: stack), .closeArray =>
    some (.after (atDepth stack.length (.arr (j :: items).reverse)), stack)
  | (.after j, .object members name readable :: stack), .comma =>
    some (.name ((name, j) :: members) readable, stack)
  | (.after j, .object members name readable :: stack), .closeObject =>
    some (.after (closeObject stack.length ((name, j) :: members) readable),
      stack)
  | _, _ => none

/-- The value that some tokens make up, if they make up one and no more. -/
def ofTokens? (tokens : List Token) : Option Json :=
  match tokens.foldlM step (.value, []) with
  | some (.after j, []) => some j
  | _ => none

/-- The value that a text spells. -/
def read? (text : String) : Option Json := tokens text.toList >>= ofTokens?

end DrawnPattern.Json
