set_option autoImplicit false

/-!
# Options for queries

How symmetries are treated, whether labels that tell nothing apart are left out,
and how variables are named.
-/

namespace DrawnPattern.Query

/-- How symmetric matches of one subgraph are treated: suppressed by the query,
all kept, or dropped when the row is read. -/
inductive Policy where
  /-- the query orders the ids bound to interchangeable elements -/
  | breaking
  /-- every match is reported -/
  | preserving
  /-- the first match of each subgraph is reported -/
  | deduplicating
  deriving DecidableEq, Inhabited, Repr

namespace Policy

def name : Policy → String
  | .breaking => "break"
  | .preserving => "preserve"
  | .deduplicating => "dedup"

/-- The policy with exactly this name. -/
def ofName? (name : String) : Option Policy :=
  [breaking, preserving, deduplicating].find? (·.name == name)

/-- The name with its ASCII letters in lower case. -/
def lowered (text : String) : String :=
  String.ofList (text.toList.map Char.toLower)

/-- The policy with this name, in letters of either case. -/
def ofText? (text : String) : Option Policy := ofName? (lowered text)

/-- What is said of a text that names no policy. -/
def unknownMessage (text : String) : String :=
  "unknown symmetry policy '" ++ lowered text ++
    "' (expected break, preserve, or dedup)"

end Policy

/-- Options of a compiler.  Accepted ones have stems that make plain names and
of which neither starts with the other. -/
structure Options where
  policy : Policy := .breaking
  /-- leave out labels that every element of the database carries -/
  pruneLabels : Bool := true
  /-- what node variables start with -/
  nodeStem : String := "n"
  /-- what relation variables start with -/
  relationStem : String := "r"
  deriving DecidableEq, Inhabited

/-- The variable for a number: the stem, an underscore if the number is
negative, and the digits. -/
def variableName (stem : String) (id : Int) : String :=
  if id < 0 then stem ++ "_" ++ toString id.natAbs
  else stem ++ toString id.natAbs

namespace Options

def nodeVariable (o : Options) (id : Int) : String := variableName o.nodeStem id

def relationVariable (o : Options) (id : Int) : String :=
  variableName o.relationStem id

end Options

end DrawnPattern.Query
