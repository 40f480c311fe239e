import DrawnPattern.Traits
set_option autoImplicit false

/-!
# Result rows

What a database returns: rows of named cells.  A cell holds a scalar, a list, a
stored node or a stored relationship.  Reading a cell as something it is not is
a decode fault that names the place, what was expected and what was found.
-/

namespace DrawnPattern

/-- A node as the database stores it, with any number of labels. -/
structure StoredNode where
  id : Int
  labels : List String := []
  properties : Properties := ∅
  deriving DecidableEq, Inhabited

/-- A relationship as the database stores it: always directed, with one type. -/
structure StoredRelationship where
  id : Int
  source : Int
  target : Int
  type : String
  properties : Properties := ∅
  deriving DecidableEq, Inhabited

/-- The value of a field: a scalar, a list of such values, or an element of the
database. -/
inductive Cell where
  | null
  | bool (value : Bool)
  | int (value : Int)
  | float (value : Double)
  | string (value : String)
  | list (items : List Cell)
  | node (value : StoredNode)
  | relationship (value : StoredRelationship)
  deriving Inhabited

/-- What sort of value a cell holds. -/
inductive CellKind where
  | null
  | boolean
  | integer
  | float
  | string
  | list
  | node
  | relationship
  deriving DecidableEq, Repr

def CellKind.name : CellKind → String
  | null => "null"
  | boolean => "boolean"
  | integer => "integer"
  | float => "float"
  | string => "string"
  | list => "list"
  | node => "node"
  | relationship => "relationship"

def Cell.kind : Cell → CellKind
  | .null => .null
  | .bool _ => .boolean
  | .int _ => .integer
  | .float _ => .float
  | .string _ => .string
  | .list _ => .list
  | .node _ => .node
  | .relationship _ => .relationship

/-! ## Decode faults -/

/-- Why a row is not what the query promised, with the place where
it differs. -/
inductive DecodeFault where
  /-- there is no such field -/
  | missingField (field : String)
  /-- a cell of another kind -/
  | wrongKind (place : String) (expected found : CellKind)
  /-- a count below zero -/
  | negativeCount (place : String)
  /-- a list that is not a name with a type -/
  | notNamedType (place : String)
  /-- another number of rows -/
  | rowCount (expected found : Nat)
  /-- another number of entries in a list of ids -/
  | arity (place : String) (expected found : Nat)
  /-- an id that none of the returned elements has -/
  | danglingId (place : String) (id : Int)
  deriving DecidableEq, Repr

def DecodeFault.message : DecodeFault → String
  | missingField field => s!"record is missing field '{field}'"
  | wrongKind place expected found =>
    s!"{place}: expected {expected.name}, found {found.name}"
  | negativeCount place =>
    s!"{place}: expected non-negative integer, found negative integer"
  | notNamedType place =>
    s!"{place}: expected [name, type] pair, found list of other length"
  | rowCount expected found => s!"expected {expected} record(s), got {found}"
  | arity place expected found =>
    s!"{place}: expected {expected} id(s), found {found}"
  | danglingId place id =>
    s!"{place}: id {id} is not among the returned elements"

/-! ## Reading cells -/

namespace Cell

def asInt (place : String) : Cell → Except DecodeFault Int
  | .int i => .ok i
  | c => .error (.wrongKind place .integer c.kind)

def asString (place : String) : Cell → Except DecodeFault String
  | .string s => .ok s
  | c => .error (.wrongKind place .string c.kind)

def asList (place : String) : Cell → Except DecodeFault (List Cell)
  | .list items => .ok items
  | c => .error (.wrongKind place .list c.kind)

def asNode (place : String) : Cell → Except DecodeFault StoredNode
  | .node n => .ok n
  | c => .error (.wrongKind place .node c.kind)

def asRelationship (place : String) :
    Cell → Except DecodeFault StoredRelationship
  | .relationship r => .ok r
  | c => .error (.wrongKind place .relationship c.kind)

/-- A list of integers. -/
def asIntList (place : String) (c : Cell) : Except DecodeFault (List Int) := do
  (← c.asList place).mapM (asInt place)

end Cell

/-! ## Rows -/

/-- A row: cells by field name. -/
abbrev Row : Type := Map String Cell

/-- The cell of a field, which has to be there; a field that holds null
is there. -/
def Row.field (row : Row) (name : String) : Except DecodeFault Cell :=
  match Map.get? row name with
  | some cell => .ok cell
  | none => .error (.missingField name)

end DrawnPattern
