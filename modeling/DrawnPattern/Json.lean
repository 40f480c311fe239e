import DrawnPattern.Double
set_option autoImplicit false

/-!
# JSON values

Documents are exchanged as JSON.  A number is kept as an integer or as a
double, whichever its text calls for, and an object keeps its members in order,
repeated names included: what a repetition means is for the reader of the
document to say.
-/

namespace DrawnPattern

/-- A number: an integer, or a double if it has a fraction or an exponent or is
beyond the 64-bit integers. -/
inductive Number where
  | int (value : Int)
  | float (value : Double)
  deriving DecidableEq, Inhabited

/-- A JSON value.  Objects keep their members as they were written, those with
one name included. -/
inductive Json where
  | null
  | bool (value : Bool)
  | num (value : Number)
  | str (value : String)
  | arr (items : List Json)
  | obj (members : List (String × Json))
  /-- well formed, but not to be held: a number beyond the doubles,
  half a surrogate pair, or too deep a nesting; it does no harm where
  nobody reads it -/
  | unreadable
  deriving Inhabited

namespace Json

/-- How deep arrays and objects may be nested; what is deeper cannot be held. -/
def depthLimit : Nat := 127

theorem sizeOf_item_lt {items : List Json} {j : Json} (h : j ∈ items) :
    sizeOf j < sizeOf (arr items) := by
  have := List.sizeOf_lt_of_mem h
  simp only [arr.sizeOf_spec]
  omega

theorem sizeOf_member_lt {members : List (String × Json)}
    {name : String} {j : Json} (h : (name, j) ∈ members) :
    sizeOf j < sizeOf (obj members) := by
  have := List.sizeOf_lt_of_mem h
  simp only [obj.sizeOf_spec, Prod.mk.sizeOf_spec] at *
  omega

mutual

/-- Whether every part of a value can be held.  A value that is only passed over
may have parts that cannot. -/
def readable : Json → Bool
  | arr items => readableItems items
  | obj members => readableMembers members
  | unreadable => false
  | _ => true

def readableItems : List Json → Bool
  | [] => true
  | j :: rest => j.readable && readableItems rest

def readableMembers : List (String × Json) → Bool
  | [] => true
  | (_, j) :: rest => j.readable && readableMembers rest

end

end Json

end DrawnPattern
