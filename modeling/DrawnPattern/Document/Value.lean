import DrawnPattern.Document.Fields
import DrawnPattern.Double.Rounding
import DrawnPattern.Traits
set_option autoImplicit false

/-!
# Documents of values

A value is a choice between the scalar kinds; null has no content.  An integer
is accepted where a double is asked for, but not the other way round.
-/

namespace DrawnPattern.Document

/-- Any number as a double; an integer is rounded to the nearest one. -/
def double? : Decoder Double
  | .num (.int i) => some (Double.ofInt i)
  | .num (.float x) => some x
  | _ => none

/-- The scalar of a kind with its content. -/
def scalar? (tag : String) (content : Option Json) : Option Value :=
  match tag, content with
  | "Null", none => some .null
  | "Null", some .null => some .null
  | "Bool", some j => .bool <$> bool? j
  | "Int", some j => .int <$> int? j
  | "Float", some j => .float <$> double? j
  | "String", some j => .string <$> string? j
  | _, _ => none

/-- The kinds of scalars in order. -/
def scalarNames : List String := ["Null", "Bool", "Int", "Float", "String"]

def value? (reading : Reading) : Decoder Value := fun j => do
  let found ← tagged? reading scalarNames j
  scalar? found.tag found.content

def properties? (reading : Reading) : Decoder Properties :=
  map? (value? reading)

def ofValue : Value → Json
  | .null => .obj [("t", .str "Null")]
  | .bool b => ofTagged "Bool" (.bool b)
  | .int i => ofTagged "Int" (ofInt i)
  | .float x => ofTagged "Float" (.num (.float x))
  | .string s => ofTagged "String" (.str s)

def ofProperties (properties : Properties) : Json := ofMap ofValue properties

end DrawnPattern.Document
