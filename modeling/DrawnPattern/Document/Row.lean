import DrawnPattern.Document.Value
import DrawnPattern.Row
set_option autoImplicit false

/-!
# Documents of rows

A cell is a choice like a value, with lists, stored nodes and stored
relationships besides.  A row is an object of cells.
-/

namespace DrawnPattern.Document

def storedNode? (reading : Reading) : Decoder StoredNode := fun j => do
  let fields ← fields? ["id", "labels", "properties"] j
  pure
    { id := ← required fields "id" int?
      labels := ← withDefault fields "labels" [] (list? string?)
      properties := ← withDefault fields "properties" ∅ (properties? reading) }

def storedRelationship? (reading : Reading) :
    Decoder StoredRelationship := fun j => do
  let fields ← fields? ["id", "start", "end", "type", "properties"] j
  pure
    { id := ← required fields "id" int?
      source := ← required fields "start" int?
      target := ← required fields "end" int?
      type := ← required fields "type" string?
      properties := ← withDefault fields "properties" ∅ (properties? reading) }

/-- A scalar in a cell. -/
def cellOfValue : Value → Cell
  | .null => .null
  | .bool b => .bool b
  | .int i => .int i
  | .float x => .float x
  | .string s => .string s

/-- The kinds of cells in order. -/
def cellNames : List String := scalarNames ++ ["List", "Node", "Relationship"]

def cell? (reading : Reading) (j : Json) : Option Cell :=
  match _ : tagged? reading cellNames j with
  | some ⟨"List", some (.arr items), inner⟩ =>
    .list <$> items.attach.mapM fun ⟨item, _⟩ => cell? inner item
  | some ⟨"Node", some content, inner⟩ => .node <$> storedNode? inner content
  | some ⟨"Relationship", some content, inner⟩ =>
    .relationship <$> storedRelationship? inner content
  | some ⟨tag, content, _⟩ => cellOfValue <$> scalar? tag content
  | none => none
termination_by sizeOf j
decreasing_by
  rename_i found inside
  exact Nat.lt_trans (Json.sizeOf_item_lt inside) (sizeOf_content_lt found)

def row? : Decoder Row := map? (cell? .direct)

def ofStoredNode (n : StoredNode) : Json :=
  .obj
    [ ("id", ofInt n.id), ("labels", ofList .str n.labels),
      ("properties", ofProperties n.properties) ]

def ofStoredRelationship (r : StoredRelationship) : Json :=
  .obj
    [ ("id", ofInt r.id), ("start", ofInt r.source), ("end", ofInt r.target),
      ("type", .str r.type), ("properties", ofProperties r.properties) ]

mutual

def ofCell : Cell → Json
  | .null => ofValue .null
  | .bool b => ofValue (.bool b)
  | .int i => ofValue (.int i)
  | .float x => ofValue (.float x)
  | .string s => ofValue (.string s)
  | .list items => ofTagged "List" (.arr (ofCells items))
  | .node n => ofTagged "Node" (ofStoredNode n)
  | .relationship r => ofTagged "Relationship" (ofStoredRelationship r)

def ofCells : List Cell → List Json
  | [] => []
  | c :: rest => ofCell c :: ofCells rest

end

def ofRow (row : Row) : Json := ofMap ofCell row

end DrawnPattern.Document
