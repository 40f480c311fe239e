import DrawnPattern.Document.Graph
import DrawnPattern.Drawing
set_option autoImplicit false

/-!
# Documents of drawings
-/

namespace DrawnPattern.Document

def vertex? : Decoder Vertex := fun j => do
  let fields ← fields? ["key", "label", "properties"] j
  pure { key := ← required fields "key" string?,
         traits := ← traits? .direct fields }

def edge? : Decoder Edge := fun j => do
  let fields ← fields? ["start", "end", "directed", "label", "properties"] j
  pure
    { source := ← required fields "start" string?
      target := ← required fields "end" string?
      directed := ← withDefault fields "directed" false bool?
      traits := ← traits? .direct fields }

def drawing? : Decoder Drawing := fun j => do
  let fields ← fields? ["vertices", "edges"] j
  pure
    { vertices := ← withDefault fields "vertices" [] (list? vertex?)
      edges := ← withDefault fields "edges" [] (list? edge?) }

def ofVertex (v : Vertex) : Json :=
  .obj (("key", .str v.key) :: ofTraits v.traits)

def ofEdge (e : Edge) : Json :=
  .obj ([("start", .str e.source), ("end", .str e.target),
    ("directed", .bool e.directed)] ++ ofTraits e.traits)

def ofDrawing (d : Drawing) : Json :=
  .obj [("vertices", ofList ofVertex d.vertices),
    ("edges", ofList ofEdge d.edges)]

end DrawnPattern.Document
