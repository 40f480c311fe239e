import DrawnPattern.Document.Value
import DrawnPattern.Graph.Basic
set_option autoImplicit false

/-!
# Documents of nodes, relations and graphs

A node or a relation is given as an object, never as an array, and its fields
are held.  A graph is written with its nodes and relations under their numbers.
-/

namespace DrawnPattern.Document

/-- Numbers in any order, repeated or not. -/
def ids? : Decoder (OrderedSet Int) := fun j => Keyed.ofList <$> list? int? j

/-- The label and the properties among some fields. -/
def traits? (reading : Reading) (fields : Fields) : Option Traits := do
  pure
    { label := ← withDefault fields "label" none label?
      properties := ← withDefault fields "properties" ∅ (properties? reading) }

def node? : Decoder Node := fun j => do
  let fields ← objectFields? ["id", "label", "properties", "relations"] j
  pure
    { id := ← required fields "id" int?
      traits := ← traits? .held fields
      relations := ← withDefault fields "relations" ∅ ids? }

def relation? : Decoder Relation := fun j => do
  let fields ← objectFields? ["id", "label", "properties", "start", "end",
    "directed"] j
  pure
    { id := ← required fields "id" int?
      link :=
        { source := ← required fields "start" int?
          target := ← required fields "end" int?
          directed := ← required fields "directed" bool?
          traits := ← traits? .held fields } }

def ofTraits (traits : Traits) : List (String × Json) :=
  [("label", ofLabel traits.label),
    ("properties", ofProperties traits.properties)]

def ofNode (n : Node) : Json :=
  .obj (("id", ofInt n.id) :: ofTraits n.traits ++
    [("relations", ofList ofInt n.relations.toList)])

def ofRelation (r : Relation) : Json :=
  .obj (("id", ofInt r.id) :: ofTraits r.link.traits ++
    [("start", ofInt r.link.source), ("end", ofInt r.link.target),
      ("directed", .bool r.link.directed)])

def ofGraph (g : Graph) : Json :=
  .obj
    [ ("nodes", .obj (g.nodes.toList.map fun n => (toString n.id, ofNode n))),
      ("relations",
        .obj (g.relations.toList.map fun r => (toString r.id, ofRelation r))) ]

/-- A graph, or null. -/
def ofGraphOrNull : Option Graph → Json
  | some g => ofGraph g
  | none => .null

end DrawnPattern.Document
