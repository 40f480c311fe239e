import DrawnPattern.Graph.Builder
import DrawnPattern.Failure
import DrawnPattern.Query.Shape
set_option autoImplicit false

/-!
# Graphs from rows

Stored nodes and relationships become a graph: a node takes its first label, a
relationship is a directed relation, and of several elements with one id the
first counts.  A relationship that ends outside the node list is a lookup fault.
Such a graph need not be connected.
-/

namespace DrawnPattern

/-- Whether the properties of stored elements are kept: matches need them, and a
schema has none. -/
inductive Detail where
  /-- only the shape -/
  | schema
  /-- every property -/
  | result
  deriving DecidableEq, Repr

def Detail.keep : Detail → Properties → Properties
  | .schema, _ => ∅
  | .result, properties => properties

def StoredNode.node (detail : Detail) (n : StoredNode) : Node :=
  { id := n.id, traits := ⟨n.labels.head?, detail.keep n.properties⟩ }

def StoredRelationship.relation (detail : Detail) (r : StoredRelationship) :
    Relation :=
  ⟨r.id, ⟨r.source, r.target, true, ⟨some r.type, detail.keep r.properties⟩⟩⟩

namespace Graph

/-- The end of a relationship that is not among the nodes; the source is looked
up before the target. -/
def unstoredEnd? (nodes : NodeTable) (r : StoredRelationship) :
    Option LookupFault :=
  if !nodes.contains r.source then some ⟨r.id, r.source⟩
  else if !nodes.contains r.target then some ⟨r.id, r.target⟩
  else none

/-- The graph of stored nodes and relationships.  Of elements with one id the
first counts, and a relationship needs both of its ends. -/
def ofStored (nodes : List StoredNode) (relationships : List StoredRelationship)
    (detail : Detail) :
    Except Failure Graph :=
  let nodeTable : NodeTable := .ofListKeepFirst (nodes.map (·.node detail))
  match relationships.findSome? (unstoredEnd? nodeTable) with
  | some fault => .error (.lookup fault)
  | none =>
    let relationTable : RelationTable :=
      .ofListKeepFirst (relationships.map (·.relation detail))
    (Graph.ofLists nodeTable.toList relationTable.toList .unchecked).mapError
      .graph

end Graph

namespace Row

/-- The stored nodes of a row. -/
def storedNodes (row : Row) : Except DecodeFault (List StoredNode) := do
  (← (← field row Query.nodesColumn).asList Query.nodesColumn).mapM
    (Cell.asNode Query.nodesColumn)

/-- The stored relationships of a row. -/
def storedRelationships (row : Row) :
    Except DecodeFault (List StoredRelationship) := do
  (← (← field row Query.relationshipsColumn).asList
    Query.relationshipsColumn).mapM
    (Cell.asRelationship Query.relationshipsColumn)

/-- The graph of a row; none if it has no elements at all.  Both columns are
read before any element is looked at. -/
def graph? (row : Row) (detail : Detail) : Except Failure (Option Graph) := do
  let nodes ← storedNodes row
  let relationships ← storedRelationships row
  match nodes, relationships with
  | [], [] => pure none
  | [], first :: _ => throw (.lookup ⟨first.id, first.source⟩)
  | _, _ => some <$> Graph.ofStored nodes relationships detail

end Row

end DrawnPattern
