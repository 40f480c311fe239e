import DrawnPattern.Graph.Element
set_option autoImplicit false

/-!
# Why a graph is rejected

A graph needs a node, every reference in it has to resolve, and where a single
traversal must reach everything it has to be connected.
-/

namespace DrawnPattern

/-- A reference that does not resolve, or a name given twice. -/
inductive Gap where
  /-- two nodes have this number -/
  | repeatedNode (node : NodeId)
  /-- two relations have this number -/
  | repeatedRelation (relation : RelationId)
  /-- the relation ends at a node that is not there -/
  | missingEnd (relation : RelationId) (node : NodeId)
  /-- the node lists a relation that is not there -/
  | unknownListing (node : NodeId) (relation : RelationId)
  /-- the node lists a relation between other nodes -/
  | strangeListing (node : NodeId) (relation : RelationId)
  /-- two vertices of a drawing have this key -/
  | repeatedVertex (key : String)
  /-- an edge of a drawing ends at a key that no vertex has -/
  | unknownVertex (key : String)
  deriving DecidableEq, Repr

/-- Why a graph is rejected: it is empty, a reference in it is broken, or it
falls into pieces. -/
inductive GraphFault where
  | empty
  | incomplete (gap : Gap)
  | disconnected (start : NodeId) (unreached total : Nat)
  deriving DecidableEq, Repr

/-- What is wrong with the reference. -/
def Gap.message : Gap → String
  | .repeatedNode node => s!"duplicate node id {node}"
  | .repeatedRelation relation => s!"duplicate relation id {relation}"
  | .missingEnd relation node =>
    s!"relation {relation} references node {node} outside the graph"
  | .unknownListing node relation =>
    s!"node {node} lists relation {relation} outside the graph"
  | .strangeListing node relation =>
    s!"node {node} lists relation {relation} which does not touch it"
  | .repeatedVertex key =>
    "vertex " ++ Text.quoted key ++ " appears more than once"
  | .unknownVertex key =>
    "edge endpoint " ++ Text.quoted key ++ " is not a vertex"

def GraphFault.message : GraphFault → String
  | .empty => "graph must contain at least one node"
  | .incomplete gap => "graph is incomplete: " ++ gap.message
  | .disconnected start unreached total =>
    s!"graph is not connected: {unreached} of {total} nodes " ++
      s!"unreachable from node {start}"

end DrawnPattern
