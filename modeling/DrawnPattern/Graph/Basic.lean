import DrawnPattern.Graph.Fault
set_option autoImplicit false

/-!
# Graphs

A graph is a table of nodes and a table of relations that are consistent with
each other: there is a node, every relation ends at nodes, and each node lists
exactly the relations that touch it.  The consistency is part of the type, so
there is no graph without it; `Graph.Builder` is the way in.
-/

namespace DrawnPattern

/-- What makes two tables a graph.  Builders check it once, and whoever has a
graph has it, so nothing later asks whether an end exists. -/
structure Graph.Consistent (nodes : NodeTable) (relations : RelationTable) :
    Prop where
  nonempty : nodes.toList ≠ []
  source_mem : ∀ r ∈ relations.toList, ∃ n ∈ nodes.toList, n.id = r.link.source
  target_mem : ∀ r ∈ relations.toList, ∃ n ∈ nodes.toList, n.id = r.link.target
  listed_iff : ∀ n ∈ nodes.toList, ∀ id, id ∈ n.relations.toList ↔
    ∃ r ∈ relations.toList, r.id = id ∧ r.link.touches n.id = true

/-- A property graph: its two tables, with the proof that they fit together. -/
structure Graph where
  nodes : NodeTable
  relations : RelationTable
  consistent : Graph.Consistent nodes relations

namespace Graph

theorem ext {g h : Graph} (hn : g.nodes = h.nodes)
    (hr : g.relations = h.relations) : g = h := by
  cases g; cases h; cases hn; cases hr; rfl

instance : DecidableEq Graph := fun g h =>
  if hn : g.nodes = h.nodes then
    if hr : g.relations = h.relations then isTrue (ext hn hr)
    else isFalse fun e => hr (congrArg relations e)
  else isFalse fun e => hn (congrArg nodes e)

/-- Node numbers in ascending order. -/
def nodeIds (g : Graph) : List NodeId := g.nodes.keys

/-- Relation numbers in ascending order. -/
def relationIds (g : Graph) : List RelationId := g.relations.keys

def node? (g : Graph) (id : NodeId) : Option Node := g.nodes.find? id

def relation? (g : Graph) (id : RelationId) : Option Relation :=
  g.relations.find? id

/-- The node with the lowest number.  There is one, since a graph is not empty;
paths are followed and chains are drawn from it. -/
def first (g : Graph) : Node := g.nodes.toList.head g.consistent.nonempty

/-- The relations a node lists, in ascending order; none for an unknown node. -/
def incident (g : Graph) (id : NodeId) : List Relation :=
  match g.node? id with
  | some n => n.relations.toList.filterMap g.relation?
  | none => []

/-- The ends across the relations of a node, one for each relation, so that a
node joined twice stands there twice. -/
def adjacent (g : Graph) (id : NodeId) : List NodeId :=
  (g.incident id).filterMap (·.link.other id)

/-- The nodes joined to a node by a relation, each once, the node itself left
out even if it has a loop. -/
def neighbors (g : Graph) (id : NodeId) : OrderedSet NodeId :=
  .ofList (((g.incident id).filter (!·.link.isLoop)).filterMap
    (·.link.other id))

/-- The relations that join two nodes in either direction, in
ascending order. -/
def relationsBetween (g : Graph) (a b : NodeId) : List Relation :=
  (g.incident a).filter (·.link.other a == some b)

end Graph

end DrawnPattern
