import DrawnPattern.Graph.Basic
set_option autoImplicit false

/-!
# Symmetries of a graph

Two nodes are interchangeable when they carry the same traits and exchanging
them maps the links of the graph onto themselves.  Two relations are parallel
when their links are the same up to reading an undirected link backwards.  Both
are equivalences, so a class is found by comparing with one member.

Nodes that merely resemble each other and share a neighbour are flagged: one
subgraph may be found for both of them, but nothing tells the two apart.
-/

namespace DrawnPattern

/-- The symmetries of a graph: which of its elements can be exchanged without a
change, and which only look as if they could. -/
structure Symmetry where
  /-- classes of two or more interchangeable nodes, each in ascending order -/
  nodeClasses : List (List NodeId) := []
  /-- classes of two or more parallel relations, each in ascending order -/
  relationClasses : List (List RelationId) := []
  /-- resembling nodes with a common neighbour that are not interchangeable -/
  flagged : List (NodeId × NodeId) := []
  deriving DecidableEq

namespace Symmetry

/-! ## Classes -/

/-- Puts an item into the first class whose first member is alike, or into one
of its own. -/
def join {α : Type} (alike : α → α → Bool) (a : α) :
    List (List α) → List (List α)
  | [] => [[a]]
  | members :: rest =>
    if members.head?.any (alike · a) then (members ++ [a]) :: rest
    else members :: join alike a rest

/-- The classes with two members and more, in order of their first members. -/
def classes {α : Type} (alike : α → α → Bool) (items : List α) :
    List (List α) :=
  (items.foldl (fun classes a => join alike a classes) []).filter fun members =>
    decide (1 < members.length)

/-! ## Interchangeable nodes -/

/-- Exchanges two nodes and leaves the others alone; it undoes itself. -/
def exchange (a b node : NodeId) : NodeId :=
  if node = a then b else if node = b then a else node

/-- The links at one of two nodes, which are all that an exchange of the two
can move. -/
def linksAt (g : Graph) (a b : NodeId) : List Link :=
  (g.relations.toList.map Relation.link).filter fun l =>
    l.touches a || l.touches b

/-- Whether exchanging two nodes maps the links onto themselves, each as often
as before.  Links at neither of them stay as they are. -/
def exchangeKeepsLinks (g : Graph) (a b : NodeId) : Bool :=
  let links := linksAt g a b
  (links.map Link.normal).isPerm (links.map fun l =>
    (l.rename (exchange a b)).normal)

def interchangeable (g : Graph) (a b : Node) : Bool :=
  a.traits.same b.traits && exchangeKeepsLinks g a.id b.id

/-! ## Parallel relations -/

/-- Whether two relations have the same link up to the reading of
undirected links. -/
def parallel (a b : Relation) : Bool := a.link.normal == b.link.normal

/-! ## Flagged pairs -/

/-- All pairs of items, the earlier item first. -/
def pairs {α : Type} : List α → List (α × α)
  | [] => []
  | a :: rest => rest.map (fun b => (a, b)) ++ pairs rest

/-- Whether one of the classes holds both. -/
def inOneClass (classes : List (List NodeId)) (a b : NodeId) : Bool :=
  classes.any fun members => members.contains a && members.contains b

/-- Resembling nodes with a common neighbour outside one class, each pair once
and in ascending order. -/
def flaggedPairs (g : Graph) (nodeClasses : List (List NodeId)) :
    List (NodeId × NodeId) :=
  let around := g.nodes.toList.map fun n => (n, (g.neighbors n.id).toList)
  ((pairs around).filter fun (a, b) =>
      a.1.resembles b.1 && !inOneClass nodeClasses a.1.id b.1.id &&
        a.2.any b.2.contains).map
    fun (a, b) => (a.1.id, b.1.id)

end Symmetry

/-- The symmetries of a graph, found by comparing elements in the order of
their numbers. -/
def Graph.symmetry (g : Graph) : Symmetry :=
  let nodeClasses :=
    (Symmetry.classes (Symmetry.interchangeable g) g.nodes.toList).map
      (·.map Node.id)
  { nodeClasses
    relationClasses :=
      (Symmetry.classes Symmetry.parallel g.relations.toList).map
        (·.map Relation.id)
    flagged := Symmetry.flaggedPairs g nodeClasses }

end DrawnPattern
