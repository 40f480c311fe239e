import DrawnPattern.Traits
set_option autoImplicit false

/-!
# Nodes and relations

Nodes and relations refer to each other by number only.  A node lists the
relations it takes part in; a relation is a numbered link between two nodes.
Links without their numbers are what a drawing supplies and what interchanging
nodes acts on, so the canonical order is an order on links.
-/

namespace DrawnPattern

/-- The number of a node within one graph; a stored node keeps the id that the
database gave it, which may be negative. -/
abbrev NodeId : Type := Int

/-- The number of a relation within one graph. -/
abbrev RelationId : Type := Int

/-- A node with the relations it takes part in; a loop is listed once.  The list
is kept with the node, so that looking around costs no search. -/
structure Node where
  id : NodeId
  traits : Traits := {}
  relations : OrderedSet RelationId := ∅
  deriving DecidableEq, Inhabited

namespace Node

/-- The node taking part in one more relation. -/
def attach (n : Node) (relation : RelationId) : Node :=
  { n with relations := n.relations.put relation }

/-- Whether a different node could stand for the same element: an element never
resembles itself. -/
def resembles (a b : Node) : Bool :=
  a.id != b.id && a.traits.compatible b.traits

end Node

/-- A link from one node to another.  Unless it is directed, its ends have
no order. -/
structure Link where
  source : NodeId
  target : NodeId
  directed : Bool := false
  traits : Traits := {}
  deriving DecidableEq, Inhabited

namespace Link

def isLoop (l : Link) : Bool := l.source == l.target

/-- Whether the node is one of the ends; a loop touches its node once. -/
def touches (l : Link) (node : NodeId) : Bool :=
  l.source == node || l.target == node

/-- The end across from `node`, if `node` is an end. -/
def other (l : Link) (node : NodeId) : Option NodeId :=
  if node = l.source then some l.target
  else if node = l.target then some l.source
  else none

/-- The link with its ends renamed; the direction and the traits stay. -/
def rename (l : Link) (f : NodeId → NodeId) : Link :=
  { l with source := f l.source, target := f l.target }

/-- The link read from the lower end to the higher one if it has no
direction. -/
def normal (l : Link) : Link :=
  if !l.directed && decide (l.target < l.source) then
    { l with source := l.target, target := l.source }
  else l

/-- The canonical order: by the ends, undirected before directed, then
by traits. -/
def order : Link → Link → Ordering :=
  compareLex (compareOn Link.source) <| compareLex (compareOn Link.target) <|
    compareLex (compareOn Link.directed) fun a b => a.traits.order b.traits

end Link

/-- A numbered link. -/
structure Relation where
  id : RelationId
  link : Link
  deriving DecidableEq, Inhabited

namespace Relation

/-- Whether a different relation could stand for the same element, by its traits
alone: its ends are not looked at. -/
def resembles (a b : Relation) : Bool :=
  a.id != b.id && a.link.traits.compatible b.link.traits

end Relation

/-- Nodes by number. -/
abbrev NodeTable : Type := Keyed Node.id

/-- Relations by number. -/
abbrev RelationTable : Type := Keyed Relation.id

end DrawnPattern
