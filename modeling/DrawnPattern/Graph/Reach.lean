import DrawnPattern.Graph.Basic
set_option autoImplicit false

/-!
# What can be reached

Exploration goes in rounds: all new neighbours of the nodes found last are the
nodes found next.  Each round but the last finds a node, so as many rounds as
there are nodes find everything.
-/

namespace DrawnPattern

/-- Everything found from `seen` in the given number of rounds, where `frontier`
is what the last round found. -/
def explore (adjacent : NodeId → List NodeId) :
    Nat → List NodeId → List NodeId → List NodeId
  | 0, seen, _ => seen
  | rounds + 1, seen, frontier =>
    let found :=
      ((frontier.flatMap adjacent).filter fun id => !seen.contains id).eraseDups
    if found.isEmpty then seen
    else explore adjacent rounds (seen ++ found) found

namespace Graph

/-- The nodes joined to the first node by a path.  As many rounds as there are
nodes suffice, since each round but the last finds one. -/
def reached (g : Graph) : List NodeId :=
  explore g.adjacent g.nodes.size [g.first.id] [g.first.id]

/-- How many nodes no path joins to the first node. -/
def unreached (g : Graph) : Nat := g.nodes.size - g.reached.length

/-- Whether every node is joined to the first one by a path, whatever the
directions of the relations. -/
def isConnected (g : Graph) : Bool := g.unreached == 0

end Graph

end DrawnPattern
