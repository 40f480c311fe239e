import DrawnPattern.Graph.Basic
import DrawnPattern.Tree
set_option autoImplicit false

/-!
# Graphs as trees

The nodes first, each with the relations it lists, then the relations with
their ends, all in ascending order of their numbers.
-/

namespace DrawnPattern

def Node.tree (n : Node) : Tree :=
  .branch s!"n{n.id}" <| Tree.ofTraits n.traits ++
    [.leaf ("Relations: " ++
      Tree.bracketed (n.relations.toList.map fun id => s!"r{id}"))]

def Relation.tree (r : Relation) : Tree :=
  let arrow := if r.link.directed then "->" else "--"
  .branch s!"r{r.id}" <| Tree.ofTraits r.link.traits ++
    [.leaf s!"n{r.link.source} {arrow} n{r.link.target}"]

/-- The graph under a title. -/
def Graph.tree (g : Graph) (title : String) : Tree :=
  .branch title
    [.branch "Nodes" (g.nodes.toList.map Node.tree),
      .branch "Relations" (g.relations.toList.map Relation.tree)]

/-- The graph as text. -/
def Graph.text (g : Graph) : String := (g.tree "Graph").render

end DrawnPattern
