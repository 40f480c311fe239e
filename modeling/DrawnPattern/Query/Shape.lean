import DrawnPattern.Query.Options
import DrawnPattern.Graph.Basic
set_option autoImplicit false

/-!
# Shapes of result rows

A query returns one row: the distinct matched nodes, the distinct matched
relationships, and for each match the ids bound to the node variables and to the
relation variables, in the order of the shape.
-/

namespace DrawnPattern.Query

/-- The column of the matched nodes. -/
def nodesColumn : String := "nodes"

/-- The column of the matched relationships. -/
def relationshipsColumn : String := "relationships"

/-- The column of the bound ids. -/
def idsColumn : String := "resultIds"

/-- The variables of a query, in the order in which their ids are listed.
Whoever reads the row needs it to tell which id belongs to which element. -/
structure Shape where
  nodes : List (NodeId × String) := []
  relations : List (RelationId × String) := []
  deriving DecidableEq, Inhabited

namespace Shape

/-- The variables for the nodes and relations of a graph, in ascending order. -/
def ofGraph (o : Options) (g : Graph) : Shape :=
  { nodes := g.nodeIds.map fun id => (id, o.nodeVariable id)
    relations := g.relationIds.map fun id => (id, o.relationVariable id) }

/-- How many node ids a match lists. -/
def nodeArity (s : Shape) : Nat := s.nodes.length

/-- How many relation ids a match lists. -/
def relationArity (s : Shape) : Nat := s.relations.length

/-! ## The projection -/

/-- The ids of variables between square brackets. -/
def idList (names : List String) : String :=
  "[" ++ ", ".intercalate (names.map fun v => "id(" ++ v ++ ")") ++ "]"

/-- Everything bound to the variables, with repetitions; an empty list if there
are none. -/
def collected (names : List String) : String :=
  if names.isEmpty then "[]"
  else " + ".intercalate (names.map fun v => "collect(" ++ v ++ ")")

/-- The elements of a list without repetitions. -/
def distinct (list : String) : String :=
  "reduce(acc = [], x IN " ++ list ++
    " | CASE WHEN x IN acc THEN acc ELSE acc + x END)"

/-- The lines that make the result row: the ids of each match in one column, and
the matched elements, each once, in two more. -/
def projection (s : Shape) : String :=
  let nodes := s.nodes.map Prod.snd
  let relations := s.relations.map Prod.snd
  "WITH collect([" ++ idList nodes ++ ", " ++ idList relations ++ "]) AS " ++
    idsColumn ++ ",\n" ++
  "     " ++ collected nodes ++ " AS nodeList,\n" ++
  "     " ++ collected relations ++ " AS relationList\n" ++
  "RETURN " ++ distinct "nodeList" ++ " AS " ++ nodesColumn ++ ",\n" ++
  "       " ++ distinct "relationList" ++ " AS " ++
    relationshipsColumn ++ ",\n" ++
  "       " ++ idsColumn

end Shape

end DrawnPattern.Query
