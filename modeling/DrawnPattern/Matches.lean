import DrawnPattern.Graph.Tree
import DrawnPattern.Row.Graph
import DrawnPattern.Query.Compiler
set_option autoImplicit false

/-!
# Matches

The row of a query becomes the graph of everything that was matched and, for
each match, the ids bound to the variables.  Every bound id has to be among the
returned elements, and where the shape of the query is known every list has one
id for each variable.  Deduplication keeps the first match of each subgraph.
-/

namespace DrawnPattern

/-- The ids that one match binds, in the order of the variables of its query. -/
structure Binding where
  nodes : List NodeId
  relations : List RelationId
  deriving DecidableEq, Inhabited

namespace Binding

/-- The bound ids in ascending order: what subgraph was matched,
whichever way. -/
def subgraph (b : Binding) : Binding :=
  ⟨b.nodes.mergeSort, b.relations.mergeSort⟩

/-- The first binding of each subgraph, in order.  What is kept of a binding is
what was bound, not its subgraph. -/
def firstPerSubgraph (bindings : List Binding) : List Binding := go [] bindings
where
  go (seen : List Binding) : List Binding → List Binding
    | [] => []
    | b :: rest =>
      if seen.contains b.subgraph then go seen rest
      else b :: go (b.subgraph :: seen) rest

end Binding

/-- Everything that was matched, and how: one graph of all matched elements, and
the ids that each match bound. -/
structure Matches where
  /-- none when nothing matched -/
  graph : Option Graph
  reported : List Binding
  deriving DecidableEq

namespace Matches

/-- How matches are read from a row: what is kept of them, and how many ids each
has to have. -/
structure Assembler where
  policy : Query.Policy := .breaking
  /-- checked only if it is known -/
  shape : Option Query.Shape := none

/-- The assembler for the row of a query. -/
def Assembler.ofQuery (q : Query.CompiledQuery) : Assembler :=
  ⟨q.policy, some q.shape⟩

/-! ## Bindings -/

/-- Where a list of node ids stands. -/
def nodeIdsPlace : String := "resultIds nodes"

/-- Where a list of relation ids stands. -/
def relationIdsPlace : String := "resultIds relations"

def checkArity (place : String) (expected found : Nat) :
    Except DecodeFault Unit :=
  if expected = found then pure () else throw (.arity place expected found)

/-- One binding: a pair of lists of ids, as long as the shape asks. -/
def binding (shape : Option Query.Shape) (cell : Cell) :
    Except DecodeFault Binding := do
  match ← cell.asList Query.idsColumn with
  | [nodes, relations] =>
    let nodes ← nodes.asIntList Query.idsColumn
    let relations ← relations.asIntList Query.idsColumn
    if let some shape := shape then
      checkArity nodeIdsPlace shape.nodeArity nodes.length
      checkArity relationIdsPlace shape.relationArity relations.length
    pure ⟨nodes, relations⟩
  | other => throw (.arity Query.idsColumn 2 other.length)

/-- The bound id that no element of the graph has; nodes are looked
through first. -/
def danglingId? (graph : Option Graph) (b : Binding) : Option DecodeFault :=
  let hasNode id := (graph.bind (·.node? id)).isSome
  let hasRelation id := (graph.bind (·.relation? id)).isSome
  ((b.nodes.find? (!hasNode ·)).map (.danglingId nodeIdsPlace ·)) <|>
    ((b.relations.find? (!hasRelation ·)).map (.danglingId relationIdsPlace ·))

/-- One binding whose ids are all among the elements of the graph. -/
def knownBinding (shape : Option Query.Shape) (graph : Option Graph)
    (cell : Cell) :
    Except DecodeFault Binding := do
  let b ← binding shape cell
  match danglingId? graph b with
  | some fault => throw fault
  | none => pure b

/-- The bindings that a row lists, in its order; the first that is
refused decides. -/
def bindings (shape : Option Query.Shape) (graph : Option Graph) (row : Row) :
    Except DecodeFault (List Binding) := do
  (← (← Row.field row Query.idsColumn).asList Query.idsColumn).mapM
    (knownBinding shape graph)

/-! ## Assembly -/

/-- The matches that a row reports.  The graph is read before the bindings, so
its faults come first. -/
def Assembler.assemble (a : Assembler) (row : Row) :
    Except Failure Matches := do
  let graph ← Row.graph? row .result
  let bindings ← Matches.bindings a.shape graph row
  pure ⟨graph,
    if a.policy = .deduplicating then Binding.firstPerSubgraph bindings
    else bindings⟩

/-- How many matches are reported. -/
def count (m : Matches) : Nat := m.reported.length

def isEmpty (m : Matches) : Bool := m.reported.isEmpty

/-! ## As a tree -/

def bindingTree (index : Nat) (b : Binding) : Tree :=
  .branch (toString index)
    [ .leaf ("Nodes: " ++ Tree.bracketed (b.nodes.map toString)),
      .leaf ("Relations: " ++ Tree.bracketed (b.relations.map toString)) ]

def tree (m : Matches) : Tree :=
  .branch "Query Results"
    [ match m.graph with
      | some g => g.tree "Graph"
      | none => .leaf "Graph: (no matches)",
      .branch "Node & Relation IDs" (m.reported.mapIdx bindingTree) ]

/-- The matches as text. -/
def text (m : Matches) : String := m.tree.render

end Matches

end DrawnPattern
