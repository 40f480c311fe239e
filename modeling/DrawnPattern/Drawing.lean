import DrawnPattern.Graph.Builder
set_option autoImplicit false

/-!
# Drawings

A drawing lists vertices with keys and edges between keys.  Its graph numbers
the vertices as they are listed and the edges in canonical order: each edge is
read from its lower vertex if it has no direction, and edges are sorted by their
ends, direction and traits.  So the numbers do not depend on the order in which
edges were drawn.
-/

namespace DrawnPattern

/-- A drawn vertex.  Its key is chosen by who draws and means nothing beyond
the drawing. -/
structure Vertex where
  key : String
  traits : Traits := {}
  deriving DecidableEq, Inhabited

/-- A drawn edge between two vertices, which it names by their keys. -/
structure Edge where
  source : String
  target : String
  directed : Bool := false
  traits : Traits := {}
  deriving DecidableEq, Inhabited

/-- What was drawn, in drawing order.  The order of the vertices numbers the
nodes; that of the edges is forgotten. -/
structure Drawing where
  vertices : List Vertex := []
  edges : List Edge := []
  deriving DecidableEq, Inhabited

namespace Drawing

/-- The first key that an earlier vertex has already, in drawing order. -/
def repeatedKey? : List Vertex → Option String := go []
where
  go (earlier : List String) : List Vertex → Option String
    | [] => none
    | v :: rest =>
      if earlier.contains v.key then some v.key else go (v.key :: earlier) rest

/-- The position of the vertex with a key. -/
def indexOf? (vertices : List Vertex) (key : String) : Option NodeId :=
  (vertices.findIdx? (·.key == key)).map Int.ofNat

/-- The position of the vertex at an end of an edge. -/
def resolve (vertices : List Vertex) (key : String) :
    Except GraphFault NodeId :=
  match indexOf? vertices key with
  | some index => .ok index
  | none => .error (.incomplete (.unknownVertex key))

/-- The link between vertex positions that an edge stands for, read in its
normal direction; the source is looked up before the target. -/
def place (vertices : List Vertex) (e : Edge) : Except GraphFault Link := do
  let source ← resolve vertices e.source
  let target ← resolve vertices e.target
  pure (Link.normal ⟨source, target, e.directed, e.traits⟩)

/-- Links in canonical order; links that tie are identical, so the order in
which they were drawn is lost. -/
def canonical (links : List Link) : List Link :=
  links.mergeSort fun a b => (a.order b).isLE

/-- The vertices as nodes, numbered from zero. -/
def numberedNodes (vertices : List Vertex) : List Node :=
  vertices.mapIdx fun index v => { id := index, traits := v.traits }

/-- The links as relations, numbered from zero. -/
def numberedRelations (links : List Link) : List Relation :=
  links.mapIdx fun index link => ⟨index, link⟩

/-- The connected graph of a drawing.  An empty drawing is refused first, then
repeated keys, then edges without ends, then pieces. -/
def graph (d : Drawing) : Except GraphFault Graph :=
  if d.vertices.isEmpty then .error .empty
  else match repeatedKey? d.vertices with
    | some key => .error (.incomplete (.repeatedVertex key))
    | none => do
      let links ← d.edges.mapM (place d.vertices)
      Graph.ofLists (numberedNodes d.vertices)
        (numberedRelations (canonical links)) .required

end Drawing

end DrawnPattern
