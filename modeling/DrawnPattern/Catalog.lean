import DrawnPattern.Graph.Tree
set_option autoImplicit false

/-!
# Catalogs

What is known of a database as a whole: how many nodes carry each label, how
many relationships have each type, the properties of each, the totals, and a
graph of the schema.  A label that every node carries tells nothing apart and is
called redundant.
-/

namespace DrawnPattern

/-- The catalog of a database: how often each label and type occurs, what
properties go with it, and which labels are joined by which types. -/
structure Catalog where
  nodeCounts : Map String Nat := ∅
  relationCounts : Map String Nat := ∅
  /-- for each label, the type of each property -/
  nodeProperties : Map String (Map String String) := ∅
  /-- for each relationship type, the type of each property -/
  relationProperties : Map String (Map String String) := ∅
  totalNodes : Nat := 0
  totalRelations : Nat := 0
  /-- missing for an empty database -/
  schema : Option Graph := none
  deriving DecidableEq

namespace Catalog

/-- Whether every node carries the label, and there is one, so that asking for
the label tells no nodes apart. -/
def isRedundantNodeLabel (c : Catalog) (label : String) : Bool :=
  decide (0 < c.totalNodes) && Map.get? c.nodeCounts label == some c.totalNodes

/-- Whether every relationship has the type, and there is one, so that asking
for the type tells none apart. -/
def isRedundantRelationLabel (c : Catalog) (label : String) : Bool :=
  decide (0 < c.totalRelations) && Map.get? c.relationCounts label ==
    some c.totalRelations

/-! ## As a tree -/

/-- Counts under a title. -/
def countTree (title : String) (counts : Map String Nat) : Tree :=
  .branch title (counts.toList.map fun (label, count) =>
    .leaf s!"{label}: {count}")

/-- Property types by label under a title. -/
def propertyTree (title : String)
    (properties : Map String (Map String String)) : Tree :=
  .branch title (properties.toList.map fun (label, types) =>
    .branch label (types.toList.map fun (name, type) =>
      .leaf (name ++ ": " ++ type)))

def tree (c : Catalog) : Tree :=
  .branch "Database Metadata"
    [ .leaf s!"Total Nodes: {c.totalNodes}",
      .leaf s!"Total Relations: {c.totalRelations}",
      countTree "Node Counts" c.nodeCounts,
      countTree "Relation Counts" c.relationCounts,
      propertyTree "Node Properties" c.nodeProperties,
      propertyTree "Relation Properties" c.relationProperties,
      match c.schema with
      | some g => g.tree "Schema"
      | none => .leaf "Schema: (empty)" ]

/-- The catalog as text. -/
def text (c : Catalog) : String := c.tree.render

end Catalog

end DrawnPattern
