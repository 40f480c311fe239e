import DrawnPattern.Catalog
import DrawnPattern.Query.Pattern
import DrawnPattern.Query.Predicate
import DrawnPattern.Query.Shape
set_option autoImplicit false

/-!
# Compiling graphs to queries

A query is a pattern that binds a variable to every node and relation, the
predicates, and the projection to one row.  The text depends on nothing but the
graph, the options and the catalog.
-/

namespace DrawnPattern.Query

/-- A query with what is needed to read its row: the policy it was compiled for,
and the order of its variables. -/
structure CompiledQuery where
  text : String
  shape : Shape
  policy : Policy
  symmetry : Symmetry
  deriving DecidableEq

/-- Options, and the catalog of the database if it is known; without it no label
counts as redundant. -/
structure Compiler where
  options : Options := {}
  catalog : Option Catalog := none

namespace Compiler

/-- Whether a node label is written: it is, unless labels are to be pruned and
the catalog says that every node carries it. -/
def keepsNodeLabel (c : Compiler) (label : String) : Bool :=
  match c.catalog with
  | some catalog =>
    !(c.options.pruneLabels && catalog.isRedundantNodeLabel label)
  | none => true

/-- Whether a relationship type is written: it is, unless labels are to be
pruned and the catalog says that every relationship has it. -/
def keepsRelationLabel (c : Compiler) (label : String) : Bool :=
  match c.catalog with
  | some catalog =>
    !(c.options.pruneLabels && catalog.isRedundantRelationLabel label)
  | none => true

/-- A variable with the label and the properties asked of it, as they stand
between parentheses or brackets. -/
def slot (name : String) (label : Option String) (properties : Properties) :
    String :=
  name ++
    (match label with
      | some label => ":" ++ identifier label
      | none => "") ++
    match propertyMap? properties with
    | some map => " " ++ map
    | none => ""

/-- What stands between the parentheses where a node is declared. -/
def nodeSlot (c : Compiler) (n : Node) : String :=
  slot (c.options.nodeVariable n.id) (n.traits.label.filter c.keepsNodeLabel)
    n.traits.properties

/-- What stands between the brackets of a relation. -/
def relationSlot (c : Compiler) (r : Relation) : String :=
  slot (c.options.relationVariable r.id)
    (r.link.traits.label.filter c.keepsRelationLabel) r.link.traits.properties

/-- A node in a chain as text: in full where it is declared, by its variable
where it is only mentioned. -/
def nodeText (c : Compiler) (g : Graph) : NodeRef → String
  | .declaration id =>
    "(" ++
      (match g.node? id with
        | some n => c.nodeSlot n
        | none => c.options.nodeVariable id) ++ ")"
  | .mention id => "(" ++ c.options.nodeVariable id ++ ")"

/-- A relation with its arrow and the node after it as text; the arrow points as
the relation is walked. -/
def stepText (c : Compiler) (g : Graph) (s : Step) : String :=
  (match s.arrow with
    | .plain => "-[" ++ c.relationSlot s.relation ++ "]-"
    | .forward => "-[" ++ c.relationSlot s.relation ++ "]->"
    | .backward => "<-[" ++ c.relationSlot s.relation ++ "]-") ++
    c.nodeText g s.node

def chainText (c : Compiler) (g : Graph) (chain : Chain) : String :=
  c.nodeText g chain.start ++ String.join (chain.steps.map (c.stepText g))

/-- The chains of a graph as text, separated by commas. -/
def patternText (c : Compiler) (g : Graph) : String :=
  ", ".intercalate ((chains g).map (c.chainText g))

/-- The query for a graph: the pattern, then what is asked of the matches, then
the row that they are returned in. -/
def compile (c : Compiler) (g : Graph) : CompiledQuery :=
  let shape := Shape.ofGraph c.options g
  { text := "MATCH " ++ c.patternText g ++ "\n" ++
      predicateLines c.options (predicates c.options.policy g) ++
      shape.projection
    shape
    policy := c.options.policy
    symmetry := g.symmetry }

end Compiler

end DrawnPattern.Query
