import DrawnPattern.Query.Literal
import DrawnPattern.Query.Options
import DrawnPattern.Symmetry
set_option autoImplicit false

/-!
# Predicates

What a query asks beyond its pattern: that properties are missing, and, where
symmetries are broken, that the ids bound to interchangeable elements ascend.
Two nodes may be bound to one id, two relations never are.
-/

namespace DrawnPattern.Query

/-- A condition on the bound elements.  It names them by their numbers, and its
text names them by their variables. -/
inductive Predicate where
  | nodeLacks (node : NodeId) (property : String)
  | relationLacks (relation : RelationId) (property : String)
  | nodesAscend (lower upper : NodeId)
  | relationsAscend (lower upper : RelationId)
  deriving DecidableEq, Repr

/-- The names of the properties that have to be missing. -/
def nullNames (properties : Properties) : List String :=
  (properties.toList.filter fun entry => entry.2.isNull).map Prod.fst

/-- Neighbouring items of a list, which is enough where what is asked of pairs
is transitive. -/
def neighbouring {α : Type} (items : List α) : List (α × α) :=
  items.zip items.tail

/-- The conditions that properties are missing, nodes first. -/
def lackPredicates (g : Graph) : List Predicate :=
  (g.nodes.toList.flatMap fun n =>
    (nullNames n.traits.properties).map (.nodeLacks n.id)) ++
    g.relations.toList.flatMap fun r =>
      (nullNames r.link.traits.properties).map (.relationLacks r.id)

/-- The conditions that the ids of each class ascend: nodes may share an id,
relations may not. -/
def orderPredicates (s : Symmetry) : List Predicate :=
  (s.nodeClasses.flatMap fun members =>
    (neighbouring members).map fun (a, b) => .nodesAscend a b) ++
    s.relationClasses.flatMap fun members =>
      (neighbouring members).map fun (a, b) => .relationsAscend a b

/-- All predicates of a graph under a policy; only a breaking one asks for
an order. -/
def predicates (policy : Policy) (g : Graph) : List Predicate :=
  lackPredicates g ++
    if policy = .breaking then orderPredicates g.symmetry else []

/-- A predicate as text. -/
def Predicate.text (o : Options) : Predicate → String
  | nodeLacks node property =>
    o.nodeVariable node ++ "." ++ identifier property ++ " IS NULL"
  | relationLacks relation property =>
    o.relationVariable relation ++ "." ++ identifier property ++ " IS NULL"
  | nodesAscend lower upper =>
    "id(" ++ o.nodeVariable lower ++ ") <= id(" ++ o.nodeVariable upper ++ ")"
  | relationsAscend lower upper =>
    "id(" ++ o.relationVariable lower ++ ") < id(" ++
      o.relationVariable upper ++ ")"

/-- The lines that ask for the predicates, one for each; none if there is
nothing to ask. -/
def predicateLines (o : Options) : List Predicate → String
  | [] => ""
  | p :: rest =>
    "WHERE " ++ p.text o ++ "\n" ++
      String.join (rest.map fun q => "  AND " ++ q.text o ++ "\n")

end DrawnPattern.Query
