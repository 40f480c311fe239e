import DrawnPattern.Graph.Basic
import Mathlib.Data.Option.Defs
set_option autoImplicit false

/-!
# Identity up to the bits of NaNs

A query writes every NaN in one way, so what is written is told apart only up to
which NaN it holds.  Everything else has to be identical, the sign of a zero
included.
-/

namespace DrawnPattern

/-- Whether two values are identical, or both NaN.  This is as much as a query
text can tell of a value, since all NaN are written alike. -/
def Value.Alike : Value → Value → Prop
  | .float x, .float y => x = y ∨ (x.isNaN = true ∧ y.isNaN = true)
  | a, b => a = b

/-- Whether two maps have the same names, with alike values.  Null counts as a
value, so what has to be missing is the same as well. -/
def Properties.Alike (a b : Properties) : Prop :=
  ∀ name, Option.Rel Value.Alike (Map.get? a name) (Map.get? b name)

/-- Whether two elements carry the same label and alike properties. -/
structure Traits.Alike (a b : Traits) : Prop where
  label : a.label = b.label
  properties : a.properties.Alike b.properties

structure Node.Alike (m n : Node) : Prop where
  id : m.id = n.id
  traits : m.traits.Alike n.traits
  relations : m.relations = n.relations

/-- Whether two relations have the same number, ends and direction, with
alike traits. -/
structure Relation.Alike (q r : Relation) : Prop where
  id : q.id = r.id
  source : q.link.source = r.link.source
  target : q.link.target = r.link.target
  directed : q.link.directed = r.link.directed
  traits : q.link.traits.Alike r.link.traits

/-- Whether two graphs have the same numbers, with alike elements under each, so
that they differ in the bits of NaN at most. -/
structure Graph.Alike (g h : Graph) : Prop where
  nodes : ∀ id, Option.Rel Node.Alike (g.node? id) (h.node? id)
  relations : ∀ id, Option.Rel Relation.Alike (g.relation? id) (h.relation? id)

end DrawnPattern
