import DrawnPattern.Keyed
import DrawnPattern.Value
set_option autoImplicit false

/-!
# Traits

The traits of an element are its label and its properties.  On a drawn element
they are conditions, on a stored element they are facts.  `compatible` asks
whether two sets of conditions can hold of one element; `order` is the total
order that canonical numbering uses.
-/

namespace DrawnPattern

/-- Values by property name. -/
abbrev Properties : Type := Map String Value

namespace Properties

/-- Whether two property maps have the same names and agreeing values. -/
def same (a b : Properties) : Bool :=
  a.toList.length == b.toList.length &&
    (a.toList.zip b.toList).all fun pair =>
      pair.1.1 == pair.2.1 && pair.1.2.same pair.2.2

/-- Lexicographic order: by name, then by value, a shorter map before its
extensions. -/
def order (a b : Properties) : Ordering :=
  List.compareLex (compareLex (compareOn Prod.fst) fun p q => p.2.order q.2)
    a.toList b.toList

end Properties

/-- Label and properties of a node or a relation: what a drawn element asks for,
and what a stored one has. -/
structure Traits where
  label : Option String := none
  properties : Properties := ∅
  deriving DecidableEq, Inhabited

namespace Traits

/-- Whether labels are equal and properties agree.  Traits that have a NaN are
not the same as themselves. -/
def same (a b : Traits) : Bool :=
  a.label == b.label && Properties.same a.properties b.properties

/-- No label before any label, then by properties.  Only identical traits tie,
unlike under `same`. -/
def order : Traits → Traits → Ordering :=
  compareLex (compareOn Traits.label) fun a b =>
    Properties.order a.properties b.properties

/-- Whether two labels can be the label of one element; a missing label
fits all. -/
def labelsFit : Option String → Option String → Bool
  | some a, some b => a == b
  | _, _ => true

/-- Whether both sets of conditions can hold of one element: the labels fit, and
no property named on both sides has disagreeing values. -/
def compatible (a b : Traits) : Bool :=
  labelsFit a.label b.label &&
    a.properties.toList.all fun (name, value) =>
      match Map.get? b.properties name with
      | some other => other.same value
      | none => true

end Traits

end DrawnPattern
