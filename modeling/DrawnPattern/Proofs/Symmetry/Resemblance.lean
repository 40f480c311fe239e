import DrawnPattern.Proofs.Symmetry.Flagged
set_option autoImplicit false

/-!
# Resemblance

Traits are compatible when nothing that one set asks of an element contradicts
the other.  That is symmetric although only the properties of one side are gone
through, and it comes to what the name says (`compatible_iff_jointlyMet`): some
element has both, namely the one with the properties of the first and, where
that is silent, of the second.  A NaN agrees with nothing, so no element has a
property that is a NaN, while traits with one are still compatible with others
that do not name it.
-/

namespace DrawnPattern

/-! ## Values that agree with themselves -/

def Value.isNaN : Value → Bool
  | .float x => x.isNaN
  | _ => false

/-- A value agrees with itself unless it is a NaN. -/
theorem Value.same_self_iff {v : Value} : v.same v = true ↔
    v.isNaN = false := by
  cases v <;> simp [same, isNaN, Double.same]

/-- What agrees with anything is no NaN. -/
theorem Value.isNaN_of_same {v w : Value} (h : w.same v = true) :
    v.isNaN = false :=
  same_self_iff.1 (same_trans (same_symm h) h)

namespace Properties

/-- The properties of the first map, and of the second one where the first has
none of the name. -/
def union (a b : Properties) : Properties :=
  Keyed.ofListKeepFirst (a.toList ++ b.toList)

theorem get?_union (a b : Properties) (name : String) :
    Map.get? (union a b) name = (Map.get? a name).or (Map.get? b name) := by
  rw [Map.get?, union, Keyed.find?_ofListKeepFirst, List.find?_append,
    Option.map_or]
  rfl

end Properties

namespace Traits

/-! ## What has the traits -/

/-- Whether an element with this label and these properties has the traits
that are asked for: the label, if there is one, and each property with a value
that agrees. -/
structure MetBy (a : Traits) (label : String) (properties : Properties) :
    Prop where
  label_eq : ∀ l ∈ a.label, l = label
  agrees : ∀ name v, Map.get? a.properties name = some v →
    ∃ w, Map.get? properties name = some w ∧ w.same v = true

/-- Whether some element has the traits of both, whatever else it has. -/
def JointlyMet (a b : Traits) : Prop :=
  ∃ label properties, a.MetBy label properties ∧ b.MetBy label properties

/-- Whether some property is a NaN, which no stored value agrees with. -/
def HasNaN (a : Traits) : Prop :=
  ∃ name v, Map.get? a.properties name = some v ∧ v.isNaN = true

variable {a b : Traits}

theorem not_hasNaN_iff :
    ¬a.HasNaN ↔ ∀ name v, Map.get? a.properties name = some v →
    v.same v = true := by
  simp only [HasNaN, not_exists, not_and, Bool.not_eq_true, Value.same_self_iff]

/-- No element has a property that is a NaN. -/
theorem MetBy.not_hasNaN {label : String} {properties : Properties}
    (h : a.MetBy label properties) :
    ¬a.HasNaN := by
  rintro ⟨name, v, hv, hnan⟩
  obtain ⟨w, -, hwv⟩ := h.agrees name v hv
  rw [Value.isNaN_of_same hwv] at hnan
  exact Bool.false_ne_true hnan

/-- Where some element has both, nothing contradicts: values that agree with one
value agree. -/
theorem JointlyMet.reconcilable (h : a.JointlyMet b) : a.Reconcilable b := by
  obtain ⟨label, properties, ha, hb⟩ := h
  refine ⟨fun l hl m hm => (ha.label_eq l hl).trans (hb.label_eq m hm).symm, ?_⟩
  intro name v w hv hw
  obtain ⟨x, hx, hxv⟩ := ha.agrees name v hv
  obtain ⟨y, hy, hyw⟩ := hb.agrees name w hw
  obtain rfl : x = y := Option.some.inj (hx.symm.trans hy)
  exact Value.same_trans (Value.same_symm hxv) hyw

/-- Traits that do not contradict each other are met by their union, unless one
of them asks for a NaN. -/
theorem Reconcilable.jointlyMet (h : a.Reconcilable b) (ha : ¬a.HasNaN)
    (hb : ¬b.HasNaN) :
    a.JointlyMet b := by
  rw [not_hasNaN_iff] at ha hb
  refine ⟨(a.label.or b.label).getD "",
    Properties.union a.properties b.properties, ⟨?_, fun name v hv => ?_⟩,
    ⟨?_, fun name w hw => ?_⟩⟩
  · rintro l hl
    rw [hl]
    rfl
  · refine ⟨v, ?_, ha name v hv⟩
    rw [Properties.get?_union, hv]
    rfl
  · rintro m hm
    cases hl : a.label with
    | none =>
      rw [hm]
      rfl
    | some l => exact (h.label l hl m hm).symm
  · rw [Properties.get?_union]
    cases hv : Map.get? a.properties name with
    | none => exact ⟨w, hw, hb name w hw⟩
    | some v => exact ⟨v, rfl, h.property name v w hv hw⟩

end Traits

/-! ## Resemblance -/

/-- What it means that traits are compatible and that elements resemble
each other. -/
structure Resemblance : Prop where
  compatible_comm : ∀ a b : Traits, a.compatible b = b.compatible a
  compatible_iff_jointlyMet : ∀ a b : Traits, ¬a.HasNaN → ¬b.HasNaN →
    (a.compatible b = true ↔ a.JointlyMet b)
  /-- so traits with a NaN have to be left out -/
  not_jointlyMet_of_hasNaN : ∀ a b : Traits, a.HasNaN ∨ b.HasNaN →
    ¬a.JointlyMet b
  node_comm : ∀ m n : Node, m.resembles n = n.resembles m
  node_irrefl : ∀ n : Node, n.resembles n = false
  relation_comm : ∀ q r : Relation, q.resembles r = r.resembles q
  relation_irrefl : ∀ r : Relation, r.resembles r = false

/-- Elements resemble each other, symmetrically, when they are different and
some element has the traits of both; NaN is the one exception. -/
theorem resemblance : Resemblance where
  compatible_comm := Traits.compatible_comm
  compatible_iff_jointlyMet a b ha hb := by
    rw [Traits.compatible_iff]
    exact ⟨fun h => h.jointlyMet ha hb, Traits.JointlyMet.reconcilable⟩
  not_jointlyMet_of_hasNaN a b h := by
    rintro ⟨label, properties, ha, hb⟩
    exact h.elim ha.not_hasNaN hb.not_hasNaN
  node_comm := Node.resembles_comm
  node_irrefl n := by simp [Node.resembles]
  relation_comm q r := by rw [Relation.resembles, Relation.resembles, bne_comm,
    Traits.compatible_comm]
  relation_irrefl r := by simp [Relation.resembles]

end DrawnPattern
