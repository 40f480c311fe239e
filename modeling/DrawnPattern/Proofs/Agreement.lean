import DrawnPattern.Traits
import Mathlib.Data.List.Forall2
set_option autoImplicit false

/-!
# Agreement of values, properties and traits

`same` compares doubles as numbers, so it is weaker than identity where zeros
are concerned and stronger where a NaN is: nothing agrees with a NaN, not even
itself.  What remains is symmetric and transitive, and traits that agree leave
the same properties out.
-/

namespace DrawnPattern

/-! ## Doubles and values -/

theorem Double.same_symm {x y : Double} (h : x.same y = true) :
    y.same x = true := by
  simp only [Double.same, Bool.and_eq_true, Bool.not_eq_true', Bool.or_eq_true,
    beq_iff_eq] at h ⊢
  obtain ⟨⟨hx, hy⟩, heq | ⟨zx, zy⟩⟩ := h
  · exact ⟨⟨hy, hx⟩, .inl heq.symm⟩
  · exact ⟨⟨hy, hx⟩, .inr ⟨zy, zx⟩⟩

theorem Double.same_trans {x y z : Double} (hxy : x.same y = true)
    (hyz : y.same z = true) :
    x.same z = true := by
  simp only [Double.same, Bool.and_eq_true, Bool.not_eq_true', Bool.or_eq_true,
    beq_iff_eq] at hxy hyz ⊢
  obtain ⟨⟨hx, -⟩, heq | ⟨zx, zy⟩⟩ := hxy
  · subst heq
    exact hyz
  · obtain ⟨⟨-, hz⟩, heq | ⟨-, zz⟩⟩ := hyz
    · subst heq
      exact ⟨⟨hx, hz⟩, .inr ⟨zx, zy⟩⟩
    · exact ⟨⟨hx, hz⟩, .inr ⟨zx, zz⟩⟩

namespace Value

theorem same_symm {a b : Value} (h : a.same b = true) : b.same a = true := by
  cases a <;> cases b <;> simp_all [same, Double.same_symm]

theorem same_trans {a b c : Value} (hab : a.same b = true)
    (hbc : b.same c = true) :
    a.same c = true := by
  cases a <;> cases b <;> simp_all only [same] <;> cases c <;> simp_all
  exact Double.same_trans hab hbc

/-- Only null agrees with null. -/
theorem isNull_eq_of_same {a b : Value} (h : a.same b = true) :
    a.isNull = b.isNull := by
  cases a <;> cases b <;> simp_all [same, isNull]

end Value

/-! ## Properties -/

namespace Properties

/-- Two entries agree: one name, agreeing values.  Maps are the same iff their
entries agree in pairs. -/
def entrySame (p q : String × Value) : Prop := p.1 = q.1 ∧ p.2.same q.2 = true

/-- Property maps agree entry by entry.  Both list their names in order, so no
name has to be looked up. -/
theorem same_iff {a b : Properties} :
    same a b = true ↔ List.Forall₂ entrySame a.toList b.toList := by
  have key : ∀ l m : List (String × Value),
      (l.length == m.length &&
        (l.zip m).all fun pair =>
          pair.1.1 == pair.2.1 && pair.1.2.same pair.2.2) = true ↔
      List.Forall₂ entrySame l m := by
    intro l
    induction l with
    | nil => intro m; cases m <;> simp
    | cons p l ih =>
      intro m
      cases m with
      | nil => simp
      | cons q m =>
        rw [List.forall₂_cons, ← ih m]
        simp [entrySame, and_left_comm, and_assoc]
  exact key a.toList b.toList

theorem same_symm {a b : Properties} (h : same a b = true) :
    same b a = true := by
  rw [same_iff] at h ⊢
  exact h.flip.imp fun _ _ hpq => ⟨hpq.1.symm, Value.same_symm hpq.2⟩

theorem same_trans {a b c : Properties} (hab : same a b = true)
    (hbc : same b c = true) :
    same a c = true := by
  rw [same_iff] at hab hbc ⊢
  generalize a.toList = k, b.toList = l, c.toList = m at hab hbc ⊢
  induction hab generalizing m with
  | nil => exact hbc
  | cons hpq _ ih =>
    cases hbc with
    | cons hqr hrest =>
      exact .cons ⟨hpq.1.trans hqr.1, Value.same_trans hpq.2 hqr.2⟩ (ih _ hrest)

end Properties

/-! ## Traits -/

namespace Traits

theorem same_iff {a b : Traits} :
    a.same b = true ↔ a.label = b.label ∧
    Properties.same a.properties b.properties = true := by
  simp [same]

theorem same_symm {a b : Traits} (h : a.same b = true) : b.same a = true := by
  rw [same_iff] at h ⊢
  exact ⟨h.1.symm, Properties.same_symm h.2⟩

theorem same_trans {a b c : Traits} (hab : a.same b = true)
    (hbc : b.same c = true) :
    a.same c = true := by
  rw [same_iff] at hab hbc ⊢
  exact ⟨hab.1.trans hbc.1, Properties.same_trans hab.2 hbc.2⟩

end Traits

end DrawnPattern
