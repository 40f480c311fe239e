import DrawnPattern.Graph.Element
set_option autoImplicit false

/-!
# Reading links

A link without direction may be read from either end; `normal` picks the reading
from the lower end.  So two links have one normal form exactly when they join
the same ends, in order if they are directed and in some order if not
(`normal_eq_iff`), and renaming the ends does not depend on the reading
(`normal_rename_normal`).  Which nodes a link joins does not depend on it either
(`joins_comm`).
-/

namespace DrawnPattern.Link

/-! ## The normal form -/

@[simp] theorem normal_directed (l : Link) :
    l.normal.directed = l.directed := by
  unfold normal
  split <;> rfl

@[simp] theorem normal_traits (l : Link) : l.normal.traits = l.traits := by
  unfold normal
  split <;> rfl

@[simp] theorem rename_directed (l : Link) (f : NodeId → NodeId) :
    (l.rename f).directed = l.directed := rfl

@[simp] theorem rename_traits (l : Link) (f : NodeId → NodeId) :
    (l.rename f).traits = l.traits := rfl

/-- Whether two links join the same ends: in order, or exchanged if there is no
direction. -/
def SameEnds (l m : Link) : Prop :=
  (l.source = m.source ∧ l.target = m.target) ∨
    (l.directed = false ∧ l.source = m.target ∧ l.target = m.source)

/-- The normal form of a link is the link itself or, without direction, the link
read backwards. -/
theorem sameEnds_normal (l : Link) : SameEnds l l.normal := by
  unfold normal
  split
  · rename_i h
    simp only [Bool.and_eq_true, Bool.not_eq_true'] at h
    exact .inr ⟨h.1, rfl, rfl⟩
  · exact .inl ⟨rfl, rfl⟩

theorem normal_eq_of_sameEnds {l m : Link} (hdir : l.directed = m.directed)
    (htraits : l.traits = m.traits) (hends : SameEnds l m) :
    l.normal = m.normal := by
  obtain ⟨s, t, d, x⟩ := l
  obtain ⟨s', t', d', x'⟩ := m
  simp only at hdir htraits
  subst hdir htraits
  rcases hends with ⟨hs, ht⟩ | ⟨hd, hs, ht⟩
  · simp only at hs ht
    subst hs ht
    rfl
  · simp only at hd hs ht
    subst hd hs ht
    simp only [normal, Bool.not_false, Bool.true_and, decide_eq_true_eq]
    split <;> split
    · rename_i h1 h2
      exact absurd h1 (Int.lt_asymm h2)
    · rfl
    · rfl
    · rename_i h1 h2
      have heq : s = t := Int.le_antisymm (Int.not_lt.1 h1) (Int.not_lt.1 h2)
      subst heq
      rfl

/-- Links have one normal form iff they differ at most in the reading, which is
free only where there is no direction. -/
theorem normal_eq_iff {l m : Link} :
    l.normal = m.normal ↔ l.directed = m.directed ∧ l.traits = m.traits ∧
    SameEnds l m := by
  constructor
  · intro h
    have hdir : l.directed = m.directed := by
      rw [← normal_directed l, h, normal_directed]
    refine ⟨hdir, by rw [← normal_traits l, h, normal_traits], ?_⟩
    have hl := sameEnds_normal l
    have hm := sameEnds_normal m
    rw [h] at hl
    unfold SameEnds at hl hm ⊢
    rw [← hdir] at hm
    grind
  · rintro ⟨hdir, htraits, hends⟩
    exact normal_eq_of_sameEnds hdir htraits hends

@[simp] theorem normal_normal (l : Link) : l.normal.normal = l.normal :=
  (normal_eq_iff.2 ⟨(normal_directed l).symm, (normal_traits l).symm,
    sameEnds_normal l⟩).symm

/-! ## Renaming ends -/

theorem rename_id (l : Link) : l.rename id = l := rfl

theorem rename_rename (l : Link) (f h : NodeId → NodeId) :
    (l.rename f).rename h = l.rename (h ∘ f) := rfl

theorem sameEnds_rename {l m : Link} (h : SameEnds l m) (f : NodeId → NodeId) :
    SameEnds (l.rename f) (m.rename f) := by
  rcases h with ⟨hs, ht⟩ | ⟨hd, hs, ht⟩
  · exact .inl ⟨congrArg f hs, congrArg f ht⟩
  · exact .inr ⟨hd, congrArg f hs, congrArg f ht⟩

/-- The reading of a link does not matter when its ends are renamed, whatever
the renaming does to their order. -/
theorem normal_rename_normal (l : Link) (f : NodeId → NodeId) :
    (l.normal.rename f).normal = (l.rename f).normal :=
  Eq.symm <| normal_eq_of_sameEnds (l := l.rename f) (m := l.normal.rename f)
    (normal_directed l).symm (normal_traits l).symm
    (sameEnds_rename (sameEnds_normal l) f)

/-! ## Ends -/

theorem touches_iff {l : Link} {node : NodeId} :
    l.touches node = true ↔ l.source = node ∨ l.target = node := by
  simp [touches]

/-- Renaming changes nothing where both ends keep their names. -/
theorem rename_eq_self {l : Link} {f : NodeId → NodeId}
    (hs : f l.source = l.source) (ht : f l.target = l.target) :
    l.rename f = l := by
  obtain ⟨s, t, d, x⟩ := l
  simp only at hs ht
  simp [rename, hs, ht]

/-- The end across from a node is the other one of the two ends. -/
theorem other_eq_some_iff {l : Link} {a b : NodeId} :
    l.other a = some b ↔
      (l.source = a ∧ l.target = b) ∨ (l.source = b ∧ l.target = a) := by
  unfold other
  split
  · rename_i h
    subst h
    simp only [Option.some.injEq, true_and]
    constructor
    · exact .inl
    · rintro (ht | ⟨hs, ht⟩)
      · exact ht
      · rw [ht, hs]
  · split
    · rename_i h1 h2
      subst h2
      simp only [Option.some.injEq, and_true]
      constructor
      · exact .inr
      · rintro (⟨hs, -⟩ | hs)
        · exact absurd hs.symm h1
        · exact hs
    · rename_i h1 h2
      simp only [reduceCtorEq, false_iff, not_or, not_and]
      exact ⟨fun hs => absurd hs.symm h1, fun _ ht => absurd ht.symm h2⟩

theorem other_isSome_iff {l : Link} {a : NodeId} :
    (∃ b, l.other a = some b) ↔ l.touches a = true := by
  simp only [other_eq_some_iff, touches_iff]
  constructor
  · rintro ⟨b, ⟨hs, -⟩ | ⟨-, ht⟩⟩
    · exact .inl hs
    · exact .inr ht
  · rintro (hs | ht)
    · exact ⟨l.target, .inl ⟨hs, rfl⟩⟩
    · exact ⟨l.source, .inr ⟨rfl, ht⟩⟩

/-- Whether a link joins two nodes, in either order; a loop joins its node
to itself. -/
def Joins (l : Link) (a b : NodeId) : Prop :=
  (l.source = a ∧ l.target = b) ∨ (l.source = b ∧ l.target = a)

instance (l : Link) (a b : NodeId) : Decidable (l.Joins a b) :=
  inferInstanceAs (Decidable (_ ∨ _))

theorem joins_iff_other {l : Link} {a b : NodeId} :
    l.Joins a b ↔ l.other a = some b :=
  other_eq_some_iff.symm

theorem joins_comm {l : Link} {a b : NodeId} : l.Joins a b ↔
    l.Joins b a := or_comm

/-- What joins a node to itself is a loop. -/
theorem joins_self_iff {l : Link} {a : NodeId} :
    l.Joins a a ↔ l.source = a ∧ l.target = a :=
  or_self_iff

theorem touches_of_joins {l : Link} {a b : NodeId} (h : l.Joins a b) :
    l.touches a = true :=
  other_isSome_iff.1 ⟨b, joins_iff_other.1 h⟩

theorem isLoop_iff {l : Link} : l.isLoop = true ↔ l.source = l.target := by
  simp [isLoop]

/-- What lies across a link that is no loop is another node, and the link
joins the two. -/
theorem not_isLoop_and_other_iff {l : Link} {a b : NodeId} :
    l.isLoop = false ∧ l.other a = some b ↔ a ≠ b ∧ l.Joins a b := by
  rw [← joins_iff_other, ← Bool.not_eq_true, isLoop_iff]
  unfold Joins
  grind

end DrawnPattern.Link
