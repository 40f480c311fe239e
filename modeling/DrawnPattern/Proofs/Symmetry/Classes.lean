import DrawnPattern.Proofs.Keyed
import DrawnPattern.Symmetry
set_option autoImplicit false

/-!
# What is in a class

Items are put into classes one after the other, each next to the first member it
is alike to.  So every class lists its members in the order of the items and
begins with one that all others are alike to.
-/

namespace DrawnPattern.Symmetry

variable {α : Type} {alike : α → α → Bool}

/-! ## Joining a class -/

/-- An item joins one class at its end or makes a class of its own; the other
classes stay. -/
theorem mem_join {a : α} {classes : List (List α)} {members : List α}
    (h : members ∈ join alike a classes) :
    members ∈ classes ∨ members = [a] ∨
      ∃ old ∈ classes, old.head?.any (alike · a) = true ∧
      members = old ++ [a] := by
  induction classes with
  | nil => exact .inr (.inl (by simpa [join] using h))
  | cons old rest ih =>
    unfold join at h
    split at h
    · rename_i hjoins
      rcases List.mem_cons.1 h with rfl | hrest
      · exact .inr (.inr ⟨old, List.mem_cons_self, hjoins, rfl⟩)
      · exact .inl (List.mem_cons_of_mem _ hrest)
    · rcases List.mem_cons.1 h with rfl | hrest
      · exact .inl List.mem_cons_self
      · rcases ih hrest with hmem | hnew | ⟨joined, hmem, hjoins, rfl⟩
        · exact .inl (List.mem_cons_of_mem _ hmem)
        · exact .inr (.inl hnew)
        · exact .inr (.inr ⟨joined, List.mem_cons_of_mem _ hmem, hjoins, rfl⟩)

/-- What holds of a class after `items`: it keeps their order, and its first
member is alike to all others. -/
structure Gathered (alike : α → α → Bool) (items members : List α) : Prop where
  sublist : members.Sublist items
  alike_first : ∃ first rest, members = first :: rest ∧
    ∀ m ∈ rest, alike first m = true

theorem Gathered.later {items members : List α}
    (h : Gathered alike items members) (a : α) :
    Gathered alike (items ++ [a]) members :=
  ⟨h.sublist.trans (List.sublist_append_left items [a]), h.alike_first⟩

/-- Joining keeps every class gathered. -/
theorem gathered_join {a : α} {items : List α} {classes : List (List α)}
    (h : ∀ members ∈ classes, Gathered alike items members) :
    ∀ members ∈ join alike a classes,
    Gathered alike (items ++ [a]) members := by
  intro members hmem
  rcases mem_join hmem with hold | rfl | ⟨old, hold, hjoins, rfl⟩
  · exact (h members hold).later a
  · exact ⟨List.sublist_append_right items [a], a, [], rfl, by simp⟩
  · obtain ⟨hsub, first, rest, rfl, halike⟩ := h old hold
    refine ⟨hsub.append (List.Sublist.refl [a]), first, rest ++ [a], rfl,
      fun m hm => ?_⟩
    rcases List.mem_append.1 hm with hm | hm
    · exact halike m hm
    · rw [List.mem_singleton.1 hm]
      simpa using hjoins

/-! ## All classes -/

theorem gathered_foldl (items : List α) :
    ∀ (done : List α) (classes : List (List α)),
      (∀ members ∈ classes, Gathered alike done members) →
      ∀ members ∈ items.foldl (fun classes a => join alike a classes) classes,
        Gathered alike (done ++ items) members := by
  induction items with
  | nil =>
    intro done classes h members hmem
    simpa using h members hmem
  | cons a rest ih =>
    intro done classes h members hmem
    have hrest :=
      ih (done ++ [a]) (join alike a classes) (gathered_join h) members hmem
    simpa using hrest

/-- A class is gathered from the items. -/
theorem gathered_of_mem_classes {items members : List α}
    (h : members ∈ classes alike items) :
    Gathered alike items members := by
  have hmem := (List.mem_filter.1 h).1
  simpa using gathered_foldl items [] [] (by simp) members hmem

/-! ## Neighbours in a class -/

/-- Two members of a class are alike if `alike` is an equivalence on
distinct items. -/
theorem alike_of_gathered {items members : List α}
    (symm : ∀ a b, alike a b = true → alike b a = true)
    (trans : ∀ a b c, a ∈ items → b ∈ items → c ∈ items → a ≠ c →
      alike a b = true → alike b c = true → alike a c = true)
    (h : Gathered alike items members) {a b : α} (ha : a ∈ members)
      (hb : b ∈ members)
    (hne : a ≠ b) : alike a b = true := by
  have hin : ∀ m ∈ members, m ∈ items := fun m hm => h.sublist.subset hm
  obtain ⟨-, first, rest, rfl, halike⟩ := h
  rcases List.mem_cons.1 ha with rfl | ha'
  · rcases List.mem_cons.1 hb with rfl | hb'
    · exact absurd rfl hne
    · exact halike b hb'
  · rcases List.mem_cons.1 hb with rfl | hb'
    · exact symm _ _ (halike a ha')
    · exact trans a first b (hin a ha) (hin first List.mem_cons_self)
        (hin b hb) hne
        (symm _ _ (halike a ha')) (halike b hb')

end DrawnPattern.Symmetry
