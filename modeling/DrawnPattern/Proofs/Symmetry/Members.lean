import DrawnPattern.Proofs.Keyed
import DrawnPattern.Proofs.Symmetry.Exchange
import Mathlib.Data.List.Flatten
import Mathlib.Data.List.Pairwise
import Mathlib.Algebra.Order.Group.Int
set_option autoImplicit false

/-!
# Members of the classes

The classes partition what is put into them (`flatten_foldl_join_perm`), so no
item is in two of them; and alike items come into one class, since the first
members of different classes are not alike (`exists_class_of_alike`).  For a
graph: the members of a class are listed in ascending order; different nodes
share a class iff they are interchangeable (`nodes_together_iff`), and different
relations iff they have one link (`relations_together_iff`).
-/

namespace DrawnPattern.Symmetry

variable {α : Type} {alike : α → α → Bool}

/-! ## No item in two classes -/

theorem flatten_join_perm (alike : α → α → Bool) (a : α)
    (classes : List (List α)) :
    (join alike a classes).flatten.Perm (classes.flatten ++ [a]) := by
  induction classes with
  | nil => exact .refl [a]
  | cons members rest ih =>
    unfold join
    split
    · rw [List.flatten_cons, List.flatten_cons, List.append_assoc,
        List.append_assoc]
      exact List.perm_append_comm.append_left members
    · rw [List.flatten_cons, List.flatten_cons, List.append_assoc]
      exact ih.append_left members

theorem flatten_foldl_join_perm (alike : α → α → Bool) (items : List α) :
    ∀ classes : List (List α),
    (items.foldl (fun classes a => join alike a classes) classes).flatten.Perm
      (classes.flatten ++ items) := by
  induction items with
  | nil =>
    intro classes
    rw [List.foldl_nil, List.append_nil]
  | cons a rest ih =>
    intro classes
    have hjoined := (flatten_join_perm alike a classes).append_right rest
    rw [List.append_assoc] at hjoined
    exact (ih (join alike a classes)).trans hjoined

theorem eq_of_mem_of_mem {classes : List (List α)} (h : classes.flatten.Nodup)
    {members others : List α} (hmembers : members ∈ classes)
    (hothers : others ∈ classes) {a : α} (ha : a ∈ members) (ha' : a ∈ others) :
    members = others := by
  by_contra hne
  have : Std.Symm (List.Disjoint (α := α)) := ⟨fun _ _ h a ha ha' => h ha' ha⟩
  exact (List.nodup_flatten.1 h).2.forall hmembers hothers hne ha ha'

/-! ## Alike items in one class -/

/-- Whether the first members of different classes are not alike, so that one
comparison tells whether an item belongs to a class. -/
def FirstsApart (alike : α → α → Bool) (firsts : List (Option α)) : Prop :=
  firsts.Pairwise fun f f' => ∀ a ∈ f, ∀ b ∈ f', ¬alike a b = true

/-- Joining keeps the first members, or it adds one that no earlier one is
alike to. -/
theorem map_head?_join (alike : α → α → Bool) (a : α)
    (classes : List (List α)) :
    (join alike a classes).map List.head? = classes.map List.head? ∨
      (join alike a classes).map List.head? = classes.map List.head? ++
      [some a] ∧
        ∀ f ∈ classes.map List.head?, ∀ b ∈ f, ¬alike b a = true := by
  induction classes with
  | nil => exact .inr ⟨rfl, by simp⟩
  | cons members rest ih =>
    unfold join
    split
    · rename_i hjoins
      cases members with
      | nil => simp at hjoins
      | cons first others => exact .inl rfl
    · rename_i hapart
      rcases ih with hsame | ⟨hnew, hrest⟩
      · exact .inl (by rw [List.map_cons, hsame, List.map_cons])
      · refine .inr ⟨by rw [List.map_cons, hnew, List.map_cons,
          List.cons_append], ?_⟩
        rw [List.map_cons, List.forall_mem_cons]
        refine ⟨fun b hb => ?_, hrest⟩
        rw [Option.mem_def.1 hb] at hapart
        simpa using hapart

theorem firstsApart_join {a : α} {classes : List (List α)}
    (h : FirstsApart alike (classes.map List.head?)) :
    FirstsApart alike ((join alike a classes).map List.head?) := by
  rcases map_head?_join alike a classes with hsame | ⟨hnew, hapart⟩
  · rw [hsame]
    exact h
  · rw [hnew]
    refine List.pairwise_append.2 ⟨h, List.pairwise_singleton _ _,
      fun f hf f' hf' b hb c hc => ?_⟩
    obtain rfl := List.mem_singleton.1 hf'
    obtain rfl := Option.some.inj (Option.mem_def.1 hc)
    exact hapart f hf b hb

theorem firstsApart_foldl_join (alike : α → α → Bool) (items : List α) :
    ∀ classes : List (List α),
    FirstsApart alike (classes.map List.head?) →
    FirstsApart alike
      ((items.foldl (fun classes a => join alike a classes) classes).map
        List.head?) := by
  induction items with
  | nil =>
    intro classes h
    exact h
  | cons a rest ih =>
    intro classes h
    exact ih _ (firstsApart_join h)

theorem one_lt_length_of_mem {l : List α} {a b : α} (ha : a ∈ l) (hb : b ∈ l)
    (hne : a ≠ b) :
    1 < l.length := by
  match l with
  | [] => exact absurd ha List.not_mem_nil
  | [x] =>
    exact absurd
      ((List.mem_singleton.1 ha).trans (List.mem_singleton.1 hb).symm) hne
  | x :: y :: rest => simp

/-- Every member of a class is the first one, or the first one is
alike to it. -/
theorem Gathered.exists_first {items members : List α}
    (h : Gathered alike items members) {a : α} (ha : a ∈ members) :
    ∃ first ∈ members.head?, first = a ∨ alike first a = true := by
  obtain ⟨-, first, rest, rfl, hrest⟩ := h
  refine ⟨first, rfl, ?_⟩
  rcases List.mem_cons.1 ha with rfl | ha
  · exact .inl rfl
  · exact .inr (hrest a ha)

/-- Different items that are alike share a class if `alike` is an equivalence on
distinct items. -/
theorem exists_class_of_alike {items : List α}
    (symm : ∀ a b, alike a b = true → alike b a = true)
    (trans : ∀ a b c, a ∈ items → b ∈ items → c ∈ items → a ≠ c →
      alike a b = true → alike b c = true → alike a c = true)
    (hnodup : items.Nodup) {a b : α} (ha : a ∈ items) (hb : b ∈ items)
    (hne : a ≠ b) (halike : alike a b = true) :
    ∃ members ∈ classes alike items, a ∈ members ∧ b ∈ members := by
  have hperm := flatten_foldl_join_perm alike items []
  have hgathered :
      ∀ members ∈ items.foldl (fun classes a => join alike a classes) [],
      Gathered alike items members := gathered_foldl items [] [] (by simp)
  have happart := firstsApart_foldl_join alike items [] .nil
  unfold classes
  generalize items.foldl (fun classes a => join alike a classes) [] =
    all at hperm hgathered happart ⊢
  obtain ⟨members, hmembers, ham⟩ := List.mem_flatten.1 (hperm.mem_iff.2 ha)
  obtain ⟨others, hothers, hbo⟩ := List.mem_flatten.1 (hperm.mem_iff.2 hb)
  have hsame : members = others := by
    by_contra hdiff
    have hdistinct : ∀ x ∈ members, ∀ y ∈ others, x ≠ y := by
      rintro x hx _ hy rfl
      exact hdiff (eq_of_mem_of_mem (hperm.nodup_iff.2 hnodup) hmembers
        hothers hx hy)
    obtain ⟨f, hf, hfa⟩ := (hgathered members hmembers).exists_first ham
    obtain ⟨f', hf', hfb⟩ := (hgathered others hothers).exists_first hbo
    have hfm := List.mem_of_mem_head? hf
    have hfo := List.mem_of_mem_head? hf'
    have hfi := (hgathered members hmembers).sublist.subset hfm
    have hfi' := (hgathered others hothers).sublist.subset hfo
    -- one item is alike to the other, so the first members of their classes are
    -- alike too
    have haf' : alike a f' = true := by
      rcases hfb with rfl | hfb
      · exact halike
      · exact trans a b f' ha hb hfi' (hdistinct a ham f' hfo) halike
          (symm f' b hfb)
    have hff' : alike f f' = true := by
      rcases hfa with rfl | hfa
      · exact haf'
      · exact trans f a f' hfi ha hfi' (hdistinct f hfm f' hfo) hfa haf'
    have hsymm : Std.Symm fun m m' : List α => ∀ x ∈ m.head?, ∀ y ∈ m'.head?,
        ¬alike x y = true :=
      ⟨fun m m' h x hx y hy hxy => h y hy x hx (symm x y hxy)⟩
    exact (List.pairwise_map.1 happart).forall hmembers hothers hdiff
      f hf f' hf' hff'
  subst hsame
  refine ⟨members, List.mem_filter.2 ⟨hmembers, ?_⟩, ham, hbo⟩
  exact decide_eq_true (one_lt_length_of_mem ham hbo hne)

/-! ## Classes of keyed items -/

section Keyed

variable {key : α → Int} {items : Keyed key} {members : List Int}

/-- No key is in two classes. -/
theorem nodup_flatten_map_classes (alike : α → α → Bool) (items : Keyed key) :
    ((classes alike items.toList).map (·.map key)).flatten.Nodup := by
  have hall := (flatten_foldl_join_perm alike items.toList []).map key
  rw [← List.map_flatten]
  exact (hall.nodup_iff.2 items.keys_nodup).sublist
    (List.filter_sublist.flatten.map key)

theorem ascending_of_mem_classes
    (h : members ∈ (classes alike items.toList).map (·.map key)) :
    members.Pairwise (· < ·) := by
  obtain ⟨inner, hinner, rfl⟩ := List.mem_map.1 h
  have hsub := (gathered_of_mem_classes hinner).sublist
  exact List.pairwise_map.2
    ((items.ascending.sublist hsub).imp compare_lt_iff_lt.1)

/-- Whether some class holds both; a number that can be exchanged with no other
is in no class. -/
def Together (classes : List (List Int)) (a b : Int) : Prop :=
  ∃ members ∈ classes, a ∈ members ∧ b ∈ members

/-- Different items share a class iff they are alike, if `alike` is an
equivalence on distinct items. -/
theorem together_iff (symm : ∀ x y, alike x y = true → alike y x = true)
    (trans : ∀ x y z, key x ≠ key z → alike x y = true → alike y z = true →
      alike x z = true)
    {x y : α} (hx : x ∈ items.toList) (hy : y ∈ items.toList)
      (hne : key x ≠ key y) :
    Together ((classes alike items.toList).map (·.map key)) (key x) (key y) ↔
        alike x y = true := by
  have hkeys : ∀ u ∈ items.toList, ∀ w ∈ items.toList, u ≠ w → key u ≠ key w :=
    fun u hu w hw huw hkey => huw (Keyed.eq_of_key_eq hu hw hkey)
  have htrans : ∀ u v w, u ∈ items.toList → v ∈ items.toList →
      w ∈ items.toList → u ≠ w →
      alike u v = true → alike v w = true → alike u w = true :=
    fun u v w hu _ hw huw => trans u v w (hkeys u hu w hw huw)
  have hxy : x ≠ y := fun heq => hne (congrArg key heq)
  constructor
  · rintro ⟨members, hmembers, hxm, hym⟩
    obtain ⟨inner, hinner, rfl⟩ := List.mem_map.1 hmembers
    have hgathered := gathered_of_mem_classes hinner
    have hin := hgathered.sublist.subset
    obtain ⟨u, hu, hux⟩ := List.mem_map.1 hxm
    obtain ⟨v, hv, hvy⟩ := List.mem_map.1 hym
    obtain rfl := Keyed.eq_of_key_eq (hin hu) hx hux
    obtain rfl := Keyed.eq_of_key_eq (hin hv) hy hvy
    exact alike_of_gathered symm htrans hgathered hu hv hxy
  · intro halike
    obtain ⟨members, hmembers, hxm, hym⟩ := exists_class_of_alike symm htrans
      (Keyed.toList_nodup items) hx hy hxy halike
    exact ⟨members.map key, List.mem_map_of_mem hmembers,
      List.mem_map_of_mem hxm, List.mem_map_of_mem hym⟩

theorem mem_keys_of_mem_classes
    (h : members ∈ (classes alike items.toList).map (·.map key)) :
    ∀ a ∈ members, a ∈ items.keys := by
  intro a ha
  obtain ⟨inner, hinner, rfl⟩ := List.mem_map.1 h
  obtain ⟨x, hx, rfl⟩ := List.mem_map.1 ha
  exact Keyed.key_mem_keys ((gathered_of_mem_classes hinner).sublist.subset hx)

end Keyed

/-! ## The classes of a graph -/

variable {g : Graph} {members : List Int} {a b : Int}

theorem parallel_iff {p q : Relation} : parallel p q = true ↔
    p.link.normal = q.link.normal := by
  simp [parallel]

/-- Different nodes share a class iff they are interchangeable.  To compare with
the first member is enough, as the relation is an equivalence. -/
theorem nodes_together_iff {m n : Node} (hm : m ∈ g.nodes.toList)
    (hn : n ∈ g.nodes.toList) (hne : m.id ≠ n.id) :
    Together g.symmetry.nodeClasses m.id n.id ↔
    interchangeable g m n = true := by
  refine together_iff (fun x y hxy => ?_)
    (fun x y z hid hxy hyz => ?_) hm hn hne
  · exact interchangeable_symm hxy
  · exact interchangeable_trans hxy hyz hid

/-- Different relations share a class iff they have one link, up to the reading
of links without direction. -/
theorem relations_together_iff {p q : Relation} (hp : p ∈ g.relations.toList)
    (hq : q ∈ g.relations.toList) (hne : p.id ≠ q.id) :
    Together g.symmetry.relationClasses p.id q.id ↔
    p.link.normal = q.link.normal := by
  rw [← parallel_iff]
  refine together_iff (fun x y hxy => ?_) (fun x y z _ hxy hyz => ?_) hp hq hne
  · exact parallel_iff.2 (parallel_iff.1 hxy).symm
  · exact parallel_iff.2 ((parallel_iff.1 hxy).trans (parallel_iff.1 hyz))

theorem ascending_of_mem_nodeClasses (h : members ∈ g.symmetry.nodeClasses) :
    members.Pairwise (· < ·) :=
  ascending_of_mem_classes h

theorem ascending_of_mem_relationClasses
    (h : members ∈ g.symmetry.relationClasses) :
    members.Pairwise (· < ·) :=
  ascending_of_mem_classes h

theorem mem_nodeIds_of_mem_nodeClasses (h : members ∈ g.symmetry.nodeClasses) :
    ∀ a ∈ members, a ∈ g.nodeIds :=
  mem_keys_of_mem_classes h

theorem mem_relationIds_of_mem_relationClasses
    (h : members ∈ g.symmetry.relationClasses) :
    ∀ a ∈ members, a ∈ g.relationIds :=
  mem_keys_of_mem_classes h

/-- Different members of a node class are interchangeable. -/
theorem exists_interchangeable (h : members ∈ g.symmetry.nodeClasses)
    (ha : a ∈ members) (hb : b ∈ members) (hne : a ≠ b) :
    ∃ m ∈ g.nodes.toList, ∃ n ∈ g.nodes.toList, m.id = a ∧ n.id = b ∧
      interchangeable g m n = true := by
  obtain ⟨m, hm, rfl⟩ :=
    Keyed.mem_keys.1 (mem_nodeIds_of_mem_nodeClasses h a ha)
  obtain ⟨n, hn, rfl⟩ :=
    Keyed.mem_keys.1 (mem_nodeIds_of_mem_nodeClasses h b hb)
  exact ⟨m, hm, n, hn, rfl, rfl,
    (nodes_together_iff hm hn hne).1 ⟨members, h, ha, hb⟩⟩

/-- Different members of a relation class have one link. -/
theorem exists_parallel (h : members ∈ g.symmetry.relationClasses)
    (ha : a ∈ members) (hb : b ∈ members) (hne : a ≠ b) :
    ∃ p ∈ g.relations.toList, ∃ q ∈ g.relations.toList, p.id = a ∧ q.id = b ∧
      p.link.normal = q.link.normal := by
  obtain ⟨p, hp, rfl⟩ :=
    Keyed.mem_keys.1 (mem_relationIds_of_mem_relationClasses h a ha)
  obtain ⟨q, hq, rfl⟩ :=
    Keyed.mem_keys.1 (mem_relationIds_of_mem_relationClasses h b hb)
  exact ⟨p, hp, q, hq, rfl, rfl,
    (relations_together_iff hp hq hne).1 ⟨members, h, ha, hb⟩⟩

end DrawnPattern.Symmetry
