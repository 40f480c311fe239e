import DrawnPattern.Proofs.Order
import DrawnPattern.Proofs.Symmetry.Members
import Mathlib.Data.Set.Function
set_option autoImplicit false

/-!
# The classes are exact

Two nodes share a class iff they have the same label and agreeing properties and
some bijection of all relations of the graph goes along with exchanging them
(`ExchangesRelations`); two relations share one iff they are the same but for
their numbers.  Only the links at the two nodes are compared, and only with
those of the first member of a class, but that loses nothing
(`exact_symmetry`).  Comparing the links one by one after sorting them decides
the same (`exchangeKeepsLinks_eq_sorted`).
-/

namespace DrawnPattern

/-- Whether a link is another one with its ends renamed: the same direction
and traits, and the renamed ends in their order or, without direction, in
either order. -/
structure Link.Mirrors (f : NodeId → NodeId) (l m : Link) : Prop where
  directed : m.directed = l.directed
  label : m.traits.label = l.traits.label
  properties : m.traits.properties = l.traits.properties
  ends : (m.source = f l.source ∧ m.target = f l.target) ∨
    (l.directed = false ∧ m.source = f l.target ∧ m.target = f l.source)

theorem Link.mirrors_iff {f : NodeId → NodeId} {l m : Link} :
    Mirrors f l m ↔ m.normal = (l.rename f).normal := by
  rw [normal_eq_iff]
  constructor
  · rintro ⟨hdirected, hlabel, hproperties, hends⟩
    refine ⟨hdirected, ?_, ?_⟩
    · rw [rename_traits]
      cases hm : m.traits
      cases hl : l.traits
      simp_all
    · rw [SameEnds, hdirected]
      exact hends
  · rintro ⟨hdirected, htraits, hends⟩
    rw [rename_traits] at htraits
    rw [SameEnds, hdirected] at hends
    exact ⟨hdirected, by rw [htraits], by rw [htraits], hends⟩

namespace Symmetry

variable {α : Type} {alike : α → α → Bool} {g : Graph} {f : NodeId → NodeId}

/-! ## How classes are listed -/

/-- How classes of numbers are listed: each has two members and more in
ascending order, none shares a member with another one, and they are in the
order of their first members. -/
structure Listed (classes : List (List Int)) (ids : List Int) : Prop where
  mem_ids : ∀ members ∈ classes, ∀ a ∈ members, a ∈ ids
  two_le : ∀ members ∈ classes, 2 ≤ members.length
  disjoint : classes.Pairwise List.Disjoint
  ascending : ∀ members ∈ classes, members.Pairwise (· < ·)
  firsts_ascending : classes.Pairwise fun members others =>
    ∀ a ∈ members.head?, ∀ b ∈ others.head?, a < b

/-- The first members of the classes come in the order of the items. -/
theorem firsts_foldl_join_sublist (items : List α) :
    ∀ (done : List α) (classes : List (List α)),
    (classes.map List.head?).Sublist (done.map some) →
    ((items.foldl (fun classes a => join alike a classes) classes).map
      List.head?).Sublist
      ((done ++ items).map some) := by
  induction items with
  | nil =>
    intro done classes h
    rw [List.append_nil]
    exact h
  | cons a rest ih =>
    intro done classes h
    have hjoined : ((join alike a classes).map List.head?).Sublist
        ((done ++ [a]).map some) := by
      rw [List.map_append]
      rcases map_head?_join alike a classes with hsame | ⟨hnew, -⟩
      · rw [hsame]
        exact h.trans (List.sublist_append_left _ _)
      · rw [hnew]
        exact h.append (List.Sublist.refl _)
    have hrest := ih (done ++ [a]) (join alike a classes) hjoined
    rw [List.append_assoc, List.singleton_append] at hrest
    exact hrest

theorem firsts_sublist (alike : α → α → Bool) (items : List α) :
    ((classes alike items).map List.head?).Sublist (items.map some) :=
  (List.filter_sublist.map _).trans
    (firsts_foldl_join_sublist items [] [] (List.Sublist.refl _))

/-- The classes of keyed items are listed as they should be. -/
theorem listed_classes {key : α → Int} (alike : α → α → Bool)
    (items : Keyed key) :
    Listed ((classes alike items.toList).map (·.map key)) items.keys where
  mem_ids _ hmembers := mem_keys_of_mem_classes hmembers
  two_le members hmembers := by
    obtain ⟨inner, hinner, rfl⟩ := List.mem_map.1 hmembers
    rw [List.length_map]
    exact of_decide_eq_true (List.mem_filter.1 hinner).2
  disjoint := (List.nodup_flatten.1 (nodup_flatten_map_classes alike items)).2
  ascending _ hmembers := ascending_of_mem_classes hmembers
  firsts_ascending := by
    have hitems : (items.toList.map some).Pairwise fun x y =>
        ∀ a ∈ x, ∀ b ∈ y, compare (key a) (key b) = .lt := by
      refine List.pairwise_map.2 (items.ascending.imp ?_)
      rintro x y hlt _ ⟨⟩ _ ⟨⟩
      exact hlt
    have hfirsts :=
      List.pairwise_map.1 (hitems.sublist (firsts_sublist alike items.toList))
    refine List.pairwise_map.2 (hfirsts.imp ?_)
    intro members others hlt a ha b hb
    rw [List.head?_map, Option.mem_map] at ha hb
    obtain ⟨x, hx, rfl⟩ := ha
    obtain ⟨y, hy, rfl⟩ := hb
    exact compare_lt_iff_lt.1 (hlt x hx y hy)

/-! ## Bijections of the relations -/

/-- A function is a bijection of the items of a list iff it shuffles
the list. -/
theorem bijOn_iff_map_perm {items : List α} {image : α → α}
    (hnodup : items.Nodup) :
    Set.BijOn image {a | a ∈ items} {a | a ∈ items} ↔
    (items.map image).Perm items := by
  constructor
  · rintro ⟨hmaps, hinj, hsurj⟩
    have hnodup' : (items.map image).Nodup :=
      hnodup.map_on fun a ha b hb => hinj ha hb
    refine (List.perm_ext_iff_of_nodup hnodup' hnodup).2 fun b => ?_
    rw [List.mem_map]
    constructor
    · rintro ⟨a, ha, rfl⟩
      exact hmaps ha
    · exact fun hb => hsurj hb
  · intro hperm
    refine ⟨fun a ha => hperm.subset (List.mem_map_of_mem ha),
      fun a ha b hb heq => ?_, ?_⟩
    · exact List.inj_on_of_nodup_map (hperm.nodup_iff.2 hnodup) ha hb heq
    · exact fun b hb => List.mem_map.1 (hperm.mem_iff.2 hb)

/-- Whether exchanging two nodes is a symmetry of the graph: there is a
bijection of all its relations under which each goes to one that joins the
exchanged ends in the same way. -/
def ExchangesRelations (g : Graph) (a b : NodeId) : Prop :=
  ∃ image : Relation → Relation,
    Set.BijOn image {r | r ∈ g.relations.toList} {r | r ∈ g.relations.toList} ∧
    ∀ r ∈ g.relations.toList, Link.Mirrors (exchange a b) r.link (image r).link

theorem exchangesRelations_iff {a b : NodeId} :
    ExchangesRelations g a b ↔ KeepsLinks g (exchange a b) := by
  simp only [ExchangesRelations,
    bijOn_iff_map_perm (Keyed.toList_nodup g.relations), Link.mirrors_iff]
  constructor
  · rintro ⟨image, hperm, himage⟩
    exact keepsLinks_of_images hperm himage
  · intro hkeeps
    obtain ⟨image, hperm, himage⟩ := hkeeps.exists_images
    exact ⟨fun r => image r.id, hperm, himage⟩

/-! ## Comparing in order -/

/-- Lists of links, each sorted, whether they tie place by place: how two bags
of links can be compared. -/
def tieInOrder (links others : List Link) : Bool :=
  let sorted := fun l : List Link => l.mergeSort fun a b => (a.order b).isLE
  ((sorted links).zip (sorted others)).all fun pair =>
    pair.1.order pair.2 == .eq

theorem all_zip_order_iff {links : List Link} : ∀ {others : List Link},
    links.length = others.length →
    (((links.zip others).all fun pair => pair.1.order pair.2 == .eq) = true ↔
      links = others) := by
  induction links with
  | nil =>
    intro others hlength
    obtain rfl := List.length_eq_zero_iff.1 hlength.symm
    exact iff_of_true rfl rfl
  | cons l rest ih =>
    intro others hlength
    cases others with
    | nil => cases hlength
    | cons m others =>
      rw [List.zip_cons_cons, List.all_cons, Bool.and_eq_true,
        ih (Nat.succ.inj hlength), beq_iff_eq,
        Std.LawfulEqCmp.compare_eq_iff_eq, List.cons.injEq]

/-- Links tie in order iff they are the same links, each as often: ties are
between identical links, so each list has only one order. -/
theorem tieInOrder_eq_isPerm {links others : List Link}
    (hlength : links.length = others.length) :
    tieInOrder links others = links.isPerm others := by
  rw [Bool.eq_iff_iff, List.isPerm_iff, tieInOrder]
  simp only
  rw [all_zip_order_iff (by simpa using hlength)]
  constructor
  · intro hsame
    have hleft := List.mergeSort_perm links fun a b => (a.order b).isLE
    rw [hsame] at hleft
    exact hleft.symm.trans (List.mergeSort_perm others _)
  · exact mergeSort_isLE_eq_of_perm

/-- To tell whether an exchange keeps the links, they may be sorted before and
after it. -/
theorem exchangeKeepsLinks_eq_sorted (g : Graph) (a b : NodeId) :
    exchangeKeepsLinks g a b = tieInOrder ((linksAt g a b).map Link.normal)
      ((linksAt g a b).map fun l => (l.rename (exchange a b)).normal) := by
  rw [tieInOrder_eq_isPerm (by rw [List.length_map, List.length_map]),
    exchangeKeepsLinks]

/-! ## The classes of a graph -/

/-- Whether a report says exactly which nodes and relations of a graph can stand
for each other. -/
structure Exact (g : Graph) (s : Symmetry) : Prop where
  nodes_together : ∀ m ∈ g.nodes.toList, ∀ n ∈ g.nodes.toList, m.id ≠ n.id →
    (Together s.nodeClasses m.id n.id ↔ m.traits.label = n.traits.label ∧
      Properties.same m.traits.properties n.traits.properties = true ∧
      ExchangesRelations g m.id n.id)
  relations_together : ∀ p ∈ g.relations.toList, ∀ q ∈ g.relations.toList,
    p.id ≠ q.id →
    (Together s.relationClasses p.id q.id ↔ Link.Mirrors id p.link q.link)
  nodeClasses : Listed s.nodeClasses g.nodeIds
  relationClasses : Listed s.relationClasses g.relationIds

/-- The symmetries of a graph are reported exactly: a class holds two elements
iff they can stand for each other. -/
theorem exact_symmetry (g : Graph) : Exact g g.symmetry where
  nodes_together m hm n hn hne := by
    rw [nodes_together_iff hm hn hne, interchangeable_iff, Traits.same_iff,
      exchangesRelations_iff, and_assoc]
  relations_together p hp q hq hne := by
    rw [relations_together_iff hp hq hne, Link.mirrors_iff,
      Link.rename_id, eq_comm]
  nodeClasses := listed_classes (interchangeable g) g.nodes
  relationClasses := listed_classes parallel g.relations

end Symmetry

end DrawnPattern
