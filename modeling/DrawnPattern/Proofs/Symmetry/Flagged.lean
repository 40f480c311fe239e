import DrawnPattern.Proofs.Graph.Queries
import DrawnPattern.Proofs.Graph.Reach
import DrawnPattern.Proofs.Symmetry.Exactness
import Mathlib.Data.Prod.Lex
set_option autoImplicit false

/-!
# The flagged pairs are exact

Two nodes are flagged iff they resemble each other, some third node has a
relation to each of them, and they cannot stand for each other
(`flagged_exactly`).  Resemblance is symmetric, so it does not matter which of
the two is asked (`Traits.Reconcilable.symm`).  The pairs are told here by going
through all pairs of nodes; going through the neighbours of one node after the
other and leaving out what was found before yields the same list
(`gatheredPairs_eq`).
-/

namespace DrawnPattern

/-! ## Resemblance -/

/-- Whether no trait of one element contradicts one of the other: labels are the
same if both are there, and so are the values of a property that both have. -/
structure Traits.Reconcilable (a b : Traits) : Prop where
  label : ∀ l ∈ a.label, ∀ m ∈ b.label, l = m
  property : ∀ name v w, Map.get? a.properties name = some v →
    Map.get? b.properties name = some w → v.same w = true

theorem Traits.Reconcilable.symm {a b : Traits} (h : a.Reconcilable b) :
    b.Reconcilable a where
  label l hl m hm := (h.label m hm l hl).symm
  property name v w hv hw := Value.same_symm (h.property name w v hw hv)

theorem Traits.labelsFit_iff {a b : Option String} :
    labelsFit a b = true ↔ ∀ l ∈ a, ∀ m ∈ b, l = m := by
  cases a <;> cases b <;> simp [labelsFit]

theorem Traits.compatible_iff {a b : Traits} : a.compatible b = true ↔
    a.Reconcilable b := by
  rw [compatible, Bool.and_eq_true, labelsFit_iff, List.all_eq_true]
  constructor
  · rintro ⟨hlabel, hproperties⟩
    refine ⟨hlabel, fun name v w hv hw => ?_⟩
    have hvalue := hproperties (name, v) (Map.get?_eq_some_iff.1 hv)
    simp only [hw] at hvalue
    exact Value.same_symm hvalue
  · intro h
    refine ⟨h.label, fun (name, v) hentry => ?_⟩
    cases hw : Map.get? b.properties name with
    | none => simp only [hw]
    | some w =>
      simp only [hw]
      exact Value.same_symm
        (h.property name v w (Map.get?_eq_some_iff.2 hentry) hw)

/-- It does not matter whose properties are gone through, as a property that
only one side has is no contradiction. -/
theorem Traits.compatible_comm (a b : Traits) :
    a.compatible b = b.compatible a := by
  rw [Bool.eq_iff_iff, compatible_iff, compatible_iff]
  exact ⟨Reconcilable.symm, Reconcilable.symm⟩

/-- Whether two different nodes may stand for one element, told by what their
traits ask for. -/
structure Node.Resembles (m n : Node) : Prop where
  id_ne : m.id ≠ n.id
  traits : m.traits.Reconcilable n.traits

theorem Node.resembles_iff {m n : Node} : m.resembles n = true ↔
    m.Resembles n := by
  rw [resembles, Bool.and_eq_true, bne_iff_ne, Traits.compatible_iff]
  exact ⟨fun h => ⟨h.1, h.2⟩, fun h => ⟨h.id_ne, h.traits⟩⟩

/-- A node resembles another one iff it is resembled by it. -/
theorem Node.resembles_comm (m n : Node) : m.resembles n = n.resembles m := by
  rw [resembles, resembles, bne_comm, Traits.compatible_comm]

namespace Symmetry

/-! ## Pairs of a list -/

section Pairs

variable {α : Type} {l : List α} {a b : α} {R : α → α → Prop}

theorem mem_of_mem_pairs (h : (a, b) ∈ pairs l) : a ∈ l ∧ b ∈ l := by
  induction l with
  | nil => exact absurd h List.not_mem_nil
  | cons x rest ih =>
    rw [pairs, List.mem_append, List.mem_map] at h
    rcases h with ⟨y, hy, heq⟩ | hrest
    · obtain ⟨rfl, rfl⟩ := Prod.mk.inj heq
      exact ⟨List.mem_cons_self, List.mem_cons_of_mem _ hy⟩
    · obtain ⟨ha, hb⟩ := ih hrest
      exact ⟨List.mem_cons_of_mem _ ha, List.mem_cons_of_mem _ hb⟩

/-- The pairs of an ordered list are those of its items in this order. -/
theorem mem_pairs_iff (hasymm : ∀ x y, R x y → ¬R y x) (h : l.Pairwise R) :
    (a, b) ∈ pairs l ↔ a ∈ l ∧ b ∈ l ∧ R a b := by
  induction l with
  | nil => simp [pairs]
  | cons x rest ih =>
    obtain ⟨hx, hrest⟩ := List.pairwise_cons.1 h
    rw [pairs, List.mem_append, ih hrest, List.mem_map]
    constructor
    · rintro (⟨y, hy, heq⟩ | ⟨ha, hb, hR⟩)
      · obtain ⟨rfl, rfl⟩ := Prod.mk.inj heq
        exact ⟨List.mem_cons_self, List.mem_cons_of_mem _ hy, hx y hy⟩
      · exact ⟨List.mem_cons_of_mem _ ha, List.mem_cons_of_mem _ hb, hR⟩
    · rintro ⟨ha, hb, hR⟩
      rcases List.mem_cons.1 ha with rfl | harest
      · rcases List.mem_cons.1 hb with rfl | hbrest
        · exact absurd hR (hasymm _ _ hR)
        · exact .inl ⟨b, hbrest, rfl⟩
      · rcases List.mem_cons.1 hb with rfl | hbrest
        · exact absurd (hx a harest) (hasymm _ _ hR)
        · exact .inr ⟨harest, hbrest, hR⟩

/-- The pairs of an ordered list come in lexicographic order, so nothing has to
be sorted afterwards. -/
theorem pairs_pairwise (h : l.Pairwise R) :
    (pairs l).Pairwise (Prod.Lex R R) := by
  induction l with
  | nil => exact .nil
  | cons x rest ih =>
    obtain ⟨hx, hrest⟩ := List.pairwise_cons.1 h
    rw [pairs, List.pairwise_append]
    refine ⟨List.pairwise_map.2 (hrest.imp fun hR => .right x hR), ih hrest, ?_⟩
    intro p hp q hq
    obtain ⟨y, -, rfl⟩ := List.mem_map.1 hp
    obtain ⟨c, d⟩ := q
    exact .left _ _ (hx c (mem_of_mem_pairs hq).1)

end Pairs

/-! ## Flagged pairs -/

variable {g : Graph} {classes : List (List NodeId)} {a b : NodeId}

theorem inOneClass_iff : inOneClass classes a b = true ↔
    Together classes a b := by
  simp [inOneClass, Together]

/-- Whether two numbers are those of nodes that resemble each other and share
no class. -/
def Doubtful (g : Graph) (classes : List (List NodeId)) (a b : NodeId) : Prop :=
  ∃ m ∈ g.nodes.toList, ∃ n ∈ g.nodes.toList, m.id = a ∧ n.id = b ∧
    m.Resembles n ∧
    ¬Together classes a b

/-- Whether some node is a neighbour of both.  It is a third one, since no node
is a neighbour of itself. -/
def Siblings (g : Graph) (a b : NodeId) : Prop :=
  ∃ c, a ∈ (g.neighbors c).toList ∧ b ∈ (g.neighbors c).toList

theorem mem_neighbors_comm : a ∈ (g.neighbors b).toList ↔
    b ∈ (g.neighbors a).toList := by
  simp only [Graph.mem_neighbors_iff, ne_comm (a := a),
    Link.joins_comm (a := a)]

theorem doubtful_iff {m n : Node} (hm : m ∈ g.nodes.toList)
    (hn : n ∈ g.nodes.toList) :
    Doubtful g classes m.id n.id ↔
      (m.resembles n && !inOneClass classes m.id n.id) = true := by
  rw [Bool.and_eq_true, Bool.not_eq_true', ← Bool.not_eq_true, inOneClass_iff,
    Node.resembles_iff]
  constructor
  · rintro ⟨m', hm', n', hn', hmid, hnid, hresembles, hapart⟩
    rw [Keyed.eq_of_key_eq hm' hm hmid,
      Keyed.eq_of_key_eq hn' hn hnid] at hresembles
    exact ⟨hresembles, hapart⟩
  · rintro ⟨hresembles, hapart⟩
    exact ⟨m, hm, n, hn, rfl, rfl, hresembles, hapart⟩

/-- All nodes with their neighbours. -/
theorem surroundings_ascending (g : Graph) :
    (g.nodes.toList.map fun n => (n, (g.neighbors n.id).toList)).Pairwise
      fun x y => x.1.id < y.1.id :=
  List.pairwise_map.2 (g.nodes.ascending.imp Std.compare_eq_lt.1)

theorem flaggedPairs_ascending (g : Graph) (classes : List (List NodeId)) :
    (flaggedPairs g classes).Pairwise fun p q => toLex p < toLex q := by
  refine List.pairwise_map.2
    (((pairs_pairwise (surroundings_ascending g)).filter _).imp ?_)
  intro p q hlex
  rw [Prod.lex_def] at hlex
  rw [Prod.Lex.toLex_lt_toLex]
  exact hlex.imp id fun ⟨hfirst, hsecond⟩ =>
    ⟨congrArg (fun x => x.1.id) hfirst, hsecond⟩

theorem flaggedPairs_nodup (g : Graph) (classes : List (List NodeId)) :
    (flaggedPairs g classes).Nodup :=
  (flaggedPairs_ascending g classes).imp fun hlt heq =>
    hlt.ne (congrArg toLex heq)

theorem mem_flaggedPairs_iff :
    (a, b) ∈ flaggedPairs g classes ↔ a < b ∧ Siblings g a b ∧
    Doubtful g classes a b := by
  have hpairs : ∀ x y,
      (x, y) ∈ pairs (g.nodes.toList.map
        fun n => (n, (g.neighbors n.id).toList)) ↔ _ := fun x y =>
    mem_pairs_iff (fun _ _ => Int.lt_asymm) (surroundings_ascending g)
  simp only [flaggedPairs, List.mem_map, List.mem_filter, Prod.exists, hpairs,
    Prod.mk.injEq]
  constructor
  · rintro ⟨m, _, n, _, ⟨⟨⟨m, hm, rfl, rfl⟩, ⟨n, hn, rfl, rfl⟩, hlt⟩, htest⟩,
      rfl, rfl⟩
    obtain ⟨hdoubtful, hshared⟩ := Bool.and_eq_true_iff.1 htest
    obtain ⟨c, hmc, hnc⟩ := List.any_eq_true.1 hshared
    exact ⟨hlt,
      ⟨c, mem_neighbors_comm.1 hmc,
        mem_neighbors_comm.1 (List.contains_iff_mem.1 hnc)⟩,
      (doubtful_iff hm hn).2 hdoubtful⟩
  · rintro ⟨hlt, ⟨c, ha, hb⟩, hdoubtful⟩
    obtain ⟨m, hm, n, hn, rfl, rfl, -⟩ := id hdoubtful
    refine ⟨m, _, n, _, ⟨⟨⟨m, hm, rfl, rfl⟩, ⟨n, hn, rfl, rfl⟩, hlt⟩, ?_⟩,
      rfl, rfl⟩
    rw [Bool.and_eq_true, ← doubtful_iff hm hn, List.any_eq_true]
    exact ⟨hdoubtful, c, mem_neighbors_comm.1 ha,
      List.contains_iff_mem.2 (mem_neighbors_comm.1 hb)⟩

/-! ## Gathering pairs around one node after the other -/

/-- The doubtful pairs of neighbours of a node, which is how they come up when
nodes are looked around from in turn. -/
def pairsAround (g : Graph) (classes : List (List NodeId)) (hub : NodeId) :
    List (NodeId × NodeId) :=
  ((pairs ((g.neighbors hub).toList.filterMap g.node?)).filter fun (m, n) =>
    m.resembles n && !inOneClass classes m.id n.id).map fun (m, n) =>
      (m.id, n.id)

/-- The pairs around each node in turn without those that were there before,
in order. -/
def gatheredPairs (g : Graph) (classes : List (List NodeId)) :
    List (NodeId × NodeId) :=
  ((g.nodeIds.flatMap (pairsAround g classes)).eraseDups).mergeSort
    fun p q => decide (toLex p ≤ toLex q)

theorem mem_pairsAround_iff {hub : NodeId} :
    (a, b) ∈ pairsAround g classes hub ↔
    a < b ∧ (a ∈ (g.neighbors hub).toList ∧ b ∈ (g.neighbors hub).toList) ∧
      Doubtful g classes a b := by
  have hascending : ((g.neighbors hub).toList.filterMap g.node?).Pairwise
      fun m n => m.id < n.id := by
    refine (g.neighbors hub).ascending.filterMap _ fun i j hij m hm n hn => ?_
    obtain ⟨-, rfl⟩ := Graph.node?_eq_some_iff.1 hm
    obtain ⟨-, rfl⟩ := Graph.node?_eq_some_iff.1 hn
    exact Std.compare_eq_lt.1 hij
  have hpairs : ∀ m n,
      (m, n) ∈ pairs ((g.neighbors hub).toList.filterMap g.node?) ↔ _ :=
    fun m n => mem_pairs_iff (fun _ _ => Int.lt_asymm) hascending
  simp only [pairsAround, List.mem_map, List.mem_filter, Prod.exists, hpairs,
    Prod.mk.injEq, List.mem_filterMap, Graph.node?_eq_some_iff]
  constructor
  · rintro ⟨m, n, ⟨⟨⟨_, hmc, hm, rfl⟩, ⟨_, hnc, hn, rfl⟩, hlt⟩, hdoubtful⟩,
      rfl, rfl⟩
    exact ⟨hlt, ⟨hmc, hnc⟩, (doubtful_iff hm hn).2 hdoubtful⟩
  · rintro ⟨hlt, ⟨ha, hb⟩, hdoubtful⟩
    obtain ⟨m, hm, n, hn, rfl, rfl, -⟩ := id hdoubtful
    exact ⟨m, n,
      ⟨⟨⟨_, ha, hm, rfl⟩, ⟨_, hb, hn, rfl⟩, hlt⟩,
        (doubtful_iff hm hn).1 hdoubtful⟩, rfl, rfl⟩

/-- What is found around some node is flagged, and what is flagged is found
around some node. -/
theorem mem_flatMap_pairsAround_iff {p : NodeId × NodeId} :
    p ∈ g.nodeIds.flatMap (pairsAround g classes) ↔
    p ∈ flaggedPairs g classes := by
  obtain ⟨a, b⟩ := p
  simp only [List.mem_flatMap, mem_pairsAround_iff, mem_flaggedPairs_iff,
    Siblings]
  constructor
  · rintro ⟨c, -, hlt, hboth, hdoubtful⟩
    exact ⟨hlt, ⟨c, hboth⟩, hdoubtful⟩
  · rintro ⟨hlt, ⟨c, hboth⟩, hdoubtful⟩
    obtain ⟨-, r, hr, hjoins⟩ := Graph.mem_neighbors_iff.1 hboth.1
    exact ⟨c, Graph.mem_nodeIds_of_touches hr (Link.touches_of_joins hjoins),
      hlt, hboth, hdoubtful⟩

/-- Gathering the pairs around one node after the other yields the
flagged pairs. -/
theorem gatheredPairs_eq (g : Graph) (classes : List (List NodeId)) :
    gatheredPairs g classes = flaggedPairs g classes := by
  have hperm : (g.nodeIds.flatMap (pairsAround g classes)).eraseDups.Perm
      (flaggedPairs g classes) := by
    refine (List.perm_ext_iff_of_nodup (nodup_eraseDups _)
      (flaggedPairs_nodup g classes)).2
      fun p => ?_
    rw [List.mem_eraseDups, mem_flatMap_pairsAround_iff]
  have hsorted : (flaggedPairs g classes).Pairwise
      fun p q => decide (toLex p ≤ toLex q) = true :=
    (flaggedPairs_ascending g classes).imp fun hlt => decide_eq_true hlt.le
  calc gatheredPairs g classes
      = (flaggedPairs g classes).mergeSort fun p q =>
          decide (toLex p ≤ toLex q) :=
        mergeSort_eq_of_perm
          (fun _ _ _ hpq hqr =>
            decide_eq_true
              ((of_decide_eq_true hpq).trans (of_decide_eq_true hqr)))
          (fun p q => by
            simpa only [Bool.or_eq_true, decide_eq_true_iff] using le_total _ _)
          (fun _ _ hpq hqp =>
            toLex.injective
              ((of_decide_eq_true hpq).antisymm (of_decide_eq_true hqp))) hperm
    _ = flaggedPairs g classes := List.mergeSort_of_pairwise hsorted

/-! ## What is flagged -/

/-- Whether two nodes can stand for each other: they carry the same, and
exchanging them is a symmetry of the graph. -/
structure Interchangeable (g : Graph) (m n : Node) : Prop where
  label : m.traits.label = n.traits.label
  properties : Properties.same m.traits.properties n.traits.properties = true
  exchanges : ExchangesRelations g m.id n.id

theorem interchangeable_iff_exchanges {m n : Node} :
    interchangeable g m n = true ↔ Interchangeable g m n := by
  rw [interchangeable_iff, Traits.same_iff, ← exchangesRelations_iff]
  exact ⟨fun h => ⟨h.1.1, h.1.2, h.2⟩,
    fun h => ⟨⟨h.label, h.properties⟩, h.exchanges⟩⟩

/-- Whether pairs are exactly those of resembling nodes that have a relation to
some third node each and cannot stand for each other. -/
structure FlaggedExactly (g : Graph) (flagged : List (NodeId × NodeId)) :
    Prop where
  /-- by the first node, then by the second, each pair once -/
  ascending : flagged.Pairwise fun p q => toLex p < toLex q
  mem_iff : ∀ a b, (a, b) ∈ flagged ↔ a < b ∧
    (∃ c, c ≠ a ∧ c ≠ b ∧ (∃ r ∈ g.relations.toList, r.link.Joins c a) ∧
      ∃ r ∈ g.relations.toList, r.link.Joins c b) ∧
    ∃ m ∈ g.nodes.toList, ∃ n ∈ g.nodes.toList, m.id = a ∧ n.id = b ∧
      m.Resembles n ∧ ¬Interchangeable g m n
  /-- it does not matter which of two nodes is asked -/
  resembles_comm : ∀ m n : Node, m.resembles n = n.resembles m
  /-- going around one node after the other finds the same -/
  gathered : gatheredPairs g g.symmetry.nodeClasses = flagged

theorem siblings_iff : Siblings g a b ↔ ∃ c, c ≠ a ∧ c ≠ b ∧
    (∃ r ∈ g.relations.toList, r.link.Joins c a) ∧
      ∃ r ∈ g.relations.toList, r.link.Joins c b := by
  simp only [Siblings, Graph.mem_neighbors_iff]
  exact exists_congr fun c => by tauto

/-- Between different nodes, the classes of a graph tell who can stand
for whom. -/
theorem doubtful_nodeClasses_iff (hne : a ≠ b) :
    Doubtful g g.symmetry.nodeClasses a b ↔
    ∃ m ∈ g.nodes.toList, ∃ n ∈ g.nodes.toList, m.id = a ∧ n.id = b ∧
      m.Resembles n ∧ ¬Interchangeable g m n := by
  have happart : ∀ m ∈ g.nodes.toList, ∀ n ∈ g.nodes.toList,
      m.id = a → n.id = b →
      (Together g.symmetry.nodeClasses a b ↔ Interchangeable g m n) := by
    rintro m hm n hn rfl rfl
    rw [nodes_together_iff hm hn hne, interchangeable_iff_exchanges]
  constructor
  · rintro ⟨m, hm, n, hn, hmid, hnid, hresembles, hnot⟩
    rw [happart m hm n hn hmid hnid] at hnot
    exact ⟨m, hm, n, hn, hmid, hnid, hresembles, hnot⟩
  · rintro ⟨m, hm, n, hn, hmid, hnid, hresembles, hnot⟩
    rw [← happart m hm n hn hmid hnid] at hnot
    exact ⟨m, hm, n, hn, hmid, hnid, hresembles, hnot⟩

/-- The flagged pairs of every graph are exact: a pair is flagged iff it is
doubtful and a third node is a neighbour of both. -/
theorem flagged_exactly (g : Graph) : FlaggedExactly g g.symmetry.flagged where
  ascending := flaggedPairs_ascending g g.symmetry.nodeClasses
  mem_iff a b := by
    have hflagged : (a, b) ∈ g.symmetry.flagged ↔
        a < b ∧ Siblings g a b ∧ Doubtful g g.symmetry.nodeClasses a b :=
      mem_flaggedPairs_iff
    rw [hflagged, siblings_iff]
    exact and_congr_right fun hlt => and_congr_right fun _ =>
      doubtful_nodeClasses_iff hlt.ne
  resembles_comm := Node.resembles_comm
  gathered := gatheredPairs_eq g g.symmetry.nodeClasses

end Symmetry

end DrawnPattern
