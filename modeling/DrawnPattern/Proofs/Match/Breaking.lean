import DrawnPattern.Proofs.Match.Embedding
import DrawnPattern.Proofs.Query.Predicate
import Mathlib.Algebra.BigOperators.Group.Finset.Basic
import Mathlib.Algebra.Order.Ring.Abs
import Mathlib.Algebra.Order.Ring.Int
import Mathlib.Tactic.Linarith
set_option autoImplicit false

/-!
# Breaking symmetries

Where symmetries are broken, a query asks that the ids bound to interchangeable
elements ascend.  This loses no subgraph (`subgraphs_breaking`): as long as two
neighbours of a class are bound the wrong way round, exchanging them gives
another match of the same subgraph, and the bound ids come nearer to the
numbers of the variables, which cannot go on for ever.  First the nodes are put
in order, which drags relations along, then the relations, which leaves the
nodes alone.
-/

namespace DrawnPattern

open Symmetry

/-! ## What breaking asks -/

/-- Whether the bound ids are in the order a predicate asks for.  That
properties are missing is no matter of order: it is part of what `Fit` says. -/
def Query.Predicate.Ordered (e : Assignment) : Query.Predicate → Prop
  | nodeLacks .. => True
  | relationLacks .. => True
  | nodesAscend lower upper => e.place lower ≤ e.place upper
  | relationsAscend lower upper => e.relationId lower < e.relationId upper

/-- The subgraphs whose matches a query reports under a policy. -/
def reportedSubgraphs (policy : Query.Policy) (fit : Fit) (g : Graph)
    (s : Store) : Set Binding :=
  {k | ∃ e : Assignment, e.Matches fit g s ∧
    (∀ p ∈ Query.predicates policy g, p.Ordered e) ∧
    (e.binding g).subgraph = k}

/-- The subgraphs that have a match at all, whether or not some query
reports it. -/
def matchedSubgraphs (fit : Fit) (g : Graph) (s : Store) : Set Binding :=
  {k | ∃ e : Assignment, e.Matches fit g s ∧ (e.binding g).subgraph = k}

/-! ## Neighbours -/

/-- Neighbours of a node class are interchangeable nodes in ascending order. -/
theorem of_neighbouring_nodes {g : Graph} {members : List NodeId} {a b : NodeId}
    (hmembers : members ∈ g.symmetry.nodeClasses)
    (hab : (a, b) ∈ Query.neighbouring members) :
    ∃ m ∈ g.nodes.toList, ∃ n ∈ g.nodes.toList, m.id = a ∧ n.id = b ∧ a < b ∧
      interchangeable g m n = true := by
  obtain ⟨ha, hb, hlt⟩ :=
    Query.mem_neighbouring (ascending_of_mem_nodeClasses hmembers) hab
  obtain ⟨m, hm, n, hn, hma, hnb, hinter⟩ :=
    exists_interchangeable hmembers ha hb hlt.ne
  exact ⟨m, hm, n, hn, hma, hnb, hlt, hinter⟩

/-- Neighbours of a relation class are parallel relations in ascending order. -/
theorem of_neighbouring_relations {g : Graph} {members : List RelationId}
    {a b : RelationId} (hmembers : members ∈ g.symmetry.relationClasses)
    (hab : (a, b) ∈ Query.neighbouring members) :
    ∃ p ∈ g.relations.toList, ∃ q ∈ g.relations.toList, p.id = a ∧
    q.id = b ∧ a < b ∧
      p.link.normal = q.link.normal := by
  obtain ⟨ha, hb, hlt⟩ :=
    Query.mem_neighbouring (ascending_of_mem_relationClasses hmembers) hab
  obtain ⟨p, hp, q, hq, hpa, hqb, hparallel⟩ :=
    exists_parallel hmembers ha hb hlt.ne
  exact ⟨p, hp, q, hq, hpa, hqb, hlt, hparallel⟩

/-! ## Relabelling by an exchange -/

/-- Exchanging interchangeable nodes is a relabelling: the links are kept, so
relations can follow the nodes. -/
theorem exists_relabels_exchange {g : Graph} {m n : Node}
    (hm : m ∈ g.nodes.toList) (hn : n ∈ g.nodes.toList)
    (h : interchangeable g m n = true) :
    ∃ σ, Relabels g (exchange m.id n.id) σ := by
  obtain ⟨hsame, hkeeps⟩ := interchangeable_iff.1 h
  obtain ⟨σ, hσ, hlink⟩ := hkeeps.exists_relations
  refine ⟨σ,
    map_exchange_perm (Keyed.keys_nodup g.nodes) (Keyed.key_mem_keys hm)
    (Keyed.key_mem_keys hn), hσ, ?_, hlink⟩
  intro k hk
  by_cases hkm : k.id = m.id
  · rw [Keyed.eq_of_key_eq hk hm hkm]
    exact ⟨n, hn, (exchange_left _ _).symm, .inr (Traits.same_symm hsame)⟩
  · by_cases hkn : k.id = n.id
    · rw [Keyed.eq_of_key_eq hk hn hkn]
      exact ⟨m, hm, (exchange_right _ _).symm, .inr hsame⟩
    · exact ⟨k, hk, (exchange_of_ne hkm hkn).symm, .inl rfl⟩

/-- Exchanging parallel relations is a relabelling that leaves the
nodes alone. -/
theorem relabels_exchange_parallel {g : Graph} {p q : Relation}
    (hp : p ∈ g.relations.toList) (hq : q ∈ g.relations.toList)
    (h : p.link.normal = q.link.normal) :
    Relabels g id (exchange p.id q.id) where
  nodes_perm := by
    rw [List.map_id]
  relations_perm :=
    map_exchange_perm (Keyed.keys_nodup g.relations) (Keyed.key_mem_keys hp)
    (Keyed.key_mem_keys hq)
  traits n hn := ⟨n, hn, rfl, .inl rfl⟩
  link r hr := by
    rw [Link.rename_id]
    by_cases hrp : r.id = p.id
    · rw [Keyed.eq_of_key_eq hr hp hrp]
      exact ⟨q, hq, (exchange_left _ _).symm, h.symm⟩
    · by_cases hrq : r.id = q.id
      · rw [Keyed.eq_of_key_eq hr hq hrq]
        exact ⟨p, hp, (exchange_right _ _).symm, h⟩
      · exact ⟨r, hr, (exchange_of_ne hrp hrq).symm, rfl⟩

/-! ## How far the bound ids are from ascending -/

/-- The sum of the squared distances between numbers and the ids bound to them.
Exchanging what is out of order lowers it, so that ends. -/
def displacement (numbers : Finset Int) (bound : Int → Int) : Nat :=
  ∑ n ∈ numbers, (n - bound n).natAbs ^ 2

/-- Exchanging two ids that descend brings all ids nearer to the numbers, which
is why the exchanges come to an end. -/
theorem displacement_exchange_lt {numbers : Finset Int} {bound : Int → Int}
    {a b : Int} (ha : a ∈ numbers) (hb : b ∈ numbers) (hab : a < b)
    (hdescend : bound b < bound a) :
    displacement numbers (fun n => bound (exchange a b n)) <
    displacement numbers bound := by
  have hb' : b ∈ numbers.erase a := Finset.mem_erase.2 ⟨hab.ne', hb⟩
  -- all but the two stay where they are
  have hrest : ∑ n ∈ (numbers.erase a).erase b,
      (n - bound (exchange a b n)).natAbs ^ 2 =
      ∑ n ∈ (numbers.erase a).erase b, (n - bound n).natAbs ^ 2 := by
    apply Finset.sum_congr rfl
    intro n hn
    simp only [Finset.mem_erase] at hn
    rw [exchange_of_ne hn.2.1 hn.1]
  have hpair : (a - bound b).natAbs ^ 2 + (b - bound a).natAbs ^ 2 <
      (a - bound a).natAbs ^ 2 + (b - bound b).natAbs ^ 2 := by
    zify
    simp only [sq_abs]
    nlinarith [mul_pos (sub_pos.2 hab) (sub_pos.2 hdescend)]
  have hsplit : ∀ f : Int → Nat, ∑ n ∈ numbers, f n =
      f a + (f b + ∑ n ∈ (numbers.erase a).erase b, f n) := by
    intro f
    rw [Finset.add_sum_erase _ f hb', Finset.add_sum_erase _ f ha]
  unfold displacement
  rw [hsplit, hsplit, hrest]
  simp only [exchange_left, exchange_right]
  omega

/-! ## Putting matches in order -/

variable {fit : Fit} {g : Graph} {s : Store}

/-- Every match can be turned into one of the same subgraph whose nodes ascend
in their classes. -/
theorem exists_nodes_ascending {e : Assignment} (h : e.Matches fit g s) :
    ∃ e' : Assignment, e'.Matches fit g s ∧
    (e'.binding g).subgraph = (e.binding g).subgraph ∧
      ∀ members ∈ g.symmetry.nodeClasses, ∀ pair ∈ Query.neighbouring members,
        e'.place pair.1 ≤ e'.place pair.2 := by
  -- on the displacement of the nodes
  induction hd :
    displacement g.nodeIds.toFinset e.place using Nat.strong_induction_on
    generalizing e with
  | _ d ih =>
    by_cases hdone : ∀ members ∈ g.symmetry.nodeClasses,
        ∀ pair ∈ Query.neighbouring members,
        e.place pair.1 ≤ e.place pair.2
    · exact ⟨e, h, rfl, hdone⟩
    · push Not at hdone
      obtain ⟨members, hmembers, ⟨a, b⟩, hpair, hdescend⟩ := hdone
      obtain ⟨m, hm, n, hn, rfl, rfl, hlt, hinter⟩ :=
        of_neighbouring_nodes hmembers hpair
      obtain ⟨σ, hre⟩ := exists_relabels_exchange hm hn hinter
      have hnearer :=
        displacement_exchange_lt (List.mem_toFinset.2 (Keyed.key_mem_keys hm))
        (List.mem_toFinset.2 (Keyed.key_mem_keys hn)) hlt hdescend
      obtain ⟨e', hmatches, hsame, hordered⟩ :=
        ih _ (hd ▸ hnearer) (h.relabel hre) rfl
      exact ⟨e', hmatches, hsame.trans (Assignment.subgraph_relabel hre),
        hordered⟩

/-- Exchanging parallel relations puts the relations of an embedding
in order. -/
theorem exists_relabels_relations_ascending {e : Assignment}
    (h : e.Embeds g s) :
    ∃ τ, Relabels g id τ ∧
      ∀ members ∈ g.symmetry.relationClasses,
      ∀ pair ∈ Query.neighbouring members,
        (e.relabel id τ).relationId pair.1 <
        (e.relabel id τ).relationId pair.2 := by
  -- on the displacement of the relations
  induction hd : displacement g.relationIds.toFinset e.relationId
    using Nat.strong_induction_on
    generalizing e with
  | _ d ih =>
    by_cases hdone : ∀ members ∈ g.symmetry.relationClasses,
        ∀ pair ∈ Query.neighbouring members,
        e.relationId pair.1 < e.relationId pair.2
    · exact ⟨id, .id g, hdone⟩
    · push Not at hdone
      obtain ⟨members, hmembers, ⟨a, b⟩, hpair, hle⟩ := hdone
      obtain ⟨p, hp, q, hq, rfl, rfl, hlt, hparallel⟩ :=
        of_neighbouring_relations hmembers hpair
      -- different relations are never bound to one id, so the ids descend
      have hne : e.relationId q.id ≠ e.relationId p.id := fun heq =>
        hlt.ne' (h.relationId_inj hq hp heq)
      have hre := relabels_exchange_parallel hp hq hparallel
      have hnearer :=
        displacement_exchange_lt (List.mem_toFinset.2 (Keyed.key_mem_keys hp))
        (List.mem_toFinset.2 (Keyed.key_mem_keys hq)) hlt
          (lt_of_le_of_ne hle hne)
      obtain ⟨τ, hτ, hordered⟩ := ih _ (hd ▸ hnearer) (h.relabel hre) rfl
      exact ⟨exchange p.id q.id ∘ τ, hre.comp hτ, hordered⟩

/-- Every match can be turned into one of the same subgraph with the same nodes
whose relations ascend in their classes. -/
theorem exists_relations_ascending {e : Assignment} (h : e.Matches fit g s) :
    ∃ e' : Assignment, e'.Matches fit g s ∧
    (e'.binding g).subgraph = (e.binding g).subgraph ∧
      e'.place = e.place ∧
      ∀ members ∈ g.symmetry.relationClasses,
      ∀ pair ∈ Query.neighbouring members,
        e'.relationId pair.1 < e'.relationId pair.2 := by
  obtain ⟨τ, hτ, hordered⟩ := exists_relabels_relations_ascending h.embeds
  exact ⟨e.relabel id τ, h.relabel hτ, Assignment.subgraph_relabel hτ,
    rfl, hordered⟩

/-- What is asked where symmetries are broken: that the ids bound to neighbours
of a class ascend, those of relations strictly. -/
theorem forall_predicates_breaking_ordered_iff {e : Assignment} :
    (∀ p ∈ Query.predicates .breaking g, p.Ordered e) ↔
      (∀ members ∈ g.symmetry.nodeClasses, ∀ pair ∈ Query.neighbouring members,
        e.place pair.1 ≤ e.place pair.2) ∧
      ∀ members ∈ g.symmetry.relationClasses,
        ∀ pair ∈ Query.neighbouring members,
        e.relationId pair.1 < e.relationId pair.2 := by
  constructor
  · intro h
    refine ⟨fun members hmembers pair hpair => ?_,
      fun members hmembers pair hpair => ?_⟩
    · exact h (.nodesAscend pair.1 pair.2)
        (Query.nodesAscend_mem_iff.2 ⟨rfl, members, hmembers, hpair⟩)
    · exact h (.relationsAscend pair.1 pair.2)
        (Query.relationsAscend_mem_iff.2 ⟨rfl, members, hmembers, hpair⟩)
  · rintro ⟨hnodes, hrelations⟩ p hp
    cases p with
    | nodeLacks node property => trivial
    | relationLacks relation property => trivial
    | nodesAscend lower upper =>
      obtain ⟨-, members, hmembers, hpair⟩ := Query.nodesAscend_mem_iff.1 hp
      exact hnodes members hmembers _ hpair
    | relationsAscend lower upper =>
      obtain ⟨-, members, hmembers, hpair⟩ := Query.relationsAscend_mem_iff.1 hp
      exact hrelations members hmembers _ hpair

theorem predicates_preserving_ordered (e : Assignment) :
    ∀ p ∈ Query.predicates .preserving g, p.Ordered e := by
  intro p hp
  cases p with
  | nodeLacks node property => trivial
  | relationLacks relation property => trivial
  | nodesAscend lower upper =>
    exact absurd (Query.nodesAscend_mem_iff.1 hp).1 (by decide)
  | relationsAscend lower upper =>
    exact absurd (Query.relationsAscend_mem_iff.1 hp).1 (by decide)

/-- Breaking symmetries loses no subgraph: the subgraphs reported are all that
have a match, which is what is reported when every match is preserved. -/
theorem subgraphs_breaking (fit : Fit) (g : Graph) (s : Store) :
    reportedSubgraphs .breaking fit g s = matchedSubgraphs fit g s ∧
      reportedSubgraphs .preserving fit g s = matchedSubgraphs fit g s := by
  constructor
  · ext k
    constructor
    · rintro ⟨e, hmatches, -, hk⟩
      exact ⟨e, hmatches, hk⟩
    · rintro ⟨e, hmatches, rfl⟩
      obtain ⟨e₁, hmatches₁, hsame₁, hnodes⟩ := exists_nodes_ascending hmatches
      obtain ⟨e₂, hmatches₂, hsame₂, hplace, hrelations⟩ :=
        exists_relations_ascending hmatches₁
      rw [← hplace] at hnodes
      exact ⟨e₂, hmatches₂,
        forall_predicates_breaking_ordered_iff.2 ⟨hnodes, hrelations⟩,
        hsame₂.trans hsame₁⟩
  · ext k
    constructor
    · rintro ⟨e, hmatches, -, hk⟩
      exact ⟨e, hmatches, hk⟩
    · rintro ⟨e, hmatches, hk⟩
      exact ⟨e, hmatches, predicates_preserving_ordered e, hk⟩

end DrawnPattern
