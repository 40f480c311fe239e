import DrawnPattern.Proofs.Match.Policies
import DrawnPattern.Proofs.Match.RoundTrip
set_option autoImplicit false

/-!
# Whether matches cover their graph

The graph of some matches is to be the union of what they bind, and none if
there are no matches (`Matches.Coherent`).  An assembler reads the elements of a
row and its bindings apart, and checks only that what is bound is listed.  So
matches are coherent iff the row kept the other half of the promise, that what
is listed is bound (`Matches.Assembler.coherent_iff`).  The row that answers a
query does (`Matches.Assembler.coherent_of_answers`); a row that lists a node
and no match is assembled all the same
(`Matches.Assembler.not_coherent_unmatched`).
-/

namespace DrawnPattern

variable {nodes : List StoredNode} {relationships : List StoredRelationship}
  {bindings : List Binding} {policy : Query.Policy} {row : Row} {m : Matches}

/-- Whether the graph of matches is the union of what they bind, so that it is
there iff something matched. -/
structure Matches.Coherent (m : Matches) : Prop where
  graph_none_iff : m.graph = none ↔ m.isEmpty = true
  nodes_bound : ∀ g, m.graph = some g → ∀ id ∈ g.nodeIds, ∃ b ∈ m.reported,
    id ∈ b.nodes
  relations_bound : ∀ g, m.graph = some g →
    ∀ id ∈ g.relationIds, ∃ b ∈ m.reported, id ∈ b.relations

/-- Whether every listed element is bound, so that a row returns nothing that no
match is about. -/
structure Binding.Cover (bindings : List Binding) (nodes : List StoredNode)
    (relationships : List StoredRelationship) : Prop where
  nodes_bound : ∀ n ∈ nodes, ∃ b ∈ bindings, n.id ∈ b.nodes
  relationships_bound : ∀ r ∈ relationships, ∃ b ∈ bindings, r.id ∈ b.relations
  /-- where nothing is listed there is no match, not even one that
  binds nothing -/
  eq_nil : nodes = [] → bindings = []

theorem Binding.cell_inj {b c : Binding} (h : b.cell = c.cell) : b = c := by
  simp only [cell, Cell.list.injEq, List.cons.injEq, and_true] at h
  have hinj : Function.Injective (List.map Cell.int) :=
    List.map_injective_iff.2 fun _ _ => Cell.int.inj
  cases b
  cases c
  rw [Binding.mk.injEq]
  exact ⟨hinj h.1, hinj h.2⟩

/-! ## What is kept binds the same -/

/-- Under every policy, each subgraph that was matched is kept. -/
theorem exists_kept_sameSubgraph {b : Binding} (hb : b ∈ bindings)
    (policy : Query.Policy) :
    ∃ c ∈ policy.kept bindings, c.SameSubgraph b := by
  have hself : b.SameSubgraph b := ⟨.refl _, .refl _⟩
  unfold Query.Policy.kept
  split
  · obtain ⟨i, hi⟩ := List.mem_iff_getElem?.1 hb
    by_cases hleads : Binding.LeadsAt bindings i
    · exact ⟨b, List.mem_map.2
        ⟨(b, i), Binding.mem_leading_iff.2 ⟨hi, hleads⟩, rfl⟩, hself⟩
    · obtain ⟨_, -, c, -, hc, -, hsame⟩ :=
        (Binding.deduplicated_unprecedented bindings).covered i b hi hleads
      exact ⟨c, hc, hsame⟩
  · exact ⟨b, hb, hself⟩

/-- What holds of a subgraph that was matched holds of one that is kept, so
policies do not show in what is covered. -/
theorem exists_kept_iff {P : Binding → Prop}
    (hP : ∀ b c, b.SameSubgraph c → (P b ↔ P c)) :
    (∃ b ∈ policy.kept bindings, P b) ↔ ∃ b ∈ bindings, P b := by
  constructor
  · rintro ⟨b, hb, h⟩
    exact ⟨b, mem_of_mem_kept hb, h⟩
  · rintro ⟨b, hb, h⟩
    obtain ⟨c, hc, hsame⟩ := exists_kept_sameSubgraph hb policy
    exact ⟨c, hc, (hP c b hsame).2 h⟩

theorem exists_kept_node_iff {id : NodeId} :
    (∃ b ∈ policy.kept bindings, id ∈ b.nodes) ↔ ∃ b ∈ bindings, id ∈ b.nodes :=
  exists_kept_iff fun _ _ hsame => hsame.1.mem_iff

theorem exists_kept_relation_iff {id : RelationId} :
    (∃ b ∈ policy.kept bindings, id ∈ b.relations) ↔
    ∃ b ∈ bindings, id ∈ b.relations :=
  exists_kept_iff fun _ _ hsame => hsame.2.mem_iff

theorem kept_eq_nil_iff : policy.kept bindings = [] ↔ bindings = [] := by
  have hexists : (∃ b ∈ policy.kept bindings, True) ↔ ∃ b ∈ bindings, True :=
    exists_kept_iff fun _ _ _ => Iff.rfl
  simp only [and_true] at hexists
  rw [List.eq_nil_iff_forall_not_mem, List.eq_nil_iff_forall_not_mem,
    ← not_exists, ← not_exists, hexists]

namespace Matches

/-! ## The elements of the graph -/

/-- The nodes of an assembled graph are the listed ones. -/
theorem Assembled.mem_nodeIds_iff
    (h : m.Assembled policy nodes relationships bindings) {g : Graph}
    (hg : m.graph = some g) {id : NodeId} :
    id ∈ g.nodeIds ↔ ∃ n ∈ nodes, n.id = id := by
  have hsome := congrArg Option.isSome (h.node?_eq g hg id)
  rw [Option.isSome_map, Option.isSome_map] at hsome
  have hfound : (nodes.find? (·.id == id)).isSome = true ↔
      ∃ n ∈ nodes, n.id = id := by
    simp only [List.find?_isSome, beq_iff_eq]
  rw [← hfound, ← hsome, Option.isSome_iff_exists]
  simp only [Graph.node?_eq_some_iff, Graph.mem_nodeIds]

/-- The relations of an assembled graph are the listed relationships. -/
theorem Assembled.mem_relationIds_iff
    (h : m.Assembled policy nodes relationships bindings) {g : Graph}
    (hg : m.graph = some g) {id : RelationId} :
    id ∈ g.relationIds ↔ ∃ r ∈ relationships, r.id = id := by
  have hsome := congrArg Option.isSome (h.relation?_eq g hg id)
  rw [Option.isSome_map] at hsome
  have hfound : (relationships.find? (·.id == id)).isSome = true ↔
      ∃ r ∈ relationships, r.id = id := by
    simp only [List.find?_isSome, beq_iff_eq]
  rw [← hfound, ← hsome, Option.isSome_iff_exists]
  simp only [Graph.relation?_eq_some_iff, Graph.mem_relationIds]

theorem Assembled.isEmpty_iff
    (h : m.Assembled policy nodes relationships bindings) :
    m.isEmpty = true ↔ bindings = [] := by
  rw [isEmpty, h.reported_eq, List.isEmpty_iff, kept_eq_nil_iff]

/-- Where nothing is listed, nothing has to be bound. -/
theorem Assembled.coherent_iff_of_nil (h : m.Assembled policy [] [] bindings) :
    m.Coherent ↔ bindings = [] := by
  have hgraph : m.graph = none := h.graph_none_iff.2 rfl
  constructor
  · intro hm
    exact h.isEmpty_iff.1 (hm.graph_none_iff.1 hgraph)
  · intro hnil
    refine ⟨iff_of_true hgraph (h.isEmpty_iff.2 hnil), fun g hg => ?_,
      fun g hg => ?_⟩
    · rw [hgraph] at hg
      cases hg
    · rw [hgraph] at hg
      cases hg

/-- Where there is a node, the listed elements are those of the graph. -/
theorem Assembled.coherent_iff_of_ne_nil
    (h : m.Assembled policy nodes relationships bindings)
    (hnodes : nodes ≠ []) : m.Coherent ↔
      (∀ n ∈ nodes, ∃ b ∈ bindings, n.id ∈ b.nodes) ∧
        ∀ r ∈ relationships, ∃ b ∈ bindings, r.id ∈ b.relations := by
  obtain ⟨g, hg⟩ := Option.ne_none_iff_exists'.1 fun hnone =>
    hnodes (h.graph_none_iff.1 hnone)
  have hnode : (∀ id ∈ g.nodeIds, ∃ b ∈ m.reported, id ∈ b.nodes) ↔
      ∀ n ∈ nodes, ∃ b ∈ bindings, n.id ∈ b.nodes := by
    simp only [h.mem_nodeIds_iff hg, h.reported_eq, exists_kept_node_iff,
      forall_exists_index, and_imp, forall_apply_eq_imp_iff₂]
  have hrelation : (∀ id ∈ g.relationIds, ∃ b ∈ m.reported, id ∈ b.relations) ↔
      ∀ r ∈ relationships, ∃ b ∈ bindings, r.id ∈ b.relations := by
    simp only [h.mem_relationIds_iff hg, h.reported_eq,
      exists_kept_relation_iff, forall_exists_index, and_imp,
      forall_apply_eq_imp_iff₂]
  rw [← hnode, ← hrelation]
  constructor
  · exact fun hm => ⟨hm.nodes_bound g hg, hm.relations_bound g hg⟩
  · rintro ⟨hnodesBound, hrelationsBound⟩
    refine ⟨iff_of_false (hg ▸ Option.some_ne_none g) fun hempty => ?_, ?_, ?_⟩
    · -- a listed node is bound, so there is a match
      obtain ⟨n, hn⟩ := List.exists_mem_of_ne_nil nodes hnodes
      obtain ⟨b, hb, -⟩ := hnode.1 hnodesBound n hn
      rw [h.isEmpty_iff.1 hempty] at hb
      exact List.not_mem_nil hb
    · rintro g' hg'
      rw [hg, Option.some.injEq] at hg'
      exact hg' ▸ hnodesBound
    · rintro g' hg'
      rw [hg, Option.some.injEq] at hg'
      exact hg' ▸ hrelationsBound

/-- What is assembled is coherent iff the bindings cover the elements; the other
direction of each part is what assembling checks. -/
theorem Assembled.coherent_iff_cover
    (h : m.Assembled policy nodes relationships bindings)
    (hends : EndsListed nodes relationships) :
    m.Coherent ↔ Binding.Cover bindings nodes relationships := by
  by_cases hnodes : nodes = []
  · subst hnodes
    obtain rfl := endsListed_nil_iff.1 hends
    rw [h.coherent_iff_of_nil]
    constructor
    · intro hnil
      exact ⟨fun n hn => absurd hn List.not_mem_nil,
        fun r hr => absurd hr List.not_mem_nil, fun _ => hnil⟩
    · exact fun hcover => hcover.eq_nil rfl
  · rw [h.coherent_iff_of_ne_nil hnodes]
    constructor
    · rintro ⟨hnodesBound, hrelationshipsBound⟩
      exact ⟨hnodesBound, hrelationshipsBound, fun hnil => absurd hnil hnodes⟩
    · exact fun hcover => ⟨hcover.nodes_bound, hcover.relationships_bound⟩

/-! ## What is assembled -/

namespace Assembler

variable {a : Assembler}

/-- Matches say what the columns of their row say. -/
theorem assembled_of_assemble (h : a.assemble row = .ok m)
    (hrow : row.WellFormed a.shape nodes relationships bindings) :
    m.Assembled a.policy nodes relationships bindings := by
  obtain ⟨m', hm', hassembled⟩ := assembled_of_wellFormed (a := a) hrow
  rw [h] at hm'
  cases hm'
  exact hassembled

/-- Matches are coherent iff the bindings of their row cover its elements; a row
that returns more is read without a fault all the same. -/
theorem coherent_iff (h : a.assemble row = .ok m) :
    m.Coherent ↔ ∃ nodes relationships bindings,
      row.WellFormed a.shape nodes relationships bindings ∧
        Binding.Cover bindings nodes relationships := by
  constructor
  · intro hm
    obtain ⟨nodes, relationships, bindings, hrow, -⟩ := assemble_eq_ok_iff.1 h
    have hassembled := assembled_of_assemble h hrow
    exact ⟨nodes, relationships, bindings, hrow,
      (hassembled.coherent_iff_cover hrow.ends).1 hm⟩
  · rintro ⟨nodes, relationships, bindings, hrow, hcover⟩
    exact ((assembled_of_assemble h hrow).coherent_iff_cover hrow.ends).2 hcover

/-- Two nodes and a relationship between them, matched both ways round. -/
theorem coherent_iff_both_ways : ∃ m,
    assemble { policy := .deduplicating }
        (Row.ofColumns [{ id := 101 }, { id := 102 }]
          [⟨55, 101, 102, "KNOWS", ∅⟩]
          [⟨[101, 102], [55]⟩, ⟨[102, 101], [55]⟩]) = .ok m ∧ m.Coherent := by
  have hrow :
      (Row.ofColumns [{ id := 101 }, { id := 102 }] [⟨55, 101, 102, "KNOWS", ∅⟩]
      [⟨[101, 102], [55]⟩, ⟨[102, 101], [55]⟩]).WellFormed none _ _ _ :=
    Row.wellFormed_ofColumns (by unfold EndsListed; decide)
      (fun _ _ _ h => nomatch h)
      (by unfold Binding.Listed; decide)
  obtain ⟨m, hm, -⟩ :=
    assembled_of_wellFormed (a := { policy := .deduplicating }) hrow
  exact ⟨m, hm,
    (coherent_iff hm).2 ⟨_, _, _, hrow, by decide, by decide, by decide⟩⟩

/-- A row with a node and no match has matches with a graph, though
nothing matched. -/
theorem not_coherent_unmatched : ∃ m,
    assemble {} (Row.ofColumns [{ id := 101, labels := ["Person"] }] [] []) =
    .ok m ∧
      m.isEmpty = true ∧ m.graph ≠ none ∧ ¬m.Coherent := by
  have hrow :
      (Row.ofColumns [{ id := 101, labels := ["Person"] }] [] []).WellFormed
        none _ _ _ :=
    Row.wellFormed_ofColumns (fun _ hr => nomatch hr) (fun _ _ _ h => nomatch h)
      fun _ hb => nomatch hb
  obtain ⟨m, hm, hassembled⟩ := assembled_of_wellFormed (a := {}) hrow
  have hempty : m.isEmpty = true := by
    rw [isEmpty, hassembled.reported_eq]
    rfl
  have hgraph : m.graph ≠ none := fun hnone =>
    List.cons_ne_nil _ _ (hassembled.graph_none_iff.1 hnone)
  exact ⟨m, hm, hempty, hgraph, fun hcoherent =>
    hgraph (hcoherent.graph_none_iff.2 hempty)⟩

/-! ## Rows that answer queries -/

/-- The bindings of a row that answers a query cover its elements: every element
was bound, and every match binds a node, since a query has one. -/
theorem cover_of_answers {shape : Option Query.Shape} {o : Query.Options}
    {g : Graph} {es : List Assignment}
    (hwell : row.WellFormed shape nodes relationships bindings)
    (hrow : row.Answers (Query.Shape.ofGraph o g) g es) :
    Binding.Cover bindings nodes relationships := by
  obtain ⟨listed, hlisted, -, hmem_nodes⟩ := hrow.nodes
  obtain ⟨listed', hlisted', -, hmem_relationships⟩ := hrow.relationships
  have hids := hrow.ids
  rw [hwell.nodes_eq, Option.some.injEq, Cell.list.injEq] at hlisted
  rw [hwell.relationships_eq, Option.some.injEq, Cell.list.injEq] at hlisted'
  rw [hwell.ids_eq, Option.some.injEq, Cell.list.injEq] at hids
  obtain rfl := List.map_injective_iff.2 (fun _ _ => Cell.node.inj) hlisted
  obtain rfl :=
    List.map_injective_iff.2 (fun _ _ => Cell.relationship.inj) hlisted'
  have hbound : ∀ e ∈ es, e.binding g ∈ bindings := by
    intro e he
    have hcell :=
      List.mem_map_of_mem (f := (·.idsCell (Query.Shape.ofGraph o g))) he
    rw [← hids] at hcell
    obtain ⟨b, hb, heq⟩ := List.mem_map.1 hcell
    rw [idsCell_eq_cell] at heq
    rw [← Binding.cell_inj heq]
    exact hb
  refine ⟨fun n hn => ?_, fun r hr => ?_, fun hnil => ?_⟩
  · obtain ⟨e, he, q, hq, rfl⟩ := (hmem_nodes n).1 hn
    exact ⟨_, hbound e he, List.mem_map_of_mem (Keyed.key_mem_keys hq)⟩
  · obtain ⟨e, he, q, hq, rfl⟩ := (hmem_relationships r).1 hr
    exact ⟨_, hbound e he, List.mem_map_of_mem (Keyed.key_mem_keys hq)⟩
  · have hes : es = [] := List.eq_nil_iff_forall_not_mem.2 fun e he => by
      have hmem := (hmem_nodes _).2 ⟨e, he, _, g.first_mem, rfl⟩
      rw [hnil] at hmem
      exact List.not_mem_nil hmem
    rw [hes, List.map_nil, List.map_eq_nil_iff] at hids
    exact hids

/-- The matches of a row that answers a query are coherent; only a row that
returns what no match is about has others. -/
theorem coherent_of_answers {c : Query.Compiler} {g : Graph}
    {es : List Assignment} (h : (ofQuery (c.compile g)).assemble row = .ok m)
    (hrow : row.Answers (c.compile g).shape g es) : m.Coherent := by
  obtain ⟨nodes, relationships, bindings, hwell, -⟩ := assemble_eq_ok_iff.1 h
  exact ((assembled_of_assemble h hwell).coherent_iff_cover hwell.ends).2
    (cover_of_answers hwell hrow)

end Assembler

end Matches

end DrawnPattern
