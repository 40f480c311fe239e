import DrawnPattern.Graph.Basic
import DrawnPattern.Proofs.Graph.Link
import DrawnPattern.Proofs.Keyed
set_option autoImplicit false

/-!
# The relations at a node

In a consistent graph a node lists exactly the relations that touch it, so what
is incident to a node can be told from the relations alone
(`mem_incident_iff`), and so can what is adjacent to it (`mem_adjacent_iff`).
-/

namespace DrawnPattern.Graph

variable {g : Graph}

/-! ## Nodes and relations by number -/

theorem node?_eq_some_iff {id : NodeId} {n : Node} :
    g.node? id = some n ↔ n ∈ g.nodes.toList ∧ n.id = id :=
  Keyed.find?_eq_some_iff

theorem relation?_eq_some_iff {id : RelationId} {r : Relation} :
    g.relation? id = some r ↔ r ∈ g.relations.toList ∧ r.id = id :=
  Keyed.find?_eq_some_iff

theorem node?_id {n : Node} (hn : n ∈ g.nodes.toList) : g.node? n.id = some n :=
  node?_eq_some_iff.2 ⟨hn, rfl⟩

theorem relation?_id {r : Relation} (hr : r ∈ g.relations.toList) :
    g.relation? r.id = some r :=
  relation?_eq_some_iff.2 ⟨hr, rfl⟩

theorem mem_nodeIds {id : NodeId} :
    id ∈ g.nodeIds ↔ ∃ n ∈ g.nodes.toList, n.id = id :=
  Keyed.mem_keys

theorem mem_relationIds {id : RelationId} :
    id ∈ g.relationIds ↔ ∃ r ∈ g.relations.toList, r.id = id := Keyed.mem_keys

theorem first_mem (g : Graph) : g.first ∈ g.nodes.toList := List.head_mem _

/-- The ends of a relation are nodes. -/
theorem mem_nodeIds_of_touches {r : Relation} {id : NodeId}
    (hr : r ∈ g.relations.toList) (htouches : r.link.touches id = true) :
    id ∈ g.nodeIds := by
  rw [mem_nodeIds]
  rcases Link.touches_iff.1 htouches with rfl | rfl
  · exact g.consistent.source_mem r hr
  · exact g.consistent.target_mem r hr

/-! ## Incident relations -/

/-- What is incident to a node is what touches it: what a node lists and what
the relations say come to the same in a graph. -/
theorem mem_incident_iff {id : NodeId} {r : Relation} :
    r ∈ g.incident id ↔ r ∈ g.relations.toList ∧ r.link.touches id = true := by
  unfold incident
  constructor
  · intro h
    cases hnode : g.node? id with
    | none => simp [hnode] at h
    | some n =>
      simp only [hnode, List.mem_filterMap] at h
      obtain ⟨listed, hlisted, hfind⟩ := h
      obtain ⟨hn, rfl⟩ := node?_eq_some_iff.1 hnode
      obtain ⟨hr, rfl⟩ := relation?_eq_some_iff.1 hfind
      obtain ⟨same, hsame, hid, htouches⟩ :=
        (g.consistent.listed_iff n hn r.id).1 hlisted
      rw [Keyed.eq_of_key_eq hsame hr hid] at htouches
      exact ⟨hr, htouches⟩
  · rintro ⟨hr, htouches⟩
    obtain ⟨n, hn, rfl⟩ := mem_nodeIds.1 (mem_nodeIds_of_touches hr htouches)
    simp only [node?_id hn, List.mem_filterMap]
    exact ⟨r.id, (g.consistent.listed_iff n hn r.id).2 ⟨r, hr, rfl, htouches⟩,
      relation?_id hr⟩

/-- What is adjacent to a node lies across one of the relations, or is the node
itself if that is a loop. -/
theorem mem_adjacent_iff {a b : NodeId} :
    b ∈ g.adjacent a ↔ ∃ r ∈ g.relations.toList, r.link.other a = some b := by
  simp only [adjacent, List.mem_filterMap, mem_incident_iff]
  constructor
  · rintro ⟨r, ⟨hr, -⟩, hother⟩
    exact ⟨r, hr, hother⟩
  · rintro ⟨r, hr, hother⟩
    exact ⟨r, ⟨hr, Link.other_isSome_iff.1 ⟨b, hother⟩⟩, hother⟩

/-! ## Graphs with the same elements -/

/-- A graph is known from its relations and from the numbers and traits of
its nodes. -/
theorem ext_traits {g' : Graph}
    (hnodes : ∀ id traits,
      (∃ n ∈ g.nodes.toList, n.id = id ∧ n.traits = traits) ↔
      ∃ n ∈ g'.nodes.toList, n.id = id ∧ n.traits = traits)
    (hrelations : ∀ r, r ∈ g.relations.toList ↔ r ∈ g'.relations.toList) :
    g = g' := by
  have hsame : ∀ n ∈ g.nodes.toList, ∀ m ∈ g'.nodes.toList, m.id = n.id →
      m.traits = n.traits →
      m = n := by
    intro n hn m hm hid htraits
    have hlisted : m.relations = n.relations := by
      apply Keyed.ext_mem
      intro id
      rw [g'.consistent.listed_iff m hm, g.consistent.listed_iff n hn]
      simp only [hrelations, hid]
    cases m
    cases n
    simp_all
  refine Graph.ext (Keyed.ext_mem fun n => ⟨fun hn => ?_, fun hn => ?_⟩)
    (Keyed.ext_mem hrelations)
  · obtain ⟨m, hm, hid, htraits⟩ := (hnodes n.id n.traits).1 ⟨n, hn, rfl, rfl⟩
    exact hsame n hn m hm hid htraits ▸ hm
  · obtain ⟨m, hm, hid, htraits⟩ := (hnodes n.id n.traits).2 ⟨n, hn, rfl, rfl⟩
    exact (hsame m hm n hn hid.symm htraits.symm).symm ▸ hm

end DrawnPattern.Graph
