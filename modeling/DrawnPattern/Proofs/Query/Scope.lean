import DrawnPattern.Proofs.Query.Coverage
import DrawnPattern.Proofs.Query.Predicate
import DrawnPattern.Proofs.Query.Variable
import DrawnPattern.Proofs.Query.Written
set_option autoImplicit false

/-!
# Scope

The predicates and the projection of a query name variables, and its pattern has
to bind them.  A pattern is drawn from the first node along relations, so it
binds the variables of what a path joins to the first node
(`Drawn.mem_final_iff`) and no others.  So a query is well scoped iff its graph
is connected (`wellScoped_iff_isConnected`), which compiling does not ask for.
-/

namespace DrawnPattern.Query

variable {c : Compiler} {g : Graph}

/-! ## Variables by name -/

/-- The variables that a line binds, in text order. -/
def Line.names (l : Line) : List String :=
  l.start.name :: l.hops.flatMap fun h => [h.relation.name, h.node.name]

/-- The variables that the pattern of a query binds; elements that it never
meets have none among them. -/
def boundNames (c : Compiler) (g : Graph) : List String :=
  ((chains g).map (Chain.line c g)).flatMap Line.names

/-- The variables that a predicate names. -/
def Predicate.names (o : Options) : Predicate → List String
  | nodeLacks node _ => [o.nodeVariable node]
  | relationLacks relation _ => [o.relationVariable relation]
  | nodesAscend lower upper => [o.nodeVariable lower, o.nodeVariable upper]
  | relationsAscend lower upper =>
    [o.relationVariable lower, o.relationVariable upper]

/-- The variables that the projection to a shape names: all that the
shape lists. -/
def Shape.names (s : Shape) : List String :=
  s.nodes.map Prod.snd ++ s.relations.map Prod.snd

/-- Whether the pattern of a query binds every variable that its predicates and
its projection name, where these three are what the text consists of. -/
structure WellScoped (c : Compiler) (g : Graph) : Prop where
  written : Written c g
  predicates : ∀ p ∈ predicates c.options.policy g, ∀ v ∈ p.names c.options,
    v ∈ boundNames c g
  projection : ∀ v ∈ (c.compile g).shape.names, v ∈ boundNames c g

/-! ## What the pattern binds -/

theorem mem_boundNames {v : String} : v ∈ boundNames c g ↔
    (∃ id ∈ ((chains g).flatMap Chain.refs).map NodeRef.node,
      c.options.nodeVariable id = v) ∨
      ∃ s ∈ (chains g).flatMap Chain.steps,
      c.options.relationVariable s.relation.id = v := by
  have hline : ∀ chain : Chain, v ∈ (chain.line c g).names ↔
      (∃ ref ∈ chain.refs, c.options.nodeVariable ref.node = v) ∨
        ∃ s ∈ chain.steps, c.options.relationVariable s.relation.id = v := by
    intro chain
    simp only [Line.names, Chain.line, Chain.refs, Step.hop, relationSlot,
      NodeRef.slot_name, List.flatMap_map, List.mem_cons, List.mem_flatMap,
      List.mem_map, List.not_mem_nil, or_false]
    grind
  simp only [boundNames, List.flatMap_map, List.mem_flatMap, hline,
    List.mem_map]
  grind

/-- Steps lead to what a path joins to their start. -/
theorem Leads.node_inside {inside : NodeId → Prop}
    (closed : ∀ a, inside a → ∀ b ∈ g.adjacent a, inside b) {node : NodeId}
    {steps : List Step} (h : Leads c g node steps) (hnode : inside node) :
    ∀ s ∈ steps, inside s.node.node := by
  induction h with
  | stop node => simp
  | @go node step rest passes _ ih =>
    have hstep : inside step.node.node := closed node hnode _
      (Graph.mem_adjacent_iff.2
        ⟨step.relation, passes.relation_mem, passes.ends⟩)
    intro s hs
    rcases List.mem_cons.1 hs with rfl | hs
    · exact hstep
    · exact ih hstep s hs

/-- Chains that start where something was met stay within what a path
joins to it. -/
theorem StartsMet.refs_inside {inside : NodeId → Prop}
    (closed : ∀ a, inside a → ∀ b ∈ g.adjacent a, inside b)
    {chains : List Chain}
    (hleads : ∀ chain ∈ chains, Leads c g chain.start.node chain.steps) :
    ∀ {met : List NodeId}, StartsMet met chains → (∀ a ∈ met, inside a) →
      ∀ ref ∈ chains.flatMap Chain.refs, inside ref.node := by
  induction chains with
  | nil => simp
  | cons chain rest ih =>
    intro met h hmet
    have hstart : inside chain.start.node := hmet _ h.1
    have hrefs : ∀ ref ∈ chain.refs, inside ref.node := by
      intro ref href
      rcases List.mem_cons.1 href with rfl | href
      · exact hstart
      · obtain ⟨s, hs, rfl⟩ := List.mem_map.1 href
        exact (hleads chain List.mem_cons_self).node_inside closed hstart s hs
    intro ref href
    rw [List.flatMap_cons, List.mem_append] at href
    rcases href with href | href
    · exact hrefs ref href
    · refine ih (fun later hlater =>
        hleads later (List.mem_cons_of_mem _ hlater)) h.2.2 ?_ ref href
      intro a ha
      rcases List.mem_append.1 ha with ha | ha
      · exact hmet a ha
      · obtain ⟨ref', href', rfl⟩ := List.mem_map.1 ha
        exact hrefs ref' href'

/-- The nodes met are those that a path joins to the first one, so a pattern
stays within one piece of its graph. -/
theorem Drawn.mem_final_iff {left : List RelationId} {final : OrderedSet NodeId}
    (h : Drawn c g left final) {id : NodeId} : id ∈ final.toList ↔
    id ∈ g.reached := by
  refine ⟨fun hid => ?_, Graph.reached_subset h.first_mem h.closed id⟩
  have closed : ∀ a, a ∈ g.reached → ∀ b ∈ g.adjacent a, b ∈ g.reached :=
    fun _ ha _ hb => Graph.reached_closed ha hb
  obtain ⟨first, rest, hchains, hstart, hstarts⟩ := h.starts
  have hleads : ∀ chain ∈ first :: rest,
      Leads c g chain.start.node chain.steps := by
    rw [← hchains]
    exact h.leads
  have hfirst : ∀ ref ∈ first.refs, ref.node ∈ g.reached := by
    have hmem : first.start.node ∈ g.reached := by
      rw [hstart]
      exact g.mem_reached_first
    intro ref href
    rcases List.mem_cons.1 href with rfl | href
    · exact hmem
    · obtain ⟨s, hs, rfl⟩ := List.mem_map.1 href
      exact (hleads first List.mem_cons_self).node_inside closed hmem s hs
  have hrest : ∀ ref ∈ rest.flatMap Chain.refs, ref.node ∈ g.reached := by
    refine hstarts.refs_inside closed (fun chain hchain =>
      hleads chain (.tail _ hchain)) ?_
    intro a ha
    obtain ⟨ref, href, rfl⟩ := List.mem_map.1 ha
    exact hfirst ref href
  rw [h.mem_final, hchains, List.flatMap_cons] at hid
  obtain ⟨ref, href, rfl⟩ := List.mem_map.1 hid
  rcases List.mem_append.1 href with href | href
  · exact hfirst ref href
  · exact hrest ref href

/-- The node variables bound are those of the nodes that a path joins to the
first one. -/
theorem nodeVariable_mem_boundNames_iff (ho : c.options.Accepted)
    {id : NodeId} :
    c.options.nodeVariable id ∈ boundNames c g ↔ id ∈ g.reached := by
  obtain ⟨left, final, h⟩ := exists_drawn c g
  rw [mem_boundNames, ← h.mem_final_iff, h.mem_final]
  constructor
  · rintro (⟨met, hmet, hname⟩ | ⟨s, -, hname⟩)
    · rw [← variableName_inj hname]
      exact hmet
    · exact absurd hname.symm
        (ho.nodeVariable_ne_relationVariable id s.relation.id)
  · intro hid
    exact .inl ⟨id, hid, rfl⟩

/-- A connected graph has the variables of all its relations bound. -/
theorem relationVariable_mem_boundNames (hconnected : g.isConnected = true)
    {id : RelationId} (hid : id ∈ g.relationIds) :
    c.options.relationVariable id ∈ boundNames c g := by
  obtain ⟨left, final, h⟩ := exists_drawn c g
  obtain ⟨rfl, -⟩ := h.of_isConnected hconnected
  have hids := h.ids_perm.mem_iff.1 hid
  rw [List.append_nil] at hids
  obtain ⟨s, hs, rfl⟩ := List.mem_map.1 hids
  exact mem_boundNames.2 (.inr ⟨s, hs, rfl⟩)

/-! ## What predicates and projection name -/

theorem mem_names_shape {v : String} : v ∈ (c.compile g).shape.names ↔
    (∃ id ∈ g.nodeIds, c.options.nodeVariable id = v) ∨
      ∃ id ∈ g.relationIds, c.options.relationVariable id = v := by
  simp [Shape.names, Compiler.compile, Shape.ofGraph]

/-- Predicates name nodes and relations of the graph only. -/
theorem mem_names_of_mem_predicates {p : Predicate} {policy : Policy}
    (hp : p ∈ predicates policy g) {v : String} (hv : v ∈ p.names c.options) :
    (∃ id ∈ g.nodeIds, c.options.nodeVariable id = v) ∨
      ∃ id ∈ g.relationIds, c.options.relationVariable id = v := by
  cases p with
  | nodeLacks node property =>
    obtain ⟨n, hn, rfl, -⟩ := nodeLacks_mem_iff.1 hp
    exact .inl ⟨n.id, Keyed.key_mem_keys hn, (List.mem_singleton.1 hv).symm⟩
  | relationLacks relation property =>
    obtain ⟨r, hr, rfl, -⟩ := relationLacks_mem_iff.1 hp
    exact .inr ⟨r.id, Keyed.key_mem_keys hr, (List.mem_singleton.1 hv).symm⟩
  | nodesAscend lower upper =>
    obtain ⟨-, members, hmembers, hpair⟩ := nodesAscend_mem_iff.1 hp
    obtain ⟨hlower, hupper, -⟩ :=
      mem_neighbouring (Symmetry.ascending_of_mem_nodeClasses hmembers) hpair
    have hin := Symmetry.mem_nodeIds_of_mem_nodeClasses hmembers
    simp only [Predicate.names, List.mem_cons, List.not_mem_nil, or_false] at hv
    rcases hv with rfl | rfl
    · exact .inl ⟨lower, hin lower hlower, rfl⟩
    · exact .inl ⟨upper, hin upper hupper, rfl⟩
  | relationsAscend lower upper =>
    obtain ⟨-, members, hmembers, hpair⟩ := relationsAscend_mem_iff.1 hp
    obtain ⟨hlower, hupper, -⟩ :=
      mem_neighbouring (Symmetry.ascending_of_mem_relationClasses hmembers)
        hpair
    have hin := Symmetry.mem_relationIds_of_mem_relationClasses hmembers
    simp only [Predicate.names, List.mem_cons, List.not_mem_nil, or_false] at hv
    rcases hv with rfl | rfl
    · exact .inr ⟨lower, hin lower hlower, rfl⟩
    · exact .inr ⟨upper, hin upper hupper, rfl⟩

/-! ## Well-scoped queries -/

/-- A query is well scoped iff its graph is connected.  Where it is not, the
projection names the variable of a node that the pattern never meets. -/
theorem wellScoped_iff_isConnected (c : Compiler) (ho : c.options.Accepted)
    (g : Graph) :
    WellScoped c g ↔ g.isConnected = true := by
  constructor
  · intro h
    refine Graph.isConnected_of_forall fun id hid => ?_
    have hbound := h.projection _ (mem_names_shape.2 (.inl ⟨id, hid, rfl⟩))
    exact (nodeVariable_mem_boundNames_iff ho).1 hbound
  · intro hconnected
    have hall : ∀ v, ((∃ id ∈ g.nodeIds, c.options.nodeVariable id = v) ∨
        ∃ id ∈ g.relationIds, c.options.relationVariable id = v) →
        v ∈ boundNames c g := by
      rintro v (⟨id, hid, rfl⟩ | ⟨id, hid, rfl⟩)
      · exact (nodeVariable_mem_boundNames_iff ho).2
          (Graph.mem_reached_of_isConnected hconnected hid)
      · exact relationVariable_mem_boundNames hconnected hid
    exact ⟨written c g,
      fun p hp v hv => hall v (mem_names_of_mem_predicates hp hv),
      fun v hv => hall v (mem_names_shape.1 hv)⟩

/-- Two nodes joined by a relation, under the default options. -/
theorem wellScoped_iff_isConnected_joined :
    ∃ g, Graph.ofLists [{ id := 0 }, { id := 1 }] [⟨0, ⟨0, 1, false, {}⟩⟩]
    .required = .ok g ∧
      ({} : Compiler).options.Accepted ∧ WellScoped {} g := by
  have ho : ({} : Compiler).options.Accepted :=
    ⟨by decide, by decide, by decide⟩
  refine Exists.imp (fun g hg => ⟨hg, ho, ?_⟩) (Graph.exists_of_isOk ?_)
  · exact (wellScoped_iff_isConnected {} ho g).2
      (Graph.isConnected_of_ofLists hg)
  · decide

/-- Two nodes without a relation: the projection names the second one, which is
not bound. -/
theorem not_wellScoped_apart :
    ∃ g, Graph.ofLists [{ id := 0 }, { id := 1 }] [] .unchecked = .ok g ∧
      Written {} g ∧
      "n1" ∈ (({} : Compiler).compile g).shape.names ∧ "n1" ∉ boundNames {} g ∧
      ¬WellScoped {} g := by
  have ho : ({} : Compiler).options.Accepted :=
    ⟨by decide, by decide, by decide⟩
  obtain ⟨g, hg, hids⟩ := Graph.exists_of_any
    (x := Graph.ofLists [{ id := 0 }, { id := 1 }] [] .unchecked)
    (P := fun g => decide (1 ∈ g.nodeIds ∧ 1 ∉ g.reached)) (by decide)
  obtain ⟨hnode, hreached⟩ := of_decide_eq_true hids
  have hnamed : "n1" ∈ (({} : Compiler).compile g).shape.names :=
    mem_names_shape.2 (.inl ⟨1, hnode, by decide⟩)
  have hfree : ({} : Compiler).options.nodeVariable 1 ∉ boundNames {} g :=
    fun hbound => hreached ((nodeVariable_mem_boundNames_iff ho).1 hbound)
  exact ⟨g, hg, written {} g, hnamed, hfree,
    fun h => hfree (h.projection _ hnamed)⟩

end DrawnPattern.Query
