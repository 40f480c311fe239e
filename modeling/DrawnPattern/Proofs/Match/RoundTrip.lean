import DrawnPattern.Proofs.Match.Assembly
import DrawnPattern.Proofs.Match.Embedding
import Mathlib.Data.List.Dedup
set_option autoImplicit false

/-!
# From matches to a row and back

A database answers a query with one row: the distinct bound elements, and for
each embedding the ids bound to the variables (`Row.Answers`).  The assembler of
the query reads such a row without a fault, and what it makes of it is the bound
part of the store and the embeddings one by one (`assemble_answers`).
-/

namespace DrawnPattern

/-! ## Honest rows -/

/-- The ids that an assignment binds, as a cell: those of the node variables and
those of the relation variables, in the order of the shape. -/
def Assignment.idsCell (shape : Query.Shape) (e : Assignment) : Cell :=
  .list [.list (shape.nodes.map fun v => .int (e.place v.1)),
    .list (shape.relations.map fun v => .int (e.relationId v.1))]

/-- Whether a row reports some assignments of a graph: every bound element once,
in whatever order, and for each assignment its ids. -/
structure Row.Answers (row : Row) (shape : Query.Shape) (g : Graph)
    (es : List Assignment) :
    Prop where
  nodes : ∃ nodes : List StoredNode,
    Map.get? row Query.nodesColumn = some (.list (nodes.map .node)) ∧
    nodes.Nodup ∧
      ∀ n, n ∈ nodes ↔ ∃ e ∈ es, ∃ q ∈ g.nodes.toList, e.node q.id = n
  relationships : ∃ relationships : List StoredRelationship,
    Map.get? row Query.relationshipsColumn =
    some (.list (relationships.map .relationship)) ∧
      relationships.Nodup ∧
      ∀ r, r ∈ relationships ↔ ∃ e ∈ es, ∃ q ∈ g.relations.toList,
      e.relation q.id = r
  ids : Map.get? row Query.idsColumn = some (.list (es.map (·.idsCell shape)))

/-! ## What is reported -/

/-- The id that a binding lists at the place of a node, as the shape of the
query has it. -/
def Binding.node? (shape : Query.Shape) (b : Binding) (id : NodeId) :
    Option NodeId :=
  ((shape.nodes.map Prod.fst).zip b.nodes).lookup id

/-- The id that a binding lists at the place of a relation. -/
def Binding.relation? (shape : Query.Shape) (b : Binding) (id : RelationId) :
    Option RelationId :=
  ((shape.relations.map Prod.fst).zip b.relations).lookup id

/-- Whether the relation that a binding lists for a query relation joins the
nodes that it lists for the ends: from source to target, or either way if there
is no direction. -/
def Binding.Joins (shape : Query.Shape) (result : Graph) (b : Binding)
    (q : Relation) : Prop :=
  ∃ matched ∈ result.relations.toList, ∃ source target,
    b.relation? shape q.id = some matched.id ∧
    b.node? shape q.link.source = some source ∧
    b.node? shape q.link.target = some target ∧
    ((matched.link.source = source ∧ matched.link.target = target) ∨
      (q.link.directed = false ∧ matched.link.source = target ∧
        matched.link.target = source))

/-- Whether matches are those that some assignments stand for: one graph of what
is bound, and for each its ids in order. -/
structure Matches.Reports (m : Matches) (policy : Query.Policy)
    (shape : Query.Shape) (g : Graph) (es : List Assignment) : Prop where
  graph_none_iff : m.graph = none ↔ es = []
  /-- the nodes are the bound ones, with the first of their labels and all
  properties -/
  node_iff : ∀ result, m.graph = some result → ∀ id traits,
    (∃ n ∈ result.nodes.toList, n.id = id ∧ n.traits = traits) ↔
      ∃ e ∈ es, ∃ q ∈ g.nodes.toList, (e.node q.id).id = id ∧
        ⟨(e.node q.id).labels.head?, (e.node q.id).properties⟩ = traits
  /-- the relations are the bound ones, directed, with their type and all
  properties -/
  relation_iff : ∀ result, m.graph = some result → ∀ r,
    r ∈ result.relations.toList ↔ ∃ e ∈ es, ∃ q ∈ g.relations.toList,
      ⟨(e.relation q.id).id,
        ⟨(e.relation q.id).source, (e.relation q.id).target, true,
          ⟨some (e.relation q.id).type, (e.relation q.id).properties⟩⟩⟩ = r
  /-- the bindings are those of the assignments in order, or the first of
  each subgraph -/
  reported_eq : m.reported = if policy = .deduplicating
    then Binding.unprecedented (es.map (·.binding g)) else es.map (·.binding g)
  /-- each binding lists a relation together with the nodes that it joins -/
  joins : ∀ b ∈ m.reported, ∃ result, m.graph = some result ∧
    ∀ q ∈ g.relations.toList, b.Joins shape result q

/-! ## Looking up what is bound -/

/-- What a function lists for a key is found under the key. -/
theorem lookup_zip_map {f : Int → Int} {ids : List Int} {id : Int}
    (h : id ∈ ids) :
    (ids.zip (ids.map f)).lookup id = some (f id) := by
  induction ids with
  | nil => exact absurd h List.not_mem_nil
  | cons first rest ih =>
    rw [List.map_cons, List.zip_cons_cons, List.lookup_cons]
    by_cases hid : id = first
    · rw [hid, beq_self_eq_true]
    · rw [beq_false_of_ne hid]
      exact ih ((List.mem_cons.1 h).resolve_left hid)

variable {o : Query.Options} {g : Graph} {e : Assignment}

theorem shape_nodes_fst (o : Query.Options) (g : Graph) :
    (Query.Shape.ofGraph o g).nodes.map Prod.fst = g.nodeIds := by
  rw [Query.Shape.ofGraph, List.map_map]
  exact List.map_id g.nodeIds

theorem shape_relations_fst (o : Query.Options) (g : Graph) :
    (Query.Shape.ofGraph o g).relations.map Prod.fst = g.relationIds := by
  rw [Query.Shape.ofGraph, List.map_map]
  exact List.map_id g.relationIds

theorem node?_binding {node : NodeId} (h : node ∈ g.nodeIds) :
    (e.binding g).node? (Query.Shape.ofGraph o g) node =
    some (e.place node) := by
  rw [Binding.node?, shape_nodes_fst]
  exact lookup_zip_map h

theorem relation?_binding {relation : RelationId}
    (h : relation ∈ g.relationIds) :
    (e.binding g).relation? (Query.Shape.ofGraph o g) relation =
    some (e.relationId relation) := by
  rw [Binding.relation?, shape_relations_fst]
  exact lookup_zip_map h

/-! ## Reading bindings -/

/-- The cell of an assignment is that of its binding. -/
theorem idsCell_eq_cell (o : Query.Options) (g : Graph) (e : Assignment) :
    e.idsCell (Query.Shape.ofGraph o g) = (e.binding g).cell := by
  rw [Assignment.idsCell, Binding.cell, Assignment.binding,
    ← shape_nodes_fst o g, ← shape_relations_fst o g]
  simp only [List.map_map]
  rfl

/-- A binding has one id for each variable. -/
theorem binding_fits (o : Query.Options) (g : Graph) (e : Assignment) :
    (e.binding g).Fits (some (Query.Shape.ofGraph o g)) := by
  rintro _ ⟨⟩
  rw [Query.Shape.nodeArity, Query.Shape.relationArity, Assignment.binding,
    ← shape_nodes_fst o g, ← shape_relations_fst o g]
  simp only [List.length_map, and_self]

/-! ## The round trip -/

variable {s : Store} {es : List Assignment}

/-- The ends of every bound relationship are bound. -/
theorem Assignment.Embeds.ends_bound (h : e.Embeds g s) {q : Relation}
    (hq : q ∈ g.relations.toList) :
    (∃ n ∈ g.nodes.toList, (e.node n.id).id = (e.relation q.id).source) ∧
      ∃ n ∈ g.nodes.toList, (e.node n.id).id = (e.relation q.id).target := by
  obtain ⟨a, ha, hsource⟩ := g.consistent.source_mem q hq
  obtain ⟨b, hb, htarget⟩ := g.consistent.target_mem q hq
  rcases h.spans q hq with ⟨hs, ht⟩ | ⟨-, hs, ht⟩
  · exact ⟨⟨a, ha, by rw [hs, hsource]; rfl⟩, b, hb, by rw [ht, htarget]; rfl⟩
  · exact ⟨⟨b, hb, by rw [hs, htarget]; rfl⟩, a, ha, by rw [ht, hsource]; rfl⟩

/-- A relation bound by an embedding joins the nodes bound to its ends, as the
binding lists them. -/
theorem Assignment.Embeds.joins (h : e.Embeds g s) (o : Query.Options)
    {result : Graph} {q : Relation} (hq : q ∈ g.relations.toList)
    (hmem : (e.relation q.id).relation .result ∈ result.relations.toList) :
    (e.binding g).Joins (Query.Shape.ofGraph o g) result q := by
  have hsource : q.link.source ∈ g.nodeIds :=
    Graph.mem_nodeIds.2 (g.consistent.source_mem q hq)
  have htarget : q.link.target ∈ g.nodeIds :=
    Graph.mem_nodeIds.2 (g.consistent.target_mem q hq)
  exact ⟨_, hmem, e.place q.link.source, e.place q.link.target,
    relation?_binding (Keyed.key_mem_keys hq), node?_binding hsource,
    node?_binding htarget, h.spans q hq⟩

/-- What the graph of the answer consists of: the bound elements, and
no others. -/
structure Shows (result : Graph) (g : Graph) (es : List Assignment) : Prop where
  node_iff : ∀ id traits,
    (∃ n ∈ result.nodes.toList, n.id = id ∧ n.traits = traits) ↔
    ∃ e ∈ es, ∃ q ∈ g.nodes.toList,
      (e.node q.id).id = id ∧ ((e.node q.id).node .result).traits = traits
  relation_iff : ∀ r, r ∈ result.relations.toList ↔
    ∃ e ∈ es, ∃ q ∈ g.relations.toList, (e.relation q.id).relation .result = r

/-- Stored elements that are the bound ones make a graph of the bound ones; a
store has no two elements with one id. -/
theorem shows_of_ofStored {nodes : List StoredNode}
    {relationships : List StoredRelationship} {result : Graph}
    (hembeds : ∀ e ∈ es, e.Embeds g s)
    (hnodes : ∀ n, n ∈ nodes ↔ ∃ e ∈ es, ∃ q ∈ g.nodes.toList, e.node q.id = n)
    (hrelationships : ∀ r, r ∈ relationships ↔
      ∃ e ∈ es, ∃ q ∈ g.relations.toList, e.relation q.id = r)
    (hstored : Graph.ofStored nodes relationships .result = .ok result) :
    Shows result g es := by
  have hinj_nodes : ∀ a ∈ nodes, ∀ b ∈ nodes, a.id = b.id → a = b := by
    intro a ha b hb hid
    obtain ⟨e, he, q, hq, rfl⟩ := (hnodes a).1 ha
    obtain ⟨e', he', q', hq', rfl⟩ := (hnodes b).1 hb
    exact Keyed.eq_of_key_eq ((hembeds e he).node_mem q hq)
      ((hembeds e' he').node_mem q' hq') hid
  have hinj_relationships : ∀ a ∈ relationships, ∀ b ∈ relationships,
      a.id = b.id → a = b := by
    intro a ha b hb hid
    obtain ⟨e, he, q, hq, rfl⟩ := (hrelationships a).1 ha
    obtain ⟨e', he', q', hq', rfl⟩ := (hrelationships b).1 hb
    exact Keyed.eq_of_key_eq ((hembeds e he).relation_mem q hq)
      ((hembeds e' he').relation_mem q' hq') hid
  constructor
  · intro id traits
    rw [Graph.exists_mem_nodes_iff hstored hinj_nodes]
    constructor
    · rintro ⟨n, hn, hid, htraits⟩
      obtain ⟨e, he, q, hq, rfl⟩ := (hnodes n).1 hn
      exact ⟨e, he, q, hq, hid, htraits⟩
    · rintro ⟨e, he, q, hq, hid, htraits⟩
      exact ⟨_, (hnodes _).2 ⟨e, he, q, hq, rfl⟩, hid, htraits⟩
  · intro r
    rw [Graph.mem_relations_iff hstored hinj_relationships]
    constructor
    · rintro ⟨stored, hstored', rfl⟩
      obtain ⟨e, he, q, hq, rfl⟩ := (hrelationships stored).1 hstored'
      exact ⟨e, he, q, hq, rfl⟩
    · rintro ⟨e, he, q, hq, rfl⟩
      exact ⟨_, (hrelationships _).2 ⟨e, he, q, hq, rfl⟩, rfl⟩

/-- What an assignment binds is in a graph that shows it. -/
theorem binding_resolvesIn {result : Graph} (hshows : Shows result g es)
    (he : e ∈ es) :
    (e.binding g).ResolvesIn (some result) := by
  constructor
  · intro node hnode
    obtain ⟨id, hid, rfl⟩ := List.mem_map.1 hnode
    obtain ⟨n, hn, rfl⟩ := Graph.mem_nodeIds.1 hid
    obtain ⟨m, hm, hid, -⟩ := (hshows.node_iff _ _).2 ⟨e, he, n, hn, rfl, rfl⟩
    exact ⟨result, rfl, m, Graph.node?_eq_some_iff.2 ⟨hm, hid⟩⟩
  · intro relation hrelation
    obtain ⟨id, hid, rfl⟩ := List.mem_map.1 hrelation
    obtain ⟨r, hr, rfl⟩ := Graph.mem_relationIds.1 hid
    have hmem := (hshows.relation_iff _).2 ⟨e, he, r, hr, rfl⟩
    exact ⟨result, rfl, _, Graph.relation?_eq_some_iff.2 ⟨hmem, rfl⟩⟩

/-- Once the graph is there, all bindings are read. -/
theorem bindings_eq_ok (o : Query.Options) {row : Row} {result : Graph}
    (hshows : Shows result g es) (hids : Map.get? row Query.idsColumn =
      some (.list (es.map (·.idsCell (Query.Shape.ofGraph o g))))) :
    Matches.bindings (some (Query.Shape.ofGraph o g)) (some result) row =
      .ok (es.map (·.binding g)) := by
  refine Matches.bindings_eq_ok_iff.2 ⟨?_, fun b hb => ?_⟩
  · simp only [hids, List.map_map, Function.comp_def, idsCell_eq_cell]
  · obtain ⟨e, he, rfl⟩ := List.mem_map.1 hb
    exact ⟨binding_fits o g e, binding_resolvesIn hshows he⟩

/-- A row with a graph and bindings is assembled from them. -/
theorem assemble_eq_ok {a : Matches.Assembler} {row : Row}
    {graph : Option Graph} {bindings : List Binding}
    (hgraph : row.graph? .result = .ok graph)
    (hbindings : Matches.bindings a.shape graph row = .ok bindings) :
    a.assemble row = .ok ⟨graph, if a.policy = .deduplicating
      then Binding.unprecedented bindings else bindings⟩ := by
  rw [Matches.Assembler.assemble_eq_bind]
  exact bind_eq_ok_iff.2 ⟨graph, hgraph,
    bind_eq_ok_iff.2 ⟨bindings, mapError_eq_ok_iff.2 hbindings, rfl⟩⟩

/-- The row that answers a query is read without a fault, and as what it
reports, whatever the assignments are and in whatever order it lists
elements. -/
theorem assemble_answers (c : Query.Compiler) (g : Graph) (s : Store)
    (es : List Assignment) (row : Row) (hembeds : ∀ e ∈ es, e.Embeds g s)
    (hrow : row.Answers (c.compile g).shape g es) :
    ∃ m, (Matches.Assembler.ofQuery (c.compile g)).assemble row = .ok m ∧
      m.Reports c.options.policy (c.compile g).shape g es := by
  obtain ⟨nodes, hnodes, -, hmem_nodes⟩ := hrow.nodes
  obtain ⟨relationships, hrelationships, -, hmem_relationships⟩ :=
    hrow.relationships
  have hends : ∀ r ∈ relationships,
      (∃ n ∈ nodes, n.id = r.source) ∧ ∃ n ∈ nodes, n.id = r.target := by
    intro r hr
    obtain ⟨e, he, q, hq, rfl⟩ := (hmem_relationships r).1 hr
    obtain ⟨⟨a, ha, hsource⟩, b, hb, htarget⟩ := (hembeds e he).ends_bound hq
    exact ⟨⟨_, (hmem_nodes _).2 ⟨e, he, a, ha, rfl⟩, hsource⟩,
      _, (hmem_nodes _).2 ⟨e, he, b, hb, rfl⟩, htarget⟩
  -- a graph has a node, so each embedding binds one
  have hnil_iff : nodes = [] ↔ es = [] := by
    constructor
    · intro hnil
      apply List.eq_nil_iff_forall_not_mem.2
      intro e he
      have hmem := (hmem_nodes _).2 ⟨e, he, _, g.first_mem, rfl⟩
      rw [hnil] at hmem
      exact List.not_mem_nil hmem
    · rintro rfl
      apply List.eq_nil_iff_forall_not_mem.2
      intro n hn
      obtain ⟨e, he, -⟩ := (hmem_nodes n).1 hn
      exact List.not_mem_nil he
  rcases Row.graph?_eq .result (Row.storedNodes_eq_ok hnodes)
    (Row.storedRelationships_eq_ok hrelationships) hends with
    ⟨hnil, hgraph⟩ | ⟨hne, result, hgraph, hstored⟩
  · have hes := hnil_iff.1 hnil
    subst hes
    have hbindings :
        Matches.bindings (some (c.compile g).shape) none row = .ok [] := by
      rw [Matches.bindings, Row.field_eq_ok hrow.ids]
      rfl
    refine ⟨_, assemble_eq_ok hgraph hbindings, ?_⟩
    exact
      { graph_none_iff := by simp
        node_iff := by simp
        relation_iff := by simp
        reported_eq := rfl
        joins := fun b hb => absurd (mem_of_mem_kept hb) List.not_mem_nil }
  · have hshows :=
      shows_of_ofStored hembeds hmem_nodes hmem_relationships hstored
    refine ⟨_, assemble_eq_ok hgraph (bindings_eq_ok c.options hshows hrow.ids),
      ?_⟩
    refine
      { graph_none_iff := ?_
        node_iff := ?_
        relation_iff := ?_
        reported_eq := rfl
        joins := ?_ }
    · have hes : es ≠ [] := fun h => hne (hnil_iff.2 h)
      simp [hes]
    · rintro _ ⟨⟩
      exact hshows.node_iff
    · rintro _ ⟨⟩
      exact hshows.relation_iff
    · intro b hb
      obtain ⟨e, he, rfl⟩ := List.mem_map.1 (mem_of_mem_kept hb)
      refine ⟨result, rfl, fun q hq => ?_⟩
      exact (hembeds e he).joins c.options hq
        ((hshows.relation_iff _).2 ⟨e, he, q, hq, rfl⟩)

/-- Whatever was matched, there is a row that reports it, so that what is
claimed of such rows is claimed of some. -/
theorem exists_answers (shape : Query.Shape) (g : Graph)
    (es : List Assignment) :
    ∃ row : Row, row.Answers shape g es := by
  let nodes :=
    (es.flatMap fun e => g.nodes.toList.map fun q => e.node q.id).dedup
  let relationships :=
    (es.flatMap fun e => g.relations.toList.map fun q => e.relation q.id).dedup
  refine ⟨(((∅ : Row).insert Query.nodesColumn (.list (nodes.map .node))).insert
    Query.relationshipsColumn (.list (relationships.map .relationship))).insert
    Query.idsColumn (.list (es.map (·.idsCell shape))), ?_, ?_, ?_⟩
  · refine ⟨nodes, ?_, List.nodup_dedup _, fun n => ?_⟩
    · rw [Map.get?_insert, if_neg (by decide), Map.get?_insert,
        if_neg (by decide), Map.get?_insert, if_pos rfl]
    · simp only [nodes, List.mem_dedup, List.mem_flatMap, List.mem_map]
  · refine ⟨relationships, ?_, List.nodup_dedup _, fun r => ?_⟩
    · rw [Map.get?_insert, if_neg (by decide), Map.get?_insert, if_pos rfl]
    · simp only [relationships, List.mem_dedup, List.mem_flatMap, List.mem_map]
  · rw [Map.get?_insert, if_pos rfl]

/-- Two nodes joined without direction, matched both ways round by one
relationship. -/
theorem assemble_answers_both_ways :
    ∃ (g : Graph) (s : Store) (es : List Assignment) (row : Row),
    Graph.ofLists [{ id := 0 }, { id := 1 }] [⟨0, ⟨0, 1, false, {}⟩⟩]
    .required = .ok g ∧
    es.length = 2 ∧ (∀ e ∈ es, e.Embeds g s) ∧
    row.Answers (Query.Compiler.compile {} g).shape g es ∧
    ∃ m, (Matches.Assembler.ofQuery (Query.Compiler.compile {} g)).assemble
      row = .ok m ∧
      m.Reports .breaking (Query.Compiler.compile {} g).shape g es := by
  let low : StoredNode := { id := 10, labels := ["Person", "Author"] }
  let high : StoredNode := { id := 20 }
  let knows : StoredRelationship :=
    { id := 5, source := 20, target := 10, type := "KNOWS" }
  let s : Store := ⟨⟨[low, high], by decide⟩, ⟨[knows], by decide⟩, by decide⟩
  let es : List Assignment :=
    [⟨fun id => if id = 0 then low else high, fun _ => knows⟩,
      ⟨fun id => if id = 0 then high else low, fun _ => knows⟩]
  refine Exists.imp (fun g hg => ?_) (Graph.exists_of_isOk (x := Graph.ofLists
    [{ id := 0 }, { id := 1 }] [⟨0, ⟨0, 1, false, {}⟩⟩] .required) (by decide))
  obtain ⟨hnodes, hrelations⟩ := Graph.Builder.eq_of_build hg
  have hembeds : ∀ e ∈ es, e.Embeds g s := by
    intro e he
    refine ⟨?_, ?_, ?_, ?_⟩
    · rw [hnodes]
      revert e
      decide
    · rw [hrelations]
      revert e
      decide
    · rw [hrelations]
      revert e
      decide
    · rw [hrelations]
      unfold Link.Spans
      revert e
      decide
  obtain ⟨row, hrow⟩ := exists_answers (Query.Compiler.compile {} g).shape g es
  exact ⟨s, es, row, hg, rfl, hembeds, hrow,
    assemble_answers {} g s es row hembeds hrow⟩

end DrawnPattern
