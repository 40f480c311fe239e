import DrawnPattern.Proofs.Graph.Incidence
import DrawnPattern.Proofs.Match.Deduplication
import DrawnPattern.Proofs.Row.Reading
set_option autoImplicit false

/-!
# Which rows are assembled

Whether a row is well formed can be said without assembling it
(`Row.WellFormed`): its columns hold what they should, relationships end at
listed nodes, and what is bound is listed.  An assembler accepts the well-formed
rows and no others, makes of them what their columns say (`Matches.Assembled`),
and refuses every other row as a broken promise
(`Matches.Assembler.judges_every_row`).
-/

namespace DrawnPattern

variable {shape : Option Query.Shape} {graph : Option Graph}
  {nodes : List StoredNode} {relationships : List StoredRelationship}
  {bindings : List Binding} {row : Row}

/-! ## Well-formed rows -/

namespace Binding

/-- A binding as the database writes it: a pair of lists of integers,
nodes first. -/
def cell (b : Binding) : Cell :=
  .list [.list (b.nodes.map .int), .list (b.relations.map .int)]

/-- Whether a binding has one id for each variable, as far as they are known. -/
def Fits (b : Binding) (shape : Option Query.Shape) : Prop :=
  ∀ s, shape = some s → b.nodes.length = s.nodeArity ∧
    b.relations.length = s.relationArity

/-- Whether every bound id is that of a listed element, so that no binding names
what was not returned. -/
def Listed (b : Binding) (nodes : List StoredNode)
    (relationships : List StoredRelationship) :
    Prop :=
  (∀ id ∈ b.nodes, ∃ n ∈ nodes, n.id = id) ∧
    ∀ id ∈ b.relations, ∃ r ∈ relationships, r.id = id

/-- Whether every bound id is that of an element of the graph; without a graph
nothing may be bound. -/
def ResolvesIn (b : Binding) (graph : Option Graph) : Prop :=
  (∀ id ∈ b.nodes, ∃ g, graph = some g ∧ ∃ n, g.node? id = some n) ∧
    ∀ id ∈ b.relations, ∃ g, graph = some g ∧ ∃ r, g.relation? id = some r

end Binding

/-- Whether a row holds these nodes, relationships and bindings, and they fit
together. -/
structure Row.WellFormed (row : Row) (shape : Option Query.Shape)
    (nodes : List StoredNode) (relationships : List StoredRelationship)
    (bindings : List Binding) : Prop where
  nodes_eq : Map.get? row Query.nodesColumn = some (.list (nodes.map .node))
  relationships_eq :
    Map.get? row Query.relationshipsColumn =
    some (.list (relationships.map .relationship))
  ids_eq :
    Map.get? row Query.idsColumn = some (.list (bindings.map Binding.cell))
  ends : EndsListed nodes relationships
  fits : ∀ b ∈ bindings, b.Fits shape
  listed : ∀ b ∈ bindings, b.Listed nodes relationships

/-- What a policy reports of some bindings: of those with one subgraph the
first, or all. -/
def Query.Policy.kept (policy : Query.Policy) (bindings : List Binding) :
    List Binding :=
  if policy = .deduplicating then Binding.unprecedented bindings else bindings

/-- Under every policy, what is kept was there. -/
theorem mem_of_mem_kept {policy : Query.Policy} {b : Binding}
    (h : b ∈ policy.kept bindings) :
    b ∈ bindings := by
  unfold Query.Policy.kept at h
  split at h
  · exact Binding.mem_of_mem_unprecedented h
  · exact h

/-- Whether matches are what the columns of a row say, each node and
relationship as the first that is listed under its id. -/
structure Matches.Assembled (m : Matches) (policy : Query.Policy)
    (nodes : List StoredNode) (relationships : List StoredRelationship)
    (bindings : List Binding) : Prop where
  graph_none_iff : m.graph = none ↔ nodes = []
  /-- under each id the first listed node, with the first of its labels -/
  node?_eq : ∀ g, m.graph = some g → ∀ id, (g.node? id).map Node.traits =
    (nodes.find? (·.id == id)).map fun n => ⟨n.labels.head?, n.properties⟩
  /-- under each id the first listed relationship, directed and with its type -/
  relation?_eq : ∀ g, m.graph = some g → ∀ id, g.relation? id =
    (relationships.find? (·.id == id)).map fun r =>
      ⟨r.id, ⟨r.source, r.target, true, ⟨some r.type, r.properties⟩⟩⟩
  reported_eq : m.reported = policy.kept bindings
  resolved : ∀ b ∈ m.reported, b.ResolvesIn m.graph

/-! ## Rows by their columns -/

/-- The row with these columns. -/
def Row.ofColumns (nodes : List StoredNode)
    (relationships : List StoredRelationship) (bindings : List Binding) : Row :=
  (((∅ : Row).insert Query.nodesColumn (.list (nodes.map .node))).insert
    Query.relationshipsColumn (.list (relationships.map .relationship))).insert
    Query.idsColumn (.list (bindings.map Binding.cell))

theorem Row.wellFormed_ofColumns {shape : Option Query.Shape}
    (hends : EndsListed nodes relationships)
    (hfits : ∀ b ∈ bindings, b.Fits shape)
    (hlisted : ∀ b ∈ bindings, b.Listed nodes relationships) :
    (Row.ofColumns nodes relationships bindings).WellFormed shape nodes
    relationships bindings where
  nodes_eq := by
    rw [ofColumns, Map.get?_insert, if_neg (by decide), Map.get?_insert,
      if_neg (by decide), Map.get?_insert, if_pos rfl]
  relationships_eq := by
    rw [ofColumns, Map.get?_insert, if_neg (by decide), Map.get?_insert,
      if_pos rfl]
  ids_eq := by
    rw [ofColumns, Map.get?_insert, if_pos rfl]
  ends := hends
  fits := hfits
  listed := hlisted

/-! ## Reading bindings -/

namespace Matches

theorem checkArity_eq_ok_iff {place : String} {expected found : Nat}
    {done : Unit} :
    checkArity place expected found = .ok done ↔ found = expected := by
  rw [checkArity]
  split
  · rename_i h
    exact iff_of_true rfl h.symm
  · rename_i h
    exact iff_of_false (fun hok => nomatch hok) fun heq => h heq.symm

/-- A list of ids is as long as the shape asks, nodes before relations; without
a shape any length will do. -/
def checkShape (shape : Option Query.Shape) (nodes relations : List Int) :
    Except DecodeFault Unit :=
  match shape with
  | some shape => do
    checkArity nodeIdsPlace shape.nodeArity nodes.length
    checkArity relationIdsPlace shape.relationArity relations.length
  | none => pure ()

theorem checkShape_eq_ok_iff {nodes relations : List Int} {done : Unit} :
    checkShape shape nodes relations = .ok done ↔
    Binding.Fits ⟨nodes, relations⟩ shape := by
  cases shape with
  | none => exact iff_of_true rfl fun s hs => nomatch hs
  | some s =>
    simp only [checkShape, bind_eq_ok_iff, checkArity_eq_ok_iff, exists_const,
      Binding.Fits, Option.some.injEq, forall_eq']

theorem binding_pair (shape : Option Query.Shape) (nodes relations : Cell) :
    binding shape (.list [nodes, relations]) =
      nodes.asIntList Query.idsColumn >>= fun nodes =>
        relations.asIntList Query.idsColumn >>= fun relations =>
          checkShape shape nodes relations >>= fun _ =>
              pure ⟨nodes, relations⟩ := by
  cases shape with
  | none => rfl
  | some s =>
    simp only [checkShape, bind_assoc]
    rfl

/-- What is read as a binding is written as one, with an id for each
variable. -/
theorem binding_eq_ok_iff {cell : Cell} {b : Binding} :
    binding shape cell = .ok b ↔ cell = b.cell ∧ b.Fits shape := by
  have hlist : ∀ items, binding shape (.list items) = .ok b ↔
      items = [.list (b.nodes.map .int), .list (b.relations.map .int)] ∧
      b.Fits shape := by
    intro items
    match items with
    | [nodes, relations] =>
      simp only [binding_pair, bind_eq_ok_iff, Cell.asIntList_eq_ok_iff,
        checkShape_eq_ok_iff, exists_const, List.cons.injEq, and_true]
      constructor
      · rintro ⟨ids, rfl, ids', rfl, hfits, ⟨⟩⟩
        exact ⟨⟨rfl, rfl⟩, hfits⟩
      · rintro ⟨⟨rfl, rfl⟩, hfits⟩
        exact ⟨_, rfl, _, rfl, hfits, rfl⟩
    | [] => exact iff_of_false (fun h => nomatch h) fun h => nomatch h.1
    | [_] => exact iff_of_false (fun h => nomatch h) fun h => nomatch h.1
    | _ :: _ :: _ :: _ =>
      exact iff_of_false (fun h => nomatch h) fun h => nomatch h.1
  by_cases h : ∃ items, cell = .list items
  · obtain ⟨items, rfl⟩ := h
    rw [hlist, Binding.cell, Cell.list.injEq]
  · refine iff_of_false (fun hread => h ?_) fun hcell => h ⟨_, hcell.1⟩
    unfold binding at hread
    obtain ⟨items, hitems, -⟩ := bind_eq_ok_iff.1 hread
    exact ⟨items, Cell.asList_eq_ok_iff.1 hitems⟩

/-- No id dangles iff every bound id is that of an element. -/
theorem danglingId?_eq_none_iff {b : Binding} :
    danglingId? graph b = none ↔ b.ResolvesIn graph := by
  have hsome : ∀ {α : Type} (element? : Graph → Option α),
      (graph.bind element?).isSome = true ↔
      ∃ g, graph = some g ∧ ∃ a, element? g = some a := by
    intro α element?
    cases graph <;> simp [Option.isSome_iff_exists]
  simp only [danglingId?, HOrElse.hOrElse, OrElse.orElse, Option.orElse_eq_or,
    Option.or_eq_none_iff, Option.map_eq_none_iff, List.find?_eq_none,
    Bool.not_eq_true', Bool.not_eq_false, hsome, Binding.ResolvesIn]

/-- A binding is accepted iff it is written as one, fits the shape and has no
unknown id. -/
theorem knownBinding_eq_ok_iff {cell : Cell} {b : Binding} :
    knownBinding shape graph cell = .ok b ↔
      cell = b.cell ∧ b.Fits shape ∧ b.ResolvesIn graph := by
  unfold knownBinding
  simp only [bind_eq_ok_iff, binding_eq_ok_iff, ← danglingId?_eq_none_iff]
  constructor
  · rintro ⟨b', ⟨rfl, hfits⟩, h⟩
    split at h
    · cases h
    · rename_i hdangling
      cases h
      exact ⟨rfl, hfits, hdangling⟩
  · rintro ⟨rfl, hfits, hdangling⟩
    refine ⟨b, ⟨rfl, hfits⟩, ?_⟩
    rw [hdangling]
    rfl

theorem bindings_eq_ok_iff :
    Matches.bindings shape graph row = .ok bindings ↔
      Map.get? row Query.idsColumn = some (.list (bindings.map Binding.cell)) ∧
        ∀ b ∈ bindings, b.Fits shape ∧ b.ResolvesIn graph := by
  rw [Matches.bindings, Row.list_eq_ok_iff]
  simp only [mapM_eq_ok_iff_eq_map_and fun _ _ => knownBinding_eq_ok_iff]
  constructor
  · rintro ⟨_, hget, rfl, hall⟩
    exact ⟨hget, hall⟩
  · rintro ⟨hget, hall⟩
    exact ⟨_, hget, rfl, hall⟩

/-! ## What is made of a row -/

/-- In the graph of some elements, what is bound resolves iff it is listed, as
the graph has every id that is listed. -/
theorem resolvesIn_iff_listed
    (h : Row.graphOf nodes relationships .result = .ok graph) {b : Binding} :
    b.ResolvesIn graph ↔ b.Listed nodes relationships := by
  obtain ⟨hends, ⟨rfl, rfl⟩ | ⟨-, g, rfl, hg⟩⟩ := Row.graphOf_eq_ok_iff.1 h
  · have hnone : relationships = [] := endsListed_nil_iff.1 hends
    simp [Binding.ResolvesIn, Binding.Listed, hnone]
  · have hnode : ∀ id, (∃ n, g.node? id = some n) ↔ ∃ n ∈ nodes, n.id = id := by
      intro id
      rw [← Option.isSome_iff_exists, ← Option.isSome_map (f := Node.traits),
        Graph.node?_ofStored hg, Option.isSome_map, List.find?_isSome]
      simp only [beq_iff_eq]
    have hrelation : ∀ id, (∃ r, g.relation? id = some r) ↔
        ∃ r ∈ relationships, r.id = id := by
      intro id
      rw [← Option.isSome_iff_exists, Graph.relation?_ofStored hg,
        Option.isSome_map, List.find?_isSome]
      simp only [beq_iff_eq]
    simp only [Binding.ResolvesIn, Binding.Listed, Option.some.injEq,
      exists_eq_left', hnode, hrelation]

theorem Assembler.assemble_eq_bind (a : Assembler) (row : Row) :
    a.assemble row = row.graph? .result >>= fun graph =>
      (Matches.bindings a.shape graph row).mapError .decode >>= fun bindings =>
        pure ⟨graph, a.policy.kept bindings⟩ := by
  simp only [Query.Policy.kept, ← Binding.firstPerSubgraph_eq]
  rfl

/-- A row is assembled iff it is well formed, and what is assembled is read off
its columns. -/
theorem Assembler.assemble_eq_ok_iff {a : Assembler} {m : Matches} :
    a.assemble row = .ok m ↔ ∃ nodes relationships bindings,
      row.WellFormed a.shape nodes relationships bindings ∧
        ∃ graph, Row.graphOf nodes relationships .result = .ok graph ∧
          m = ⟨graph, a.policy.kept bindings⟩ := by
  simp only [Assembler.assemble_eq_bind, bind_eq_ok_iff, Row.graph?_eq_ok_iff,
    mapError_eq_ok_iff, bindings_eq_ok_iff, Row.storedNodes_eq_ok_iff,
    Row.storedRelationships_eq_ok_iff]
  constructor
  · rintro ⟨graph, ⟨nodes, hnodes, relationships, hrelationships, hgraph⟩,
      bindings, ⟨hids, hall⟩, ⟨⟩⟩
    refine ⟨nodes, relationships, bindings, ⟨hnodes, hrelationships, hids,
      (Row.graphOf_eq_ok_iff.1 hgraph).1, fun b hb => (hall b hb).1,
      fun b hb => ?_⟩, graph, hgraph, rfl⟩
    exact (resolvesIn_iff_listed hgraph).1 (hall b hb).2
  · rintro ⟨nodes, relationships, bindings, hrow, graph, hgraph, rfl⟩
    refine ⟨graph,
      ⟨nodes, hrow.nodes_eq, relationships, hrow.relationships_eq, hgraph⟩,
      bindings, ⟨hrow.ids_eq, fun b hb => ⟨hrow.fits b hb, ?_⟩⟩, rfl⟩
    exact (resolvesIn_iff_listed hgraph).2 (hrow.listed b hb)

/-- What is assembled from a well-formed row is what its columns say. -/
theorem assembled_of_graphOf
    (h : Row.graphOf nodes relationships .result = .ok graph)
    (hlisted : ∀ b ∈ bindings, b.Listed nodes relationships)
    (policy : Query.Policy) :
    Assembled ⟨graph, policy.kept bindings⟩ policy nodes relationships
    bindings where
  graph_none_iff := by
    rcases (Row.graphOf_eq_ok_iff.1 h).2 with
      ⟨hempty, rfl⟩ | ⟨hnonempty, g, rfl, -⟩
    · exact iff_of_true rfl hempty
    · exact iff_of_false (Option.some_ne_none g) hnonempty
  node?_eq := by
    rintro g rfl
    obtain ⟨-, ⟨-, ⟨⟩⟩ | ⟨-, _, ⟨⟩, hg⟩⟩ := Row.graphOf_eq_ok_iff.1 h
    exact Graph.node?_ofStored hg
  relation?_eq := by
    rintro g rfl
    obtain ⟨-, ⟨-, ⟨⟩⟩ | ⟨-, _, ⟨⟩, hg⟩⟩ := Row.graphOf_eq_ok_iff.1 h
    exact Graph.relation?_ofStored hg
  reported_eq := rfl
  resolved b hb := (resolvesIn_iff_listed h).2 (hlisted b (mem_of_mem_kept hb))

/-- What is refused is refused as a broken promise, so a caller can tell it from
a query that could not be run. -/
theorem Assembler.isContractViolation_of_assemble {a : Assembler}
    {failure : Failure} (h : a.assemble row = .error failure) :
    failure.isContractViolation = true ∧
      ((∃ fault, failure = .decode fault) ∨ ∃ fault,
        failure = .lookup fault) := by
  have hkind : (∃ fault, failure = .decode fault) ∨
      ∃ fault, failure = .lookup fault := by
    simp only [assemble_eq_bind, bind_eq_error_iff, mapError_eq_error_iff] at h
    rcases h with hgraph | ⟨graph, -, ⟨fault, -, rfl⟩ | ⟨bindings, -, ⟨⟩⟩⟩
    · exact Row.graph?_eq_error hgraph
    · exact .inl ⟨fault, rfl⟩
  refine ⟨?_, hkind⟩
  rcases hkind with ⟨fault, rfl⟩ | ⟨fault, rfl⟩ <;> rfl

/-- A well-formed row is assembled, into what its columns say. -/
theorem Assembler.assembled_of_wellFormed {a : Assembler}
    (hrow : row.WellFormed a.shape nodes relationships bindings) :
    ∃ m, a.assemble row = .ok m ∧
    m.Assembled a.policy nodes relationships bindings := by
  obtain ⟨graph, hgraph⟩ : ∃ graph,
      Row.graphOf nodes relationships .result = .ok graph := by
    by_cases hempty : nodes = []
    · exact ⟨none, Row.graphOf_eq_ok_iff.2 ⟨hrow.ends, .inl ⟨hempty, rfl⟩⟩⟩
    · obtain ⟨g, hg⟩ := Graph.exists_ofStored .result hempty hrow.ends
      exact ⟨some g,
        Row.graphOf_eq_ok_iff.2 ⟨hrow.ends, .inr ⟨hempty, g, rfl, hg⟩⟩⟩
  exact ⟨_, assemble_eq_ok_iff.2 ⟨nodes, relationships, bindings, hrow, graph,
    hgraph, rfl⟩, assembled_of_graphOf hgraph hrow.listed a.policy⟩

/-- What an assembler does with a row: accept it, with matches that say what it
says, or refuse it for one of two kinds of fault. -/
structure Assembler.Judges (a : Assembler) (row : Row) : Prop where
  accepted_iff : (∃ m, a.assemble row = .ok m) ↔
    ∃ nodes relationships bindings,
    row.WellFormed a.shape nodes relationships bindings
  assembled : ∀ nodes relationships bindings,
    row.WellFormed a.shape nodes relationships bindings →
      ∃ m, a.assemble row = .ok m ∧
      m.Assembled a.policy nodes relationships bindings
  /-- a row that is not well formed broke a promise; nothing is wrong with
  its graph -/
  refused : (¬∃ nodes relationships bindings,
      row.WellFormed a.shape nodes relationships bindings) →
    ∃ failure, a.assemble row = .error failure ∧
      failure.isContractViolation = true ∧
      ((∃ fault, failure = .decode fault) ∨ ∃ fault, failure = .lookup fault)

/-- Every assembler accepts exactly the well-formed rows, and what it makes of
them is told by their columns. -/
theorem Assembler.judges_every_row (a : Assembler) (row : Row) :
    a.Judges row where
  accepted_iff := by
    constructor
    · rintro ⟨m, hm⟩
      obtain ⟨nodes, relationships, bindings, hrow, -⟩ :=
        assemble_eq_ok_iff.1 hm
      exact ⟨nodes, relationships, bindings, hrow⟩
    · rintro ⟨nodes, relationships, bindings, hrow⟩
      obtain ⟨m, hm, -⟩ := assembled_of_wellFormed (a := a) hrow
      exact ⟨m, hm⟩
  assembled _ _ _ hrow := assembled_of_wellFormed hrow
  refused hno := by
    cases h : a.assemble row with
    | error failure => exact ⟨failure, rfl, isContractViolation_of_assemble h⟩
    | ok m =>
      obtain ⟨nodes, relationships, bindings, hrow, -⟩ := assemble_eq_ok_iff.1 h
      exact absurd ⟨nodes, relationships, bindings, hrow⟩ hno

end Matches

end DrawnPattern
