import DrawnPattern.Proofs.Failing
import DrawnPattern.Proofs.Graph.Building
import DrawnPattern.Row.Graph
set_option autoImplicit false

/-!
# Reading rows

Lists of cells are read iff they hold what is asked for
(`Row.storedNodes_eq_ok_iff`).  Stored elements become a graph as soon as there
is a node and every relationship ends at listed nodes (`exists_ofStored`), and
the graph is made of the first element with each id (`node?_ofStored`,
`relation?_ofStored`).  A row has a graph iff its elements are accepted
(`Row.graph?_eq_ok_iff`); no check of the builder is left that could still
refuse them (`Row.graph?_eq_error`).
-/

namespace DrawnPattern

/-! ## Cells -/

namespace Cell

variable {place : String} {c : Cell}

theorem asInt_eq_ok_iff {i : Int} : c.asInt place = .ok i ↔ c = .int i := by
  cases c <;> simp [asInt]

theorem asString_eq_ok_iff {s : String} : c.asString place = .ok s ↔
    c = .string s := by
  cases c <;> simp [asString]

theorem asList_eq_ok_iff {items : List Cell} : c.asList place = .ok items ↔
    c = .list items := by
  cases c <;> simp [asList]

theorem asNode_eq_ok_iff {n : StoredNode} : c.asNode place = .ok n ↔
    c = .node n := by
  cases c <;> simp [asNode]

theorem asRelationship_eq_ok_iff {r : StoredRelationship} :
    c.asRelationship place = .ok r ↔ c = .relationship r := by
  cases c <;> simp [asRelationship]

/-- A list of integers is read as it is. -/
theorem asIntList_eq_ok_iff {ids : List Int} :
    c.asIntList place = .ok ids ↔ c = .list (ids.map .int) := by
  have hread : ∀ (c : Cell) (i : Int), c.asInt place = .ok i ↔ c = .int i :=
    fun _ _ => asInt_eq_ok_iff
  simp only [asIntList, bind_eq_ok_iff, asList_eq_ok_iff,
    mapM_eq_ok_iff_eq_map hread, exists_eq_right]

end Cell

/-! ## Fields -/

namespace Row

variable {row : Row} {name : String}

theorem field_eq_ok_iff {cell : Cell} :
    row.field name = .ok cell ↔ Map.get? row name = some cell := by
  rw [field]
  split <;> simp_all

theorem field_eq_ok {cell : Cell} (h : Map.get? row name = some cell) :
    row.field name = .ok cell :=
  field_eq_ok_iff.2 h

theorem string_eq_ok_iff {s : String} :
    (do (← row.field name).asString name) = .ok s ↔
    Map.get? row name = some (.string s) := by
  simp only [bind_eq_ok_iff, field_eq_ok_iff, Cell.asString_eq_ok_iff,
    exists_eq_right]

theorem int_eq_ok_iff {i : Int} :
    (do (← row.field name).asInt name) = .ok i ↔
    Map.get? row name = some (.int i) := by
  simp only [bind_eq_ok_iff, field_eq_ok_iff, Cell.asInt_eq_ok_iff,
    exists_eq_right]

/-- A field is read as a list iff it holds one whose cells are read. -/
theorem list_eq_ok_iff {α : Type} {read : Cell → Except DecodeFault α}
    {items : List α} :
    (do (← (← row.field name).asList name).mapM read) = .ok items ↔
      ∃ cells, Map.get? row name = some (.list cells) ∧
      cells.mapM read = .ok items := by
  simp only [bind_eq_ok_iff, field_eq_ok_iff, Cell.asList_eq_ok_iff]
  constructor
  · rintro ⟨_, hget, cells, rfl, hread⟩
    exact ⟨cells, hget, hread⟩
  · rintro ⟨cells, hget, hread⟩
    exact ⟨_, hget, cells, rfl, hread⟩

theorem storedNodes_eq_ok_iff {nodes : List StoredNode} :
    row.storedNodes = .ok nodes ↔
      Map.get? row Query.nodesColumn = some (.list (nodes.map .node)) := by
  rw [storedNodes, list_eq_ok_iff]
  simp only [mapM_eq_ok_iff_eq_map fun _ _ => Cell.asNode_eq_ok_iff,
    exists_eq_right]

theorem storedRelationships_eq_ok_iff
    {relationships : List StoredRelationship} :
    row.storedRelationships = .ok relationships ↔
      Map.get? row Query.relationshipsColumn =
        some (.list (relationships.map .relationship)) := by
  rw [storedRelationships, list_eq_ok_iff]
  simp only [mapM_eq_ok_iff_eq_map fun _ _ => Cell.asRelationship_eq_ok_iff,
    exists_eq_right]

theorem storedNodes_eq_ok {nodes : List StoredNode}
    (h : Map.get? row Query.nodesColumn = some (.list (nodes.map .node))) :
    row.storedNodes = .ok nodes :=
  storedNodes_eq_ok_iff.2 h

theorem storedRelationships_eq_ok {relationships : List StoredRelationship}
    (h : Map.get? row Query.relationshipsColumn =
      some (.list (relationships.map .relationship))) :
    row.storedRelationships = .ok relationships :=
  storedRelationships_eq_ok_iff.2 h

end Row

/-! ## Stored elements -/

/-- Whether every relationship starts and ends at listed nodes, as one promises
who returns both. -/
def EndsListed (nodes : List StoredNode)
    (relationships : List StoredRelationship) : Prop :=
  ∀ r ∈ relationships, (∃ n ∈ nodes, n.id = r.source) ∧
    ∃ n ∈ nodes, n.id = r.target

theorem endsListed_nil_iff {relationships : List StoredRelationship} :
    EndsListed [] relationships ↔ relationships = [] := by
  constructor
  · intro h
    refine List.eq_nil_iff_forall_not_mem.2 fun r hr => ?_
    obtain ⟨⟨n, hn, -⟩, -⟩ := h r hr
    exact List.not_mem_nil hn
  · rintro rfl r hr
    exact absurd hr List.not_mem_nil

namespace Graph

variable {nodes : List StoredNode} {relationships : List StoredRelationship}
  {detail : Detail} {g : Graph}

/-- The node table of some stored nodes. -/
def nodeTable (detail : Detail) (nodes : List StoredNode) : NodeTable :=
  .ofListKeepFirst (nodes.map (·.node detail))

/-- The relation table of some stored relationships. -/
def relationTable (detail : Detail) (relationships : List StoredRelationship) :
    RelationTable :=
  .ofListKeepFirst (relationships.map (·.relation detail))

theorem contains_nodeTable {id : NodeId} :
    (nodeTable detail nodes).contains id = true ↔ ∃ n ∈ nodes, n.id = id := by
  rw [nodeTable, Keyed.contains_ofListKeepFirst]
  simp [StoredNode.node]

theorem unstoredEnd?_eq_none_iff {table : NodeTable} {r : StoredRelationship} :
    unstoredEnd? table r = none ↔
      table.contains r.source = true ∧ table.contains r.target = true := by
  unfold unstoredEnd?
  cases table.contains r.source <;> cases table.contains r.target <;> simp

/-- Every end is found iff it is listed. -/
theorem findSome?_unstoredEnd?_eq_none_iff :
    relationships.findSome? (unstoredEnd? (nodeTable detail nodes)) = none ↔
      EndsListed nodes relationships := by
  simp only [List.findSome?_eq_none_iff, unstoredEnd?_eq_none_iff,
    contains_nodeTable, EndsListed]

theorem findSome?_unstoredEnd?_eq_none
    (hends : EndsListed nodes relationships) :
    relationships.findSome? (unstoredEnd? (nodeTable detail nodes)) = none :=
  findSome?_unstoredEnd?_eq_none_iff.2 hends

/-- Once the ends are found, the graph is that of the two tables; only that
there is nothing can still be wrong. -/
theorem ofStored_eq (nodes : List StoredNode)
    (relationships : List StoredRelationship) (detail : Detail) :
    ofStored nodes relationships detail =
      match relationships.findSome? (unstoredEnd? (nodeTable detail nodes)) with
      | some fault => .error (.lookup fault)
      | none =>
        ((Builder.mk (nodeTable detail nodes)
          (relationTable detail relationships)
          none).build .unchecked).mapError .graph := by
  rw [← Builder.foldl_toLists]
  rfl

/-- What a graph of stored elements is made of. -/
theorem eq_of_ofStored (h : ofStored nodes relationships detail = .ok g) :
    g.nodes = Builder.attached (nodeTable detail nodes)
    (relationTable detail relationships) ∧
      g.relations = relationTable detail relationships := by
  rw [ofStored_eq] at h
  split at h
  · cases h
  · rw [mapError_eq_ok_iff] at h
    exact Builder.eq_of_build h

/-- Under each id the graph has the first node with it. -/
theorem node?_ofStored (h : ofStored nodes relationships detail = .ok g)
    (id : NodeId) :
    (g.node? id).map Node.traits =
      (nodes.find? (·.id == id)).map fun n => (n.node detail).traits := by
  have hkey : (fun n : StoredNode => compare (n.node detail).id id == .eq) =
      (·.id == id) := by
    funext n
    rw [Bool.eq_iff_iff, beq_iff_eq, beq_iff_eq,
      Std.LawfulEqCmp.compare_eq_iff_eq]
    rfl
  rw [node?, (eq_of_ofStored h).1, Builder.attached, Keyed.find?_map, nodeTable,
    Keyed.find?_ofListKeepFirst, List.find?_map, Option.map_map, Option.map_map]
  simp only [Function.comp_def, Builder.attachTo_traits, hkey]

/-- Under each id the graph has the first relationship with it. -/
theorem relation?_ofStored (h : ofStored nodes relationships detail = .ok g)
    (id : RelationId) :
    g.relation? id =
      (relationships.find? (·.id == id)).map (·.relation detail) := by
  have hkey :
      (fun r : StoredRelationship => compare (r.relation detail).id id == .eq) =
      (·.id == id) := by
    funext r
    rw [Bool.eq_iff_iff, beq_iff_eq, beq_iff_eq,
      Std.LawfulEqCmp.compare_eq_iff_eq]
    rfl
  rw [relation?, (eq_of_ofStored h).2, relationTable,
    Keyed.find?_ofListKeepFirst, List.find?_map]
  simp only [Function.comp_def, hkey]

/-- Nodes with distinct ids are the nodes of the graph. -/
theorem exists_mem_nodes_iff (h : ofStored nodes relationships detail = .ok g)
    (hinj : ∀ a ∈ nodes, ∀ b ∈ nodes, a.id = b.id → a = b) {id : NodeId}
    {t : Traits} :
    (∃ n ∈ g.nodes.toList, n.id = id ∧ n.traits = t) ↔
      ∃ n ∈ nodes, n.id = id ∧ (n.node detail).traits = t := by
  rw [(eq_of_ofStored h).1, Builder.exists_mem_attached_iff]
  have hmem : ∀ n, n ∈ (nodeTable detail nodes).toList ↔
      n ∈ nodes.map (·.node detail) := by
    intro n
    apply Keyed.mem_ofListKeepFirst_of_inj
    intro a ha b hb hid
    obtain ⟨a', ha', rfl⟩ := List.mem_map.1 ha
    obtain ⟨b', hb', rfl⟩ := List.mem_map.1 hb
    rw [hinj a' ha' b' hb' hid]
  constructor
  · rintro ⟨n, hn, hid, htraits⟩
    obtain ⟨m, hm, rfl⟩ := List.mem_map.1 ((hmem n).1 hn)
    exact ⟨m, hm, hid, htraits⟩
  · rintro ⟨m, hm, hid, htraits⟩
    exact ⟨_, (hmem _).2 (List.mem_map_of_mem hm), hid, htraits⟩

/-- Relationships with distinct ids are the relations of the graph. -/
theorem mem_relations_iff (h : ofStored nodes relationships detail = .ok g)
    (hinj : ∀ a ∈ relationships, ∀ b ∈ relationships, a.id = b.id → a = b)
    {r : Relation} :
    r ∈ g.relations.toList ↔ ∃ q ∈ relationships, q.relation detail = r := by
  rw [(eq_of_ofStored h).2, relationTable, ← List.mem_map]
  apply Keyed.mem_ofListKeepFirst_of_inj
  intro a ha b hb hid
  obtain ⟨a', ha', rfl⟩ := List.mem_map.1 ha
  obtain ⟨b', hb', rfl⟩ := List.mem_map.1 hb
  rw [hinj a' ha' b' hb' hid]

/-- Stored elements make a graph if there is a node and all ends are listed, in
whatever order and however often they are. -/
theorem exists_ofStored (detail : Detail) (hnonempty : nodes ≠ [])
    (hends : EndsListed nodes relationships) :
    ∃ g, ofStored nodes relationships detail = .ok g := by
  obtain ⟨first, rest, rfl⟩ := List.exists_cons_of_ne_nil hnonempty
  have hfirst : (nodeTable detail (first :: rest)).toList ≠ [] := by
    intro hnil
    have hcontains :
        (nodeTable detail (first :: rest)).contains first.id = true :=
      contains_nodeTable.2 ⟨first, List.mem_cons_self, rfl⟩
    obtain ⟨n, hn, -⟩ := Keyed.contains_iff.1 hcontains
    rw [hnil] at hn
    exact List.not_mem_nil hn
  have hfound : ∀ r ∈ (relationTable detail relationships).toList,
      (∃ n ∈ (nodeTable detail (first :: rest)).toList, n.id = r.link.source) ∧
        ∃ n ∈ (nodeTable detail (first :: rest)).toList,
        n.id = r.link.target := by
    intro r hr
    obtain ⟨stored, hstored, rfl⟩ := List.mem_map.1
      (List.mem_of_find?_eq_some (Keyed.mem_ofListKeepFirst.1 hr))
    obtain ⟨hsource, htarget⟩ := hends stored hstored
    exact ⟨Keyed.contains_iff.1 (contains_nodeTable.2 hsource),
      Keyed.contains_iff.1 (contains_nodeTable.2 htarget)⟩
  -- no stored node lists relations, so no listing can be off
  have hempty : ∀ n ∈ (nodeTable detail (first :: rest)).toList,
      n.relations = ∅ := by
    intro n hn
    obtain ⟨stored, -, rfl⟩ := List.mem_map.1
      (List.mem_of_find?_eq_some (Keyed.mem_ofListKeepFirst.1 hn))
    rfl
  obtain ⟨g, hg⟩ := Builder.exists_assemble
    (b := ⟨nodeTable detail (first :: rest), relationTable detail relationships,
      none⟩)
    hfirst rfl hfound hempty
  refine ⟨g, ?_⟩
  rw [ofStored_eq, findSome?_unstoredEnd?_eq_none hends, mapError_eq_ok_iff,
    Builder.build, hg]

/-- Without an unlisted end, there is no other reason to refuse nodes. -/
theorem exists_lookup_of_ofStored {failure : Failure} (hnonempty : nodes ≠ [])
    (h : ofStored nodes relationships detail = .error failure) :
    ∃ fault, failure = .lookup fault := by
  have herror := h
  rw [ofStored_eq] at herror
  split at herror
  · rename_i fault _
    cases herror
    exact ⟨fault, rfl⟩
  · rename_i hfound
    obtain ⟨g, hg⟩ :=
      exists_ofStored detail hnonempty
        (findSome?_unstoredEnd?_eq_none_iff.1 hfound)
    rw [hg] at h
    cases h

/-- The ends of all relationships in a graph are listed. -/
theorem ends_of_ofStored (h : ofStored nodes relationships detail = .ok g) :
    EndsListed nodes relationships := by
  rw [ofStored_eq] at h
  split at h
  · cases h
  · rename_i hfound
    exact findSome?_unstoredEnd?_eq_none_iff.1 hfound

end Graph

/-! ## The graph of a row -/

namespace Row

variable {nodes : List StoredNode} {relationships : List StoredRelationship}
  {detail : Detail} {row : Row} {failure : Failure}

/-- The graph of the elements of a row; none if there are none.  The columns are
read already. -/
def graphOf (nodes : List StoredNode) (relationships : List StoredRelationship)
    (detail : Detail) :
    Except Failure (Option Graph) :=
  match nodes, relationships with
  | [], [] => .ok none
  | [], first :: _ => .error (.lookup ⟨first.id, first.source⟩)
  | _, _ => some <$> Graph.ofStored nodes relationships detail

theorem graph?_eq_bind (row : Row) (detail : Detail) : row.graph? detail =
    row.storedNodes.mapError .decode >>= fun nodes =>
      row.storedRelationships.mapError .decode >>= fun relationships =>
        graphOf nodes relationships detail := rfl

theorem graphOf_of_ne_nil (hnonempty : nodes ≠ []) :
    graphOf nodes relationships detail =
      some <$> Graph.ofStored nodes relationships detail := by
  cases nodes with
  | nil => exact absurd rfl hnonempty
  | cons n rest => rfl

/-- Elements are accepted iff all ends are listed; then there is a graph iff
there is a node. -/
theorem graphOf_eq_ok_iff {graph : Option Graph} :
    graphOf nodes relationships detail = .ok graph ↔
      EndsListed nodes relationships ∧
        ((nodes = [] ∧ graph = none) ∨
          nodes ≠ [] ∧
          ∃ g, graph = some g ∧
          Graph.ofStored nodes relationships detail = .ok g) := by
  by_cases hempty : nodes = []
  · subst hempty
    rw [endsListed_nil_iff]
    cases relationships with
    | nil => simp [graphOf, eq_comm]
    | cons r rest =>
      exact iff_of_false (fun h => nomatch h) fun h => nomatch h.1
  · rw [graphOf_of_ne_nil hempty]
    cases hgraph : Graph.ofStored nodes relationships detail with
    | error failure =>
      constructor
      · intro h
        cases h
      · rintro ⟨-, ⟨hnil, -⟩ | ⟨-, g, -, hg⟩⟩
        · exact absurd hnil hempty
        · cases hg
    | ok g =>
      constructor
      · intro h
        cases h
        exact ⟨Graph.ends_of_ofStored hgraph, .inr ⟨hempty, g, rfl, rfl⟩⟩
      · rintro ⟨-, ⟨hnil, -⟩ | ⟨-, g', rfl, hg⟩⟩
        · exact absurd hnil hempty
        · cases hg
          rfl

/-- Elements are refused for an end that is not listed. -/
theorem exists_lookup_of_graphOf
    (h : graphOf nodes relationships detail = .error failure) :
    ∃ fault, failure = .lookup fault := by
  by_cases hempty : nodes = []
  · subst hempty
    cases relationships with
    | nil => cases h
    | cons r rest =>
      cases h
      exact ⟨_, rfl⟩
  · rw [graphOf_of_ne_nil hempty] at h
    cases hgraph : Graph.ofStored nodes relationships detail with
    | error first =>
      rw [hgraph] at h
      cases h
      exact Graph.exists_lookup_of_ofStored hempty hgraph
    | ok g =>
      rw [hgraph] at h
      cases h

/-- The graph of a row is that of its elements, and there is none without
elements. -/
theorem graph?_eq (detail : Detail) (hnodes : row.storedNodes = .ok nodes)
    (hrelationships : row.storedRelationships = .ok relationships)
    (hends : EndsListed nodes relationships) :
    (nodes = [] ∧ row.graph? detail = .ok none) ∨
      (nodes ≠ [] ∧ ∃ g, row.graph? detail = .ok (some g) ∧
        Graph.ofStored nodes relationships detail = .ok g) := by
  have hgraph : row.graph? detail = graphOf nodes relationships detail := by
    rw [graph?_eq_bind, hnodes, hrelationships]
    rfl
  by_cases hempty : nodes = []
  · exact .inl ⟨hempty,
      hgraph.trans (graphOf_eq_ok_iff.2 ⟨hends, .inl ⟨hempty, rfl⟩⟩)⟩
  · obtain ⟨g, hg⟩ := Graph.exists_ofStored detail hempty hends
    exact .inr ⟨hempty, g,
      hgraph.trans (graphOf_eq_ok_iff.2 ⟨hends, .inr ⟨hempty, g, rfl, hg⟩⟩), hg⟩

/-- A row has a graph iff its columns are read and what they hold is
accepted. -/
theorem graph?_eq_ok_iff {graph : Option Graph} :
    row.graph? detail = .ok graph ↔ ∃ nodes, row.storedNodes = .ok nodes ∧
      ∃ relationships, row.storedRelationships = .ok relationships ∧
        graphOf nodes relationships detail = .ok graph := by
  simp only [graph?_eq_bind, bind_eq_ok_iff, mapError_eq_ok_iff]

/-- A row without a graph is refused for a column or for an end that is
not listed. -/
theorem graph?_eq_error (h : row.graph? detail = .error failure) :
    (∃ fault, failure = .decode fault) ∨ ∃ fault, failure = .lookup fault := by
  simp only [graph?_eq_bind, bind_eq_error_iff, mapError_eq_error_iff] at h
  rcases h with ⟨fault, -, rfl⟩ | ⟨nodes, -,
    ⟨fault, -, rfl⟩ | ⟨relationships, -, h⟩⟩
  · exact .inl ⟨fault, rfl⟩
  · exact .inl ⟨fault, rfl⟩
  · exact .inr (exists_lookup_of_graphOf h)

end Row

end DrawnPattern
