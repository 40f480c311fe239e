import DrawnPattern.Proofs.Catalog.Reading
import DrawnPattern.Proofs.Graph.Incidence
import DrawnPattern.Proofs.Replay.Session
set_option autoImplicit false

/-!
# From catalogs to recorded rows and back

What is known of a database (`Inventory`) can be written down as the rows of the
catalog queries (`Listing.responses`).  A replay that recorded these rows, in
whatever order, yields the catalog that the inventory tells of
(`retrieve_recorded`): nothing is found under the query of another name, and
every name comes out of its decoration as it went in.
-/

namespace DrawnPattern

/-! ## Schemas -/

/-- A node as the database stores it, under its number and with the label that
it has, if any. -/
def Node.stored (n : Node) : StoredNode :=
  ⟨n.id, n.traits.label.toList, n.traits.properties⟩

/-- A relation as the database stores it, directed and with its
label as type. -/
def Relation.stored (r : Relation) : StoredRelationship :=
  ⟨r.id, r.link.source, r.link.target, r.link.traits.label.getD "",
    r.link.traits.properties⟩

/-- Whether a relation is stored as it is: directed and with a type, as every
stored relationship is. -/
def Relation.Storable (r : Relation) : Prop :=
  r.link.directed = true ∧ r.link.traits.label ≠ none

/-- A node without its properties. -/
def Node.bare (n : Node) : Node := { n with traits := ⟨n.traits.label, ∅⟩ }

/-- A relation without its properties. -/
def Relation.bare (r : Relation) : Relation :=
  { r with link := { r.link with traits := ⟨r.link.traits.label, ∅⟩ } }

namespace Graph

theorem consistent_bare (g : Graph) :
    Consistent (g.nodes.map Node.bare fun _ => rfl)
    (g.relations.map Relation.bare fun _ => rfl) where
  nonempty := by
    show g.nodes.toList.map Node.bare ≠ []
    simpa using g.consistent.nonempty
  source_mem := by
    intro r hr
    obtain ⟨q, hq, rfl⟩ := List.mem_map.1 hr
    obtain ⟨n, hn, hid⟩ := g.consistent.source_mem q hq
    exact ⟨n.bare, List.mem_map_of_mem hn, hid⟩
  target_mem := by
    intro r hr
    obtain ⟨q, hq, rfl⟩ := List.mem_map.1 hr
    obtain ⟨n, hn, hid⟩ := g.consistent.target_mem q hq
    exact ⟨n.bare, List.mem_map_of_mem hn, hid⟩
  listed_iff := by
    intro n hn id
    obtain ⟨m, hm, rfl⟩ := List.mem_map.1 hn
    refine (g.consistent.listed_iff m hm id).trans ?_
    constructor
    · rintro ⟨r, hr, hid, htouches⟩
      exact ⟨r.bare, List.mem_map_of_mem hr, hid, htouches⟩
    · rintro ⟨r, hr, hid, htouches⟩
      obtain ⟨q, hq, rfl⟩ := List.mem_map.1 hr
      exact ⟨q, hq, hid, htouches⟩

/-- The graph without the properties of its elements, which is all that a schema
shows of them. -/
def bare (g : Graph) : Graph := ⟨_, _, g.consistent_bare⟩

variable {g : Graph} {nodes : List StoredNode}
  {relationships : List StoredRelationship}

theorem node_stored (n : Node) :
    n.stored.node .schema = { n.bare with relations := ∅ } := by
  obtain ⟨id, ⟨label, properties⟩, relations⟩ := n
  cases label <;> rfl

theorem relation_stored {r : Relation} (h : r.Storable) :
    r.stored.relation .schema = r.bare := by
  obtain ⟨id, source, target, directed, label, properties⟩ := r
  obtain ⟨hdirected, hlabel⟩ := h
  cases label with
  | none => exact absurd rfl hlabel
  | some type =>
    simp only at hdirected
    subst hdirected
    rfl

/-- The stored elements of a graph make it again, without properties, if each of
its relations is stored as it is. -/
theorem ofStored_stored
    (hnodes : ∀ n, n ∈ nodes ↔ ∃ m ∈ g.nodes.toList, m.stored = n)
    (hrelationships : ∀ r, r ∈ relationships ↔ ∃ q ∈ g.relations.toList,
      q.stored = r)
    (hstorable : ∀ r ∈ g.relations.toList, r.Storable) :
    ofStored nodes relationships .schema = .ok g.bare := by
  -- ids determine what is listed, so keeping the first of each id loses nothing
  have hinj_nodes : ∀ a ∈ nodes, ∀ b ∈ nodes, a.id = b.id → a = b := by
    intro a ha b hb hid
    obtain ⟨m, hm, rfl⟩ := (hnodes a).1 ha
    obtain ⟨n, hn, rfl⟩ := (hnodes b).1 hb
    rw [Keyed.eq_of_key_eq hm hn hid]
  have hinj_relationships : ∀ a ∈ relationships, ∀ b ∈ relationships,
      a.id = b.id → a = b := by
    intro a ha b hb hid
    obtain ⟨q, hq, rfl⟩ := (hrelationships a).1 ha
    obtain ⟨r, hr, rfl⟩ := (hrelationships b).1 hb
    rw [Keyed.eq_of_key_eq hq hr hid]
  have hfilled : nodes ≠ [] :=
    List.ne_nil_of_mem ((hnodes _).2 ⟨_, g.first_mem, rfl⟩)
  have hends : EndsListed nodes relationships := by
    intro r hr
    obtain ⟨q, hq, rfl⟩ := (hrelationships r).1 hr
    obtain ⟨m, hm, hsource⟩ := g.consistent.source_mem q hq
    obtain ⟨n, hn, htarget⟩ := g.consistent.target_mem q hq
    exact ⟨⟨_, (hnodes _).2 ⟨m, hm, rfl⟩, hsource⟩, _,
      (hnodes _).2 ⟨n, hn, rfl⟩, htarget⟩
  obtain ⟨made, hmade⟩ := exists_ofStored .schema hfilled hends
  rw [hmade]
  refine congrArg Except.ok (ext_traits (fun id traits => ?_) fun r => ?_)
  · rw [exists_mem_nodes_iff hmade hinj_nodes]
    constructor
    · rintro ⟨n, hn, hid, htraits⟩
      obtain ⟨m, hm, rfl⟩ := (hnodes n).1 hn
      rw [node_stored] at htraits
      exact ⟨m.bare, List.mem_map_of_mem hm, hid, htraits⟩
    · rintro ⟨n, hn, hid, htraits⟩
      obtain ⟨m, hm, rfl⟩ := List.mem_map.1 hn
      refine ⟨m.stored, (hnodes _).2 ⟨m, hm, rfl⟩, hid, ?_⟩
      rw [node_stored]
      exact htraits
  · rw [mem_relations_iff hmade hinj_relationships]
    constructor
    · rintro ⟨s, hs, rfl⟩
      obtain ⟨q, hq, rfl⟩ := (hrelationships s).1 hs
      rw [relation_stored (hstorable q hq)]
      exact List.mem_map_of_mem hq
    · intro hr
      obtain ⟨q, hq, rfl⟩ := List.mem_map.1 hr
      exact ⟨q.stored, (hrelationships _).2 ⟨q, hq, rfl⟩,
        relation_stored (hstorable q hq)⟩

end Graph

namespace Catalog

/-! ## Inventories -/

/-- What is known of a database: how often its labels and types occur, which
properties go with them, and its schema. -/
structure Inventory where
  nodeCounts : Map String Nat := ∅
  relationCounts : Map String Nat := ∅
  totalNodes : Nat := 0
  totalRelations : Nat := 0
  /-- labels with typed properties, as they are listed -/
  nodeProperties : List (String × List (String × String)) := []
  /-- relationship types with typed properties, as they are listed -/
  relationProperties : List (String × List (String × String)) := []
  /-- missing for an empty database -/
  schema : Option Graph := none
  storable : ∀ g ∈ schema, ∀ r ∈ g.relations.toList, r.Storable

/-- Whether a catalog tells of an inventory what it should: all counts, of each
property the type that is listed first, and the schema without properties. -/
structure Tells (c : Catalog) (i : Inventory) : Prop where
  nodeCounts_eq : c.nodeCounts = i.nodeCounts
  relationCounts_eq : c.relationCounts = i.relationCounts
  totalNodes_eq : c.totalNodes = i.totalNodes
  totalRelations_eq : c.totalRelations = i.totalRelations
  nodeProperties : FirstTypes i.nodeProperties c.nodeProperties
  relationProperties : FirstTypes i.relationProperties c.relationProperties
  schema_eq : c.schema = i.schema.map Graph.bare

/-! ## Rows -/

/-- The row of a label or type. -/
def nameRow (name : String) : Row := Map.insert ∅ labelColumn (.string name)

/-- The row of a count. -/
def countRow (count : Nat) : Row := Map.insert ∅ countColumn (.int count)

/-- The row of a label or type with its properties. -/
def typesRow (typeColumn : String) (entry : String × List (String × String)) :
    Row :=
  Map.insert (Map.insert ∅ typeColumn (.string (decorate entry.1)))
    propertiesColumn
    (.list (entry.2.map typedPair))

/-- The row of a schema. -/
def schemaRow (nodes : List StoredNode)
    (relationships : List StoredRelationship) : Row :=
  Map.insert (Map.insert ∅ Query.nodesColumn (.list (nodes.map .node)))
    Query.relationshipsColumn
    (.list (relationships.map .relationship))

/-- A way to write down an inventory: names and schema elements in some order,
perhaps repeated. -/
structure Listing (i : Inventory) where
  labels : List String
  types : List String
  nodes : List StoredNode
  relationships : List StoredRelationship
  mem_labels : ∀ label, label ∈ labels ↔ label ∈ i.nodeCounts.keys
  mem_types : ∀ type, type ∈ types ↔ type ∈ i.relationCounts.keys
  mem_nodes : ∀ n, n ∈ nodes ↔ ∃ g ∈ i.schema, ∃ m ∈ g.nodes.toList,
    m.stored = n
  mem_relationships : ∀ r,
    r ∈ relationships ↔ ∃ g ∈ i.schema, ∃ q ∈ g.relations.toList, q.stored = r

variable {i : Inventory}

/-- The rows of each fixed query. -/
def Listing.fixedResponses (l : Listing i) : List (String × List Row) :=
  [(labelsQuery, l.labels.map nameRow),
    (relationTypesQuery, l.types.map nameRow),
    (totalNodesQuery, [countRow i.totalNodes]),
    (totalRelationsQuery, [countRow i.totalRelations]),
    (nodePropertiesQuery, i.nodeProperties.map (typesRow nodeTypeColumn)),
    (relationPropertiesQuery,
      i.relationProperties.map (typesRow relationTypeColumn)),
    (schemaQuery, [schemaRow l.nodes l.relationships])]

/-- The rows of each catalog query, under its text: those of the fixed queries,
and one count for each name. -/
def Listing.responses (l : Listing i) : List (String × List Row) :=
  l.fixedResponses ++
  i.nodeCounts.toList.map
    (fun entry => (nodeCountQuery entry.1, [countRow entry.2])) ++
  i.relationCounts.toList.map fun entry =>
    (relationCountQuery entry.1, [countRow entry.2])

/-- The replay that recorded some responses, one after the other.  Where a text
is recorded twice, the later rows count. -/
def recorded (responses : List (String × List Row)) : Replay :=
  responses.foldl (fun db response => db.withResponse response.1 response.2) {}

/-! ## Recording -/

theorem recorded_eq (responses : List (String × List Row)) :
    recorded responses =
    { fixture := { responses := Keyed.ofList responses } } := by
  have hfold : ∀ (responses : List (String × List Row)) (db : Replay),
      responses.foldl (fun db response =>
        db.withResponse response.1 response.2) db =
        { db with fixture := { db.fixture with
          responses := responses.foldl Keyed.put db.fixture.responses } } := by
    intro responses
    induction responses with
    | nil => exact fun _ => rfl
    | cons response rest ih => exact fun db => ih _
  exact hfold responses {}

/-- What was recorded once is read. -/
theorem read_recorded {responses : List (String × List Row)} {query : String}
    {rows : List Row} (hnodup : (responses.map Prod.fst).Nodup)
    (hmem : (query, rows) ∈ responses) :
    (recorded responses).fixture.read query = .ok rows := by
  have hfound : Map.get? (Keyed.ofList responses : Map String (List Row))
      query = some rows := by
    rw [Map.get?,
      Keyed.find?_eq_some_iff.2
        ⟨(Keyed.mem_ofList_of_nodup hnodup).2 hmem, rfl⟩]
    rfl
  rw [recorded_eq, Fixture.read, hfound]
  rfl

/-- No two responses are recorded under one query, so each is found again, in
whatever order they were recorded. -/
theorem Listing.nodup_responses (l : Listing i) :
    (l.responses.map Prod.fst).Nodup := by
  have hqueries : l.responses.map Prod.fst = fixedQueries ++
      i.nodeCounts.keys.map nodeCountQuery ++
      i.relationCounts.keys.map relationCountQuery := by
    simp only [Listing.responses, List.map_append, List.map_map, Keyed.keys]
    rfl
  rw [hqueries]
  exact nodup_queries (Keyed.keys_nodup i.nodeCounts)
    (Keyed.keys_nodup i.relationCounts)

/-! ## Reading back -/

/-- Listed names are the keys of the counts. -/
theorem readNames_of_listed {read : Reader} {query : String}
    {counts : Map String Nat} {names : List String}
    (hread : read query = .ok (names.map nameRow))
    (hnames : ∀ name, name ∈ names ↔ name ∈ counts.keys) :
    readNames read query = .ok counts.keys := by
  refine readNames_eq_ok_iff.2 ⟨_, names, hread, ?_, ?_⟩
  · rw [List.forall₂_map_left_iff, List.forall₂_same]
    exact fun name _ => by rw [nameRow, Map.get?_insert, if_pos rfl]
  · refine Map.keys_eq_toList_iff.2 fun name => ?_
    rw [OrderedSet.mem_ofList_iff, hnames]

theorem readCount_of_row {read : Reader} {query : String} {count : Nat}
    (hread : read query = .ok [countRow count]) :
    readCount read query = .ok count :=
  readCount_eq_ok_iff.2 ⟨_, hread,
    by rw [countRow, Map.get?_insert, if_pos rfl]⟩

/-- Typed properties are read under the names that were decorated. -/
theorem readProperties_of_rows {read : Reader} {query typeColumn : String}
    {entries : List (String × List (String × String))}
    (hcolumn : propertiesColumn ≠ typeColumn)
    (hread : read query = .ok (entries.map (typesRow typeColumn))) :
    readProperties read query typeColumn =
    .ok (entries.foldl addPropertyRow ∅) := by
  refine readProperties_eq_ok_iff.2 ⟨_, entries, hread, ?_, rfl⟩
  rw [List.forall₂_map_left_iff, List.forall₂_same]
  intro entry _
  refine propertyRow_eq_ok_iff.2 ⟨decorate entry.1, ?_,
    (undecorate_decorate entry.1).symm, ?_⟩
  · rw [typesRow, Map.get?_insert, if_neg hcolumn, Map.get?_insert, if_pos rfl]
  · rw [typesRow, Map.get?_insert, if_pos rfl]

/-- The elements of a schema are accepted, and their properties left out. -/
theorem graphOf_stored {schema : Option Graph} {nodes : List StoredNode}
    {relationships : List StoredRelationship}
    (hnodes : ∀ n, n ∈ nodes ↔ ∃ g ∈ schema, ∃ m ∈ g.nodes.toList, m.stored = n)
    (hrelationships : ∀ r,
      r ∈ relationships ↔ ∃ g ∈ schema, ∃ q ∈ g.relations.toList, q.stored = r)
    (hstorable : ∀ g ∈ schema, ∀ r ∈ g.relations.toList, r.Storable) :
    Row.graphOf nodes relationships .schema = .ok (schema.map Graph.bare) := by
  cases schema with
  | none =>
    have hnone : nodes = [] ∧ relationships = [] := by
      simp only [List.eq_nil_iff_forall_not_mem, hnodes, hrelationships]
      simp
    rw [hnone.1, hnone.2]
    rfl
  | some g =>
    simp only [Option.mem_some_iff, exists_eq_left'] at hnodes hrelationships
    have hfilled : nodes ≠ [] :=
      List.ne_nil_of_mem ((hnodes _).2 ⟨_, g.first_mem, rfl⟩)
    rw [Row.graphOf_of_ne_nil hfilled,
      Graph.ofStored_stored hnodes hrelationships (hstorable g rfl)]
    rfl

/-- A schema is read without its properties. -/
theorem graph?_schemaRow (l : Listing i) :
    (schemaRow l.nodes l.relationships).graph? .schema =
    .ok (i.schema.map Graph.bare) := by
  refine Row.graph?_eq_ok_iff.2 ⟨l.nodes, Row.storedNodes_eq_ok_iff.2 ?_,
    l.relationships, Row.storedRelationships_eq_ok_iff.2 ?_,
    graphOf_stored l.mem_nodes l.mem_relationships i.storable⟩
  · rw [schemaRow, Map.get?_insert, if_neg (by decide), Map.get?_insert,
      if_pos rfl]
  · rw [schemaRow, Map.get?_insert, if_pos rfl]

/-- The catalog that an inventory tells of. -/
def Inventory.catalog (i : Inventory) : Catalog where
  nodeCounts := i.nodeCounts
  relationCounts := i.relationCounts
  nodeProperties := i.nodeProperties.foldl addPropertyRow ∅
  relationProperties := i.relationProperties.foldl addPropertyRow ∅
  totalNodes := i.totalNodes
  totalRelations := i.totalRelations
  schema := i.schema.map Graph.bare

/-- Where each query has its rows, the catalog is retrieved, whatever else is
recorded beside them. -/
theorem retrieve_of_responses (l : Listing i) {read : Reader}
    (hread : ∀ response ∈ l.responses, read response.1 = .ok response.2) :
    retrieve read = .ok i.catalog := by
  have hfixed : ∀ response ∈ l.fixedResponses,
      read response.1 = .ok response.2 :=
    fun response h =>
      hread response (List.mem_append_left _ (List.mem_append_left _ h))
  simp only [Listing.fixedResponses, List.forall_mem_cons] at hfixed
  obtain ⟨hlabels, htypes, hnodes, hrelations, hnodeTypes, hrelationTypes,
    hschema, -⟩ := hfixed
  refine retrieve_eq_ok_iff.2 ⟨_, _, _,
    readNames_of_listed hlabels l.mem_labels,
    readNames_of_listed htypes l.mem_types,
    readCounts_eq_ok fun entry hentry => ?_,
    readCounts_eq_ok fun entry hentry => ?_, readCount_of_row hnodes,
    readCount_of_row hrelations, readProperties_of_rows (by decide) hnodeTypes,
    readProperties_of_rows (by decide) hrelationTypes, hschema,
    graph?_schemaRow l⟩
  · refine readCount_of_row (hread (nodeCountQuery entry.1, _) ?_)
    exact List.mem_append_left _
      (List.mem_append_right _ (List.mem_map_of_mem hentry))
  · refine readCount_of_row (hread (relationCountQuery entry.1, _) ?_)
    exact List.mem_append_right _ (List.mem_map_of_mem hentry)

/-- What was recorded of an inventory is retrieved, whatever its names are and
in whatever order it was recorded.  No name can make two queries one, since they
are told apart by their texts. -/
theorem retrieve_recorded (i : Inventory) (l : Listing i)
    (responses : List (String × List Row)) (h : responses.Perm l.responses) :
    QueriesApart ∧ ∃ c, (ofReplay (recorded responses)).1 = .ok c ∧
    c.Tells i := by
  have hread : ∀ response ∈ l.responses,
      (recorded responses).fixture.read response.1 = .ok response.2 :=
    fun response hmem =>
      read_recorded ((h.map Prod.fst).nodup_iff.2 l.nodup_responses)
      (h.mem_iff.2 hmem)
  have hverified : (recorded responses).verify = .ok () := by
    rw [recorded_eq]
    rfl
  refine ⟨queriesApart, i.catalog, ?_,
    ⟨rfl, rfl, rfl, rfl, firstTypes_foldl _, firstTypes_foldl _, rfl⟩⟩
  rw [ofReplay, Replay.inSession_eq, hverified]
  exact retrieve_of_responses l hread

/-- No name, a backtick and a text that closes a query, with properties listed
twice and a schema that has properties; recorded from the end. -/
theorem retrieve_recorded_odd_names :
    ∃ (g : Graph) (i : Inventory) (l : Listing i),
    Graph.ofLists
      [{ id := -1,
         traits := ⟨some "\x60", Map.insert ∅ "name" (.string "\x60")⟩ }]
      [⟨-1, ⟨-1, -1, true, ⟨some "", ∅⟩⟩⟩] .unchecked = .ok g ∧
    i.nodeCounts.toList =
      [("", 3), (") RETURN count(n) AS count", 0), ("\x60", 2)] ∧
    i.relationCounts.toList = [("", 1)] ∧
    i.nodeProperties = [("\x60", [("p", "Long"), ("p", "String")]), ("", []),
      ("\x60", [("q", "Float"), ("p", "Double")])] ∧
    i.schema = some g ∧
      l.labels = ["\x60", "", ") RETURN count(n) AS count", ""] ∧
    l.responses.reverse.Perm l.responses ∧
    QueriesApart ∧ ∃ c, (ofReplay (recorded l.responses.reverse)).1 = .ok c ∧
        c.Tells i := by
  refine Exists.imp (fun g hg => ?_) (Graph.exists_of_isOk (x := Graph.ofLists
    [{ id := -1,
       traits := ⟨some "\x60", Map.insert ∅ "name" (.string "\x60")⟩ }]
    [⟨-1, ⟨-1, -1, true, ⟨some "", ∅⟩⟩⟩] .unchecked) (by decide))
  have hstorable : ∀ g' ∈ some g, ∀ r ∈ g'.relations.toList, r.Storable := by
    rintro _ ⟨⟩
    rw [(Graph.Builder.eq_of_build hg).2]
    unfold Relation.Storable
    decide
  let i : Inventory :=
    { nodeCounts :=
        ⟨[("", 3), (") RETURN count(n) AS count", 0), ("\x60", 2)], by decide⟩
      relationCounts := ⟨[("", 1)], by decide⟩
      totalNodes := 5
      totalRelations := 1
      nodeProperties := [("\x60", [("p", "Long"), ("p", "String")]), ("", []),
        ("\x60", [("q", "Float"), ("p", "Double")])]
      schema := some g
      storable := hstorable }
  let l : Listing i :=
    { labels := ["\x60", "", ") RETURN count(n) AS count", ""]
      types := [""]
      nodes := g.nodes.toList.map Node.stored
      relationships := g.relations.toList.map Relation.stored
      mem_labels := by
        simp only [i, Keyed.keys, List.map_cons, List.map_nil, List.mem_cons]
        tauto
      mem_types := by simp [i, Keyed.keys]
      mem_nodes := by simp [i]
      mem_relationships := by simp [i] }
  have hperm : l.responses.reverse.Perm l.responses := List.reverse_perm _
  exact ⟨i, l, hg, rfl, rfl, rfl, rfl, rfl, hperm,
    retrieve_recorded i l _ hperm⟩

end Catalog

end DrawnPattern
