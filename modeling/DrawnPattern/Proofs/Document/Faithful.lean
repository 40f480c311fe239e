import DrawnPattern.Document.Drawing
import DrawnPattern.Document.Fixture
import DrawnPattern.Document.Query
import DrawnPattern.Proofs.Json.Parts
import DrawnPattern.Proofs.Keyed
set_option autoImplicit false

/-!
# Documents that are read as what was written

A way to read a type is faithful to a way to write it if what is written is read
as the same value (`Faithful`), as long as the numbers in it can be given back
at all (`Number.Plain`).  This passes from the parts to lists, maps and
structures, and so holds of every type that documents are made of.
-/

namespace DrawnPattern

/-- Whether a number can be given back by a document: an integer of 64 bits with
a sign, or a finite double. -/
def Number.Plain : Number → Prop
  | .int i => -0x8000000000000000 ≤ i ∧ i ≤ 0x7fffffffffffffff
  | .float x => x.isFinite = true

instance (n : Number) : Decidable n.Plain :=
  match n with
  | .int i =>
    inferInstanceAs (Decidable (-0x8000000000000000 ≤ i ∧
      i ≤ 0x7fffffffffffffff))
  | .float x => inferInstanceAs (Decidable (x.isFinite = true))

namespace Document

variable {α β : Type} {decode : Decoder α} {encode : α → Json} {j : Json}
  {members : List (String × Json)} {reading : Reading}

/-- Whether all numbers in a value can be given back; the other parts of a value
always can. -/
def Plain (j : Json) : Prop := ∀ n ∈ j.numbers, n.Plain

instance (j : Json) : Decidable (Plain j) :=
  inferInstanceAs (Decidable (∀ n ∈ j.numbers, n.Plain))

theorem Plain.part {c : Json} (h : Plain j) (hpart : Json.Part c j) : Plain c :=
  fun n hn => h n (hpart.mem_numbers hn)

theorem Plain.item {items : List Json} (h : Plain (.arr items)) :
    ∀ c ∈ items, Plain c :=
  fun _ hc => h.part (.item hc)

theorem Plain.member (h : Plain (.obj members)) : ∀ m ∈ members, Plain m.2 :=
  fun _ hm => h.part (.member hm)

/-- Whether a value is written so that it is read again, with nothing in the
document that cannot be held by whoever reads it. -/
structure Returned (decode : Decoder α) (encode : α → Json) (a : α) : Prop where
  decoded : decode (encode a) = some a
  readable : (encode a).readable = true

/-- Whether every value is read again from what was written, if its numbers can
be given back.  Each type of document is proved faithful from its parts. -/
def Faithful (decode : Decoder α) (encode : α → Json) : Prop :=
  ∀ a, Plain (encode a) → Returned decode encode a

/-! ## Scalars -/

theorem faithful_string : Faithful string? .str := fun _ _ => ⟨rfl, rfl⟩

theorem faithful_int : Faithful int? ofInt := by
  intro i h
  have hi : (Number.int i).Plain := h _ List.mem_cons_self
  exact ⟨if_pos hi, rfl⟩

theorem faithful_label : Faithful label? ofLabel := by
  intro label _
  cases label with
  | none => exact ⟨rfl, rfl⟩
  | some s => exact ⟨rfl, rfl⟩

/-! ## Lists and maps -/

/-- Reading each of some written items undoes the writing, if it does so for
each of them. -/
theorem mapM_map_eq_some {write : α → β} {read : β → Option α} {items : List α}
    (h : ∀ a ∈ items, read (write a) = some a) :
    (items.map write).mapM read = some items := by
  induction items with
  | nil => rfl
  | cons a rest ih =>
    rw [List.map_cons, List.mapM_cons, h a List.mem_cons_self,
      ih fun b hb => h b (List.mem_cons_of_mem _ hb)]
    rfl

theorem readable_arr {items : List Json} (h : ∀ j ∈ items, j.readable = true) :
    (Json.arr items).readable = true := by
  rw [Json.readable]
  exact Json.readableItems_iff.2 h

theorem readable_obj (h : ∀ m ∈ members, m.2.readable = true) :
    (Json.obj members).readable = true := by
  rw [Json.readable]
  exact Json.readableMembers_iff.2 h

theorem Faithful.list (h : Faithful decode encode) :
    Faithful (list? decode) (ofList encode) := by
  intro items hplain
  have hitems : ∀ a ∈ items, Returned decode encode a :=
    fun a ha => h a (hplain.item _ (List.mem_map_of_mem ha))
  refine ⟨mapM_map_eq_some fun a ha => (hitems a ha).decoded, readable_arr ?_⟩
  exact List.forall_mem_map.2 fun a ha => (hitems a ha).readable

/-- A map is written in the order of its names, so it is read as the
same map. -/
theorem Faithful.map (h : Faithful decode encode) :
    Faithful (map? decode) (ofMap encode) := by
  intro m hplain
  have hentries : ∀ entry ∈ m.toList, Returned decode encode entry.2 :=
    fun entry hentry => h entry.2 (hplain.member _ (List.mem_map_of_mem hentry))
  have hread : (m.toList.map fun entry => (entry.1, encode entry.2)).mapM
      (fun member => do pure (member.1, ← decode member.2)) =
      some m.toList := by
    refine mapM_map_eq_some fun entry hentry => ?_
    simp [(hentries entry hentry).decoded]
  constructor
  · show (m.toList.map fun entry => (entry.1, encode entry.2)).mapM
      (fun member => do pure (member.1, ← decode member.2)) >>=
        (fun entries => some (.ofList entries)) = some m
    rw [hread]
    simp [Keyed.ofList_toList]
  · exact readable_obj (List.forall_mem_map.2 fun entry hentry =>
      (hentries entry hentry).readable)

/-! ## Values -/

theorem faithful_value (reading : Reading) :
    Faithful (value? reading) ofValue := by
  intro v hplain
  cases v with
  | null => exact ⟨rfl, rfl⟩
  | bool b => exact ⟨rfl, rfl⟩
  | float x => exact ⟨rfl, rfl⟩
  | string s => exact ⟨rfl, rfl⟩
  | int i =>
    have hint :=
      faithful_int i
        (hplain.part (.member (List.mem_cons_of_mem _ List.mem_cons_self)))
    refine ⟨?_, rfl⟩
    show Value.int <$> int? (ofInt i) = _
    rw [hint.decoded]
    rfl

theorem faithful_properties (reading : Reading) :
    Faithful (properties? reading) ofProperties :=
  (faithful_value reading).map

/-! ## Rows -/

theorem faithful_storedNode (reading : Reading) :
    Faithful (storedNode? reading) ofStoredNode := by
  intro n hplain
  have hid := faithful_int n.id (hplain.member ("id", ofInt n.id) (by simp))
  have hlabels := faithful_string.list n.labels
    (hplain.member ("labels", ofList .str n.labels) (by simp))
  have hproperties := faithful_properties reading n.properties
    (hplain.member ("properties", ofProperties n.properties) (by simp))
  constructor
  · show (do
      let id ← int? (ofInt n.id)
      let labels ← list? string? (ofList .str n.labels)
      let properties ← properties? reading (ofProperties n.properties)
      pure (StoredNode.mk id labels properties)) = some n
    rw [hid.decoded, hlabels.decoded, hproperties.decoded]
    rfl
  · apply readable_obj
    simp [hid.readable, hlabels.readable, hproperties.readable]

theorem faithful_storedRelationship (reading : Reading) :
    Faithful (storedRelationship? reading) ofStoredRelationship := by
  intro r hplain
  have hid := faithful_int r.id (hplain.member ("id", ofInt r.id) (by simp))
  have hsource :=
    faithful_int r.source (hplain.member ("start", ofInt r.source) (by simp))
  have htarget :=
    faithful_int r.target (hplain.member ("end", ofInt r.target) (by simp))
  have hproperties := faithful_properties reading r.properties
    (hplain.member ("properties", ofProperties r.properties) (by simp))
  constructor
  · show (do
      let id ← int? (ofInt r.id)
      let source ← int? (ofInt r.source)
      let target ← int? (ofInt r.target)
      let properties ← properties? reading (ofProperties r.properties)
      pure (StoredRelationship.mk id source target r.type properties)) = some r
    rw [hid.decoded, hsource.decoded, htarget.decoded, hproperties.decoded]
    rfl
  · apply readable_obj
    simp [Json.readable, hid.readable, hsource.readable, htarget.readable,
      hproperties.readable]

theorem ofCells_eq_map (items : List Cell) :
    ofCells items = items.map ofCell := by
  induction items with
  | nil => rfl
  | cons c rest ih => rw [ofCells, ih, List.map_cons]

theorem ofCell_cellOfValue (v : Value) :
    ofCell (cellOfValue v) = ofValue v := by
  cases v <;> rfl

/-- A scalar is read in a cell as it is elsewhere. -/
theorem cell?_ofValue (reading : Reading) (v : Value) :
    cell? reading (ofValue v) = cellOfValue <$> value? reading (ofValue v) := by
  cases v <;> rw [cell?] <;> rfl

theorem cell?_list (reading : Reading) (items : List Json) :
    cell? reading (ofTagged "List" (.arr items)) = .list <$>
    items.mapM (cell? reading) := by
  rw [cell?]
  show Cell.list <$> _ = _
  simp

theorem cell?_node (reading : Reading) (content : Json) :
    cell? reading (ofTagged "Node" content) = .node <$>
    storedNode? reading content := by
  rw [cell?]
  rfl

theorem cell?_relationship (reading : Reading) (content : Json) :
    cell? reading (ofTagged "Relationship" content) =
      .relationship <$> storedRelationship? reading content := by
  rw [cell?]
  rfl

theorem Plain.content {tag : String} {content : Json}
    (h : Plain (ofTagged tag content)) :
    Plain content := h.member ("v", content) (by simp)

theorem readable_ofTagged (tag : String) {content : Json}
    (h : content.readable = true) :
    (ofTagged tag content).readable = true := by
  apply readable_obj
  simp [Json.readable, h]

theorem returned_scalar {v : Value} (hplain : Plain (ofValue v)) :
    Returned (cell? reading) ofCell (cellOfValue v) := by
  have hvalue := faithful_value reading v hplain
  constructor
  · rw [ofCell_cellOfValue, cell?_ofValue, hvalue.decoded]
    rfl
  · rw [ofCell_cellOfValue]
    exact hvalue.readable

/-- A list is read cell by cell, so the induction is along the cells; what is
nested has fewer of them. -/
theorem faithful_cell (reading : Reading) :
    Faithful (cell? reading) ofCell := by
  intro c hplain
  match c with
  | .null => exact returned_scalar (v := .null) hplain
  | .bool b => exact returned_scalar (v := .bool b) hplain
  | .int i => exact returned_scalar (v := .int i) hplain
  | .float x => exact returned_scalar (v := .float x) hplain
  | .string s => exact returned_scalar (v := .string s) hplain
  | .node n =>
    have hnode := faithful_storedNode reading n hplain.content
    constructor
    · rw [ofCell, cell?_node, hnode.decoded]
      rfl
    · exact readable_ofTagged "Node" hnode.readable
  | .relationship r =>
    have hrelationship := faithful_storedRelationship reading r hplain.content
    constructor
    · rw [ofCell, cell?_relationship, hrelationship.decoded]
      rfl
    · exact readable_ofTagged "Relationship" hrelationship.readable
  | .list items =>
    rw [ofCell, ofCells_eq_map] at hplain
    have hitems : ∀ c ∈ items, Returned (cell? reading) ofCell c :=
      fun c hc =>
        faithful_cell reading c (hplain.content.item _ (List.mem_map_of_mem hc))
    constructor
    · rw [ofCell, ofCells_eq_map, cell?_list, mapM_map_eq_some fun c hc =>
        (hitems c hc).decoded]
      rfl
    · rw [ofCell, ofCells_eq_map]
      apply readable_ofTagged
      exact readable_arr (List.forall_mem_map.2 fun c hc =>
        (hitems c hc).readable)
termination_by c => sizeOf c
decreasing_by
  have hsize := List.sizeOf_lt_of_mem hc
  simp only [Cell.list.sizeOf_spec]
  omega

theorem faithful_row : Faithful row? ofRow := (faithful_cell .direct).map

/-! ## Nodes, relations and drawings -/

theorem traits?_ofTraits (reading : Reading) (fields : Fields) {traits : Traits}
    (hlabel : fields.lookup "label" = some (ofLabel traits.label))
    (hproperties : fields.lookup "properties" =
      some (ofProperties traits.properties))
    (hplain : Plain (ofProperties traits.properties)) :
    traits? reading fields = some traits := by
  have hlabelled :=
    (faithful_label traits.label (by cases traits.label <;> nofun)).decoded
  have hread := (faithful_properties reading traits.properties hplain).decoded
  rw [traits?, withDefault, withDefault, hlabel, hproperties]
  simp [hlabelled, hread]

theorem readable_ofLabel (label : Option String) :
    (ofLabel label).readable = true := by
  cases label <;> rfl

theorem faithful_ids : Faithful ids? fun ids => ofList ofInt ids.toList := by
  intro ids hplain
  have hids := faithful_int.list ids.toList hplain
  refine ⟨?_, hids.readable⟩
  rw [ids?, hids.decoded]
  simp [Keyed.ofList_toList]

theorem faithful_node : Faithful node? ofNode := by
  intro n hplain
  have hid := faithful_int n.id (hplain.member ("id", ofInt n.id) (by simp))
  have hproperties :=
    hplain.member ("properties", ofProperties n.traits.properties)
    (by simp [ofTraits])
  have hids := faithful_ids n.relations
    (hplain.member ("relations", ofList ofInt n.relations.toList) (by simp))
  have hreadable : (ofNode n).readable = true := by
    apply readable_obj
    simp [ofTraits, readable_ofLabel, hid.readable, hids.readable,
      (faithful_properties .held _ hproperties).readable]
  refine ⟨?_, hreadable⟩
  have hfields : objectFields? ["id", "label", "properties",
      "relations"] (ofNode n) =
      some (("id", ofInt n.id) :: ofTraits n.traits ++
        [("relations", ofList ofInt n.relations.toList)]) := by
    rw [ofNode, objectFields?, ← ofNode, if_pos hreadable]
    rfl
  have htraits :=
    traits?_ofTraits .held (("id", ofInt n.id) :: ofTraits n.traits ++
    [("relations", ofList ofInt n.relations.toList)]) rfl rfl hproperties
  rw [node?, hfields]
  show (do
    let id ← int? (ofInt n.id)
    let traits ← traits? .held (("id", ofInt n.id) :: ofTraits n.traits ++
      [("relations", ofList ofInt n.relations.toList)])
    let relations ← ids? (ofList ofInt n.relations.toList)
    pure (Node.mk id traits relations)) = some n
  rw [hid.decoded, htraits, hids.decoded]
  rfl

theorem faithful_relation : Faithful relation? ofRelation := by
  intro r hplain
  have hid := faithful_int r.id (hplain.member ("id", ofInt r.id) (by simp))
  have hsource := faithful_int r.link.source
    (hplain.member ("start", ofInt r.link.source) (by simp))
  have htarget :=
    faithful_int r.link.target
      (hplain.member ("end", ofInt r.link.target) (by simp))
  have hproperties :=
    hplain.member ("properties", ofProperties r.link.traits.properties)
    (by simp [ofTraits])
  have hreadable : (ofRelation r).readable = true := by
    apply readable_obj
    simp [ofTraits, Json.readable, readable_ofLabel, hid.readable,
      hsource.readable, htarget.readable,
      (faithful_properties .held _ hproperties).readable]
  refine ⟨?_, hreadable⟩
  have hfields : objectFields? ["id", "label", "properties", "start",
      "end", "directed"]
      (ofRelation r) = some (("id", ofInt r.id) :: ofTraits r.link.traits ++
        [("start", ofInt r.link.source), ("end", ofInt r.link.target),
          ("directed", .bool r.link.directed)]) := by
    rw [ofRelation, objectFields?, ← ofRelation, if_pos hreadable]
    rfl
  have htraits :=
    traits?_ofTraits .held (("id", ofInt r.id) :: ofTraits r.link.traits ++
    [("start", ofInt r.link.source), ("end", ofInt r.link.target),
      ("directed", .bool r.link.directed)]) rfl rfl hproperties
  rw [relation?, hfields]
  show (do
    let id ← int? (ofInt r.id)
    let source ← int? (ofInt r.link.source)
    let target ← int? (ofInt r.link.target)
    let traits ← traits? .held (("id", ofInt r.id) :: ofTraits r.link.traits ++
      [("start", ofInt r.link.source), ("end", ofInt r.link.target),
        ("directed", .bool r.link.directed)])
    pure (Relation.mk id (Link.mk source target r.link.directed traits))) =
      some r
  rw [hid.decoded, hsource.decoded, htarget.decoded, htraits]
  rfl

theorem faithful_vertex : Faithful vertex? ofVertex := by
  intro v hplain
  have hproperties :=
    hplain.member ("properties", ofProperties v.traits.properties)
    (by simp [ofTraits])
  constructor
  · show (do
      let traits ← traits? .direct (("key", .str v.key) :: ofTraits v.traits)
      pure (Vertex.mk v.key traits)) = some v
    rw [traits?_ofTraits .direct _ rfl rfl hproperties]
    rfl
  · apply readable_obj
    simp [ofTraits, Json.readable, readable_ofLabel,
      (faithful_properties .direct _ hproperties).readable]

theorem faithful_edge : Faithful edge? ofEdge := by
  intro e hplain
  have hproperties :=
    hplain.member ("properties", ofProperties e.traits.properties)
    (by simp [ofTraits])
  constructor
  · show (do
      let traits ← traits? .direct ([("start", .str e.source),
        ("end", .str e.target),
        ("directed", .bool e.directed)] ++ ofTraits e.traits)
      pure (Edge.mk e.source e.target e.directed traits)) = some e
    rw [traits?_ofTraits .direct _ rfl rfl hproperties]
    rfl
  · apply readable_obj
    simp [ofTraits, Json.readable, readable_ofLabel,
      (faithful_properties .direct _ hproperties).readable]

theorem faithful_drawing : Faithful drawing? ofDrawing := by
  intro d hplain
  have hvertices := faithful_vertex.list d.vertices
    (hplain.member ("vertices", ofList ofVertex d.vertices) (by simp))
  have hedges := faithful_edge.list d.edges
    (hplain.member ("edges", ofList ofEdge d.edges) (by simp))
  constructor
  · show (do
      let vertices ← list? vertex? (ofList ofVertex d.vertices)
      let edges ← list? edge? (ofList ofEdge d.edges)
      pure (Drawing.mk vertices edges)) = some d
    rw [hvertices.decoded, hedges.decoded]
    rfl
  · apply readable_obj
    simp [hvertices.readable, hedges.readable]

/-! ## Options and fixtures -/

theorem faithful_options : Faithful options? ofOptions := by
  intro o _
  obtain ⟨policy, pruneLabels, nodeStem, relationStem⟩ := o
  cases policy <;> exact ⟨rfl, rfl⟩

theorem faithful_fixture : Faithful fixture? ofFixture := by
  intro f hplain
  have hresponses := faithful_row.list.map f.responses
    (hplain.member ("responses", ofMap (ofList ofRow) f.responses) (by simp))
  constructor
  · show (do
      let responses ← map? (list? row?) (ofMap (ofList ofRow) f.responses)
      pure (Fixture.mk f.unreachable responses)) = some f
    rw [hresponses.decoded]
    rfl
  · apply readable_obj
    simp [Json.readable, hresponses.readable]

end Document

end DrawnPattern
