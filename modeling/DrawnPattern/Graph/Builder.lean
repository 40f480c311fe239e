import DrawnPattern.Graph.Reach
set_option autoImplicit false

/-!
# Building graphs

A builder takes nodes and relations in any order and notes the first number
that is given twice.  `build` then checks, in this order: that there is a node,
that no number was repeated, that every relation ends at nodes, that the
relations a node lists touch it, and, if asked, that the graph is connected.
-/

namespace DrawnPattern

/-- Whether a graph has to be connected: that of a drawing has to be, and that
of a row may fall into pieces. -/
inductive Connectivity where
  | required
  | unchecked
  deriving DecidableEq, Repr

/-- Nodes and relations gathered so far, and the first number that was given
twice.  A second element with a number is not stored. -/
structure Graph.Builder where
  nodes : NodeTable := ∅
  relations : RelationTable := ∅
  repeated : Option Gap := none

namespace Graph.Builder

def addNode (b : Builder) (n : Node) : Builder :=
  if b.nodes.contains n.id then
    { b with repeated := b.repeated <|> some (.repeatedNode n.id) }
  else { b with nodes := b.nodes.put n }

def addRelation (b : Builder) (r : Relation) : Builder :=
  if b.relations.contains r.id then
    { b with repeated := b.repeated <|> some (.repeatedRelation r.id) }
  else { b with relations := b.relations.put r }

/-! ## Checks -/

/-- The end of a relation that is not among the nodes. -/
def missingEnd? (nodes : NodeTable) (r : Relation) : Option Gap :=
  if !nodes.contains r.link.source then some (.missingEnd r.id r.link.source)
  else if !nodes.contains r.link.target then
    some (.missingEnd r.id r.link.target)
  else none

/-- What is wrong with a relation number that a node lists: nothing has that
number, or the relation does not touch the node. -/
def badListing? (relations : RelationTable) (n : Node) (id : RelationId) :
    Option Gap :=
  match relations.find? id with
  | some r =>
    if r.link.touches n.id then none else some (.strangeListing n.id id)
  | none => some (.unknownListing n.id id)

/-- The node listing also each of the relations that touches it, so that nodes
need not be given with their relations. -/
def attachTo (relations : List Relation) (n : Node) : Node :=
  (relations.filter fun r => r.link.touches n.id).foldl
    (fun n r => n.attach r.id) n

theorem foldl_attach_id (relations : List Relation) (n : Node) :
    (relations.foldl (fun n r => n.attach r.id) n).id = n.id := by
  induction relations generalizing n with
  | nil => rfl
  | cons r rest ih => exact ih (n.attach r.id)

theorem attachTo_id (relations : List Relation) (n : Node) :
    (attachTo relations n).id = n.id :=
  foldl_attach_id _ n

theorem mem_foldl_attach {relations : List Relation} {n : Node}
    {id : RelationId} :
    id ∈ (relations.foldl (fun n r => n.attach r.id) n).relations.toList ↔
      id ∈ n.relations.toList ∨ ∃ r ∈ relations, r.id = id := by
  induction relations generalizing n with
  | nil => simp
  | cons r rest ih =>
    rw [List.foldl_cons, ih]
    simp only [Node.attach, OrderedSet.mem_put_iff, List.mem_cons,
      exists_eq_or_imp]
    constructor
    · rintro ((rfl | h) | h)
      · exact .inr (.inl rfl)
      · exact .inl h
      · exact .inr (.inr h)
    · rintro (h | rfl | h)
      · exact .inl (.inr h)
      · exact .inl (.inl rfl)
      · exact .inr h

theorem mem_attachTo {relations : List Relation} {n : Node} {id : RelationId} :
    id ∈ (attachTo relations n).relations.toList ↔
      id ∈ n.relations.toList ∨ ∃ r ∈ relations, r.link.touches n.id = true ∧
      r.id = id := by
  simp [attachTo, mem_foldl_attach, and_assoc]

/-- The nodes, each listing the relations that touch it. -/
def attached (nodes : NodeTable) (relations : RelationTable) : NodeTable :=
  nodes.map (attachTo relations.toList) (attachTo_id _)

/-- The first relation with a missing end, in order of their numbers. -/
def firstMissingEnd? (nodes : NodeTable) (relations : RelationTable) :
    Option Gap :=
  relations.toList.findSome? (missingEnd? nodes)

/-- The first bad listing, in order of the nodes and then of their relations. -/
def firstBadListing? (nodes : NodeTable) (relations : RelationTable) :
    Option Gap :=
  nodes.toList.findSome? fun n =>
    n.relations.toList.findSome? (badListing? relations n)

theorem consistent_attached {nodes : NodeTable} {relations : RelationTable}
    (nonempty : nodes.isEmpty = false)
    (ends : firstMissingEnd? nodes relations = none)
    (listings : firstBadListing? (attached nodes relations) relations = none) :
    Consistent (attached nodes relations) relations := by
  have there : ∀ id, nodes.contains id = true →
      ∃ n ∈ (attached nodes relations).toList, n.id = id := by
    intro id h
    obtain ⟨n, hn, rfl⟩ := Keyed.contains_iff.1 h
    exact ⟨_, List.mem_map_of_mem hn, attachTo_id _ n⟩
  have both : ∀ r ∈ relations.toList,
      nodes.contains r.link.source = true ∧
      nodes.contains r.link.target = true := by
    intro r hr
    have h := List.findSome?_eq_none_iff.1 ends r hr
    unfold missingEnd? at h
    by_cases hs : nodes.contains r.link.source <;>
      by_cases ht : nodes.contains r.link.target <;>
      simp_all
  refine ⟨?_, fun r hr => there _ (both r hr).1,
    fun r hr => there _ (both r hr).2, ?_⟩
  · simpa [attached, Keyed.map, Keyed.isEmpty] using nonempty
  · intro n hn id
    constructor
    · intro hid
      have h :=
        List.findSome?_eq_none_iff.1
          (List.findSome?_eq_none_iff.1 listings n hn) id hid
      unfold badListing? at h
      split at h
      · rename_i r hfind
        obtain ⟨hr, hrid⟩ := Keyed.mem_of_find? hfind
        exact ⟨r, hr, hrid, by simpa using h⟩
      · simp at h
    · rintro ⟨r, hr, rfl, htouch⟩
      obtain ⟨m, -, rfl⟩ := List.mem_map.1 hn
      rw [attachTo_id] at htouch
      exact mem_attachTo.2 (.inr ⟨r, hr, htouch, rfl⟩)

/-! ## Building -/

/-- The graph of what was gathered, connected or not; the first fault in the
order of the checks decides. -/
def assemble (b : Builder) : Except GraphFault Graph :=
  if nonempty : b.nodes.isEmpty = false then
    match b.repeated with
    | some gap => .error (.incomplete gap)
    | none =>
      match ends : firstMissingEnd? b.nodes b.relations with
      | some gap => .error (.incomplete gap)
      | none =>
        match listings :
            firstBadListing? (attached b.nodes b.relations) b.relations with
        | some gap => .error (.incomplete gap)
        | none =>
          .ok ⟨attached b.nodes b.relations, b.relations,
            consistent_attached nonempty ends listings⟩
  else .error .empty

/-- The graph of what was gathered.  That it is connected is asked last, when
the graph is there already. -/
def build (b : Builder) (connectivity : Connectivity) :
    Except GraphFault Graph :=
  match b.assemble with
  | .error fault => .error fault
  | .ok g =>
    match connectivity with
    | .unchecked => .ok g
    | .required =>
      if g.isConnected then .ok g
      else .error (.disconnected g.first.id g.unreached g.nodes.size)

end Graph.Builder

/-- The graph of some nodes and relations. -/
def Graph.ofLists (nodes : List Node) (relations : List Relation)
    (connectivity : Connectivity) :
    Except GraphFault Graph :=
  (relations.foldl Builder.addRelation (nodes.foldl Builder.addNode {})).build
    connectivity

end DrawnPattern
