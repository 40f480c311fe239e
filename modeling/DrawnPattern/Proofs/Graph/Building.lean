import DrawnPattern.Drawing
import DrawnPattern.Proofs.Failing
import DrawnPattern.Proofs.Keyed
set_option autoImplicit false

/-!
# What building yields

Nodes with distinct numbers are gathered without a fault (`foldl_addNode`), and
so are relations.  When the ends of all relations are among the nodes and no
node lists anything of its own, assembly succeeds (`exists_assemble`); the graph
has the relations as they were given and the nodes with their relations attached
(`eq_of_assemble`).
-/

namespace DrawnPattern.Graph.Builder

variable {b : Builder} {g : Graph} {nodes : NodeTable}
  {relations : RelationTable}

/-! ## Gathering -/

/-- Nodes with new and distinct numbers are stored one after the other. -/
theorem foldl_addNode {new : List Node} :
    ∀ {b : Builder}, (new.map Node.id).Nodup →
    (∀ n ∈ new, b.nodes.contains n.id = false) →
      new.foldl addNode b = { b with
        nodes := new.foldl Keyed.put b.nodes } := by
  induction new with
  | nil =>
    intro b _ _
    rfl
  | cons n rest ih =>
    intro b hnodup hnew
    obtain ⟨hn, hrest⟩ := List.nodup_cons.1 hnodup
    have hadd : b.addNode n = { b with nodes := b.nodes.put n } := by
      rw [addNode, hnew n List.mem_cons_self]
      rfl
    rw [List.foldl_cons, hadd, ih hrest]
    · rfl
    · intro m hm
      apply Keyed.contains_put_eq_false (hnew m (List.mem_cons_of_mem _ hm))
      intro heq
      exact hn (List.mem_map.2 ⟨m, hm, heq.symm⟩)

/-- Relations with new and distinct numbers are stored one after the other. -/
theorem foldl_addRelation {new : List Relation} :
    ∀ {b : Builder}, (new.map Relation.id).Nodup →
      (∀ r ∈ new, b.relations.contains r.id = false) →
      new.foldl addRelation b = { b with
        relations := new.foldl Keyed.put b.relations } := by
  induction new with
  | nil =>
    intro b _ _
    rfl
  | cons r rest ih =>
    intro b hnodup hnew
    obtain ⟨hr, hrest⟩ := List.nodup_cons.1 hnodup
    have hadd :
        b.addRelation r = { b with relations := b.relations.put r } := by
      rw [addRelation, hnew r List.mem_cons_self]
      rfl
    rw [List.foldl_cons, hadd, ih hrest]
    · rfl
    · intro q hq
      apply Keyed.contains_put_eq_false (hnew q (List.mem_cons_of_mem _ hq))
      intro heq
      exact hr (List.mem_map.2 ⟨q, hq, heq.symm⟩)

/-- Tables are gathered as they are, so that what is told of a builder holds of
tables that are complete already. -/
theorem foldl_toLists (nodes : NodeTable) (relations : RelationTable) :
    relations.toList.foldl addRelation (nodes.toList.foldl addNode {}) =
    ⟨nodes, relations, none⟩ := by
  have hnodes : nodes.toList.foldl addNode {} =
      { nodes := Keyed.ofList nodes.toList } :=
    foldl_addNode (Keyed.keys_nodup nodes) fun _ _ => rfl
  rw [hnodes, foldl_addRelation (Keyed.keys_nodup relations) fun _ _ => rfl,
    Keyed.ofList_toList]
  show Builder.mk nodes (Keyed.ofList relations.toList) none = _
  rw [Keyed.ofList_toList]

/-! ## Assembling -/

/-- What an assembled graph is made of. -/
theorem eq_of_assemble (h : b.assemble = .ok g) :
    g.nodes = attached b.nodes b.relations ∧ g.relations = b.relations := by
  unfold assemble at h
  split at h
  · split at h
    · cases h
    · split at h
      · cases h
      · split at h
        · cases h
        · cases h
          exact ⟨rfl, rfl⟩
  · cases h

/-- What a built graph is made of. -/
theorem eq_of_build {connectivity : Connectivity}
    (h : b.build connectivity = .ok g) :
    g.nodes = attached b.nodes b.relations ∧ g.relations = b.relations := by
  unfold build at h
  split at h
  · cases h
  · rename_i hassemble
    refine eq_of_assemble ?_
    split at h
    · rw [hassemble]
      exact h
    · split at h
      · rw [hassemble]
        exact h
      · cases h

theorem isConnected_of_build (h : b.build .required = .ok g) :
    g.isConnected = true := by
  unfold build at h
  split at h
  · cases h
  · simp only at h
    split at h
    · rename_i hconnected
      cases h
      exact hconnected
    · cases h

/-- Attaching relations leaves everything else of a node alone. -/
theorem attachTo_traits (relations : List Relation) (n : Node) :
    (attachTo relations n).traits = n.traits := by
  unfold attachTo
  generalize relations.filter (fun r => r.link.touches n.id) = new
  induction new generalizing n with
  | nil => rfl
  | cons r rest ih => exact ih (n.attach r.id)

/-- Attachment keeps which numbers go with which traits; only what the nodes
list may grow. -/
theorem exists_mem_attached_iff {id : NodeId} {t : Traits} :
    (∃ n ∈ (attached nodes relations).toList, n.id = id ∧ n.traits = t) ↔
      ∃ n ∈ nodes.toList, n.id = id ∧ n.traits = t := by
  constructor
  · rintro ⟨n, hn, rfl, rfl⟩
    obtain ⟨m, hm, rfl⟩ := List.mem_map.1 hn
    exact ⟨m, hm, (attachTo_id _ m).symm, (attachTo_traits _ m).symm⟩
  · rintro ⟨n, hn, rfl, rfl⟩
    exact ⟨_, List.mem_map_of_mem hn, attachTo_id _ n, attachTo_traits _ n⟩

theorem firstMissingEnd?_eq_none (hends : ∀ r ∈ relations.toList,
      (∃ n ∈ nodes.toList, n.id = r.link.source) ∧
      ∃ n ∈ nodes.toList, n.id = r.link.target) :
    firstMissingEnd? nodes relations = none := by
  apply List.findSome?_eq_none_iff.2
  intro r hr
  obtain ⟨hsource, htarget⟩ := hends r hr
  rw [missingEnd?, Keyed.contains_iff.2 hsource, Keyed.contains_iff.2 htarget]
  rfl

/-- Nodes that list nothing of their own list nothing wrong after attachment. -/
theorem firstBadListing?_eq_none
    (hempty : ∀ n ∈ nodes.toList, n.relations = ∅) :
    firstBadListing? (attached nodes relations) relations = none := by
  refine List.findSome?_eq_none_iff.2 fun n hn =>
    List.findSome?_eq_none_iff.2 fun id hid => ?_
  obtain ⟨m, hm, rfl⟩ := List.mem_map.1 hn
  rw [mem_attachTo, hempty m hm] at hid
  rcases hid with hid | ⟨r, hr, htouches, rfl⟩
  · exact absurd hid List.not_mem_nil
  · rw [badListing?, Keyed.find?_key hr, attachTo_id]
    simp only [htouches, if_true]

theorem exists_assemble (hnonempty : b.nodes.toList ≠ [])
    (hrepeated : b.repeated = none)
    (hends : ∀ r ∈ b.relations.toList,
      (∃ n ∈ b.nodes.toList, n.id = r.link.source) ∧
      ∃ n ∈ b.nodes.toList, n.id = r.link.target)
    (hempty : ∀ n ∈ b.nodes.toList, n.relations = ∅) :
    ∃ g, b.assemble = .ok g := by
  have hfilled : b.nodes.isEmpty = false := by
    rw [Keyed.isEmpty, List.isEmpty_eq_false_iff]
    exact hnonempty
  unfold assemble
  rw [dif_pos hfilled]
  split
  · rename_i hgap
    rw [hrepeated] at hgap
    cases hgap
  · split
    · rename_i hgap
      rw [firstMissingEnd?_eq_none hends] at hgap
      cases hgap
    · split
      · rename_i hgap
        rw [firstBadListing?_eq_none hempty] at hgap
        cases hgap
      · exact ⟨_, rfl⟩

end DrawnPattern.Graph.Builder

namespace DrawnPattern.Graph

theorem exists_of_isOk {x : Except GraphFault Graph} (h : x.isOk = true) :
    ∃ g, x = .ok g :=
  exists_ok_of_isOk h

/-- A graph that passes a test, found by computing it, so that examples need not
spell a graph out. -/
theorem exists_of_any {x : Except GraphFault Graph} {P : Graph → Bool}
    (h : x.toOption.any P = true) : ∃ g, x = .ok g ∧ P g = true := by
  cases x with
  | error fault => cases h
  | ok g => exact ⟨g, rfl, h⟩

/-- A graph that had to be connected is connected. -/
theorem isConnected_of_ofLists {nodes : List Node} {relations : List Relation}
    {g : Graph} (h : Graph.ofLists nodes relations .required = .ok g) :
    g.isConnected = true :=
  Builder.isConnected_of_build h

end DrawnPattern.Graph
