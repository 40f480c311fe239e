import DrawnPattern.Proofs.Graph.Incidence
import DrawnPattern.Proofs.Row.Reading
set_option autoImplicit false

/-!
# What stored elements come to

Stored elements make a graph iff there is a node and every relationship,
repeated ones too, ends at listed nodes.  The graph keeps the first element with
each id (`Graph.Keeps`).  Otherwise the first relationship that does not end at
listed nodes is to blame, or there is nothing at all (`Graph.StoredOutcome`).
The graph of a row is that of its elements in every case but the last, where it
is none (`Graph.outcome_of_stored`).
-/

namespace DrawnPattern

/-- The end of a relationship that is not listed; of two such ends
the source. -/
def UnlistedEnd (nodes : List StoredNode) (r : StoredRelationship)
    (id : Int) : Prop :=
  ((¬∃ n ∈ nodes, n.id = r.source) ∧ id = r.source) ∨
    ((∃ n ∈ nodes, n.id = r.source) ∧ (¬∃ n ∈ nodes, n.id = r.target) ∧
      id = r.target)

/-- The fault of the first relationship that does not end at listed nodes, in
the order in which they are listed. -/
def FirstUnlisted (nodes : List StoredNode)
    (relationships : List StoredRelationship) (fault : LookupFault) : Prop :=
  ∃ before r after, relationships = before ++ r :: after ∧
    EndsListed nodes before ∧
    UnlistedEnd nodes r fault.node ∧ fault.relation = r.id

namespace Graph

/-- Whether a graph has, under each id, the first of some stored elements. -/
structure Keeps (g : Graph) (nodes : List StoredNode)
    (relationships : List StoredRelationship) (detail : Detail) : Prop where
  /-- a node with the first of its labels, if it has one -/
  node?_eq : ∀ id,
    (g.node? id).map Node.traits = (nodes.find? (·.id == id)).map fun n =>
      ⟨n.labels.head?, if detail = .result then n.properties else ∅⟩
  /-- a relation that is directed, with its type -/
  relation?_eq : ∀ id,
    g.relation? id = (relationships.find? (·.id == id)).map fun r =>
      ⟨r.id, r.source, r.target, true, some r.type,
        if detail = .result then r.properties else ∅⟩
  /-- of relationships with one id, only the first is listed by nodes -/
  listed_iff : ∀ n ∈ g.nodes.toList, ∀ id, id ∈ n.relations.toList ↔
    ∃ r, relationships.find? (·.id == id) = some r ∧
    (r.source = n.id ∨ r.target = n.id)

/-- An outcome where it is no fault that there is nothing; all other
faults stay. -/
def noneIfEmpty : Except Failure Graph → Except Failure (Option Graph)
  | .ok g => .ok (some g)
  | .error (.graph .empty) => .ok none
  | .error failure => .error failure

/-- What some stored elements come to, by themselves and in a row; the two
differ only where there are no elements. -/
structure StoredOutcome (nodes : List StoredNode)
    (relationships : List StoredRelationship) (detail : Detail) : Prop where
  ok_iff : (∃ g, ofStored nodes relationships detail = .ok g) ↔
    nodes ≠ [] ∧ EndsListed nodes relationships
  keeps : ∀ g, ofStored nodes relationships detail = .ok g →
    g.Keeps nodes relationships detail
  lookup_iff : ∀ fault,
    ofStored nodes relationships detail = .error (.lookup fault) ↔
    FirstUnlisted nodes relationships fault
  empty_iff : ofStored nodes relationships detail = .error (.graph .empty) ↔
    nodes = [] ∧ relationships = []
  /-- there are no other faults -/
  fault : ∀ failure, ofStored nodes relationships detail = .error failure →
    failure = .graph .empty ∨ ∃ fault, failure = .lookup fault
  row : ∀ row : Row,
    Map.get? row Query.nodesColumn = some (.list (nodes.map .node)) →
    Map.get? row Query.relationshipsColumn =
    some (.list (relationships.map .relationship)) →
      row.graph? detail = noneIfEmpty (ofStored nodes relationships detail)

variable {nodes : List StoredNode} {relationships : List StoredRelationship}
  {detail : Detail} {g : Graph}

/-! ## What is kept -/

theorem keep_eq (detail : Detail) (properties : Properties) :
    detail.keep properties = if detail = .result then properties else ∅ := by
  cases detail <;> rfl

/-- A graph of stored elements keeps the first with each id, and what its nodes
list are the relationships that were kept. -/
theorem keeps_of_ofStored (h : ofStored nodes relationships detail = .ok g) :
    g.Keeps nodes relationships detail where
  node?_eq id := by
    simp only [node?_ofStored h, StoredNode.node, keep_eq]
  relation?_eq id := by
    simp only [relation?_ofStored h, StoredRelationship.relation, keep_eq]
  listed_iff n hn id := by
    have hkept : ∀ q, (q ∈ g.relations.toList ∧ q.id = id) ↔
        ∃ r, relationships.find? (·.id == id) = some r ∧
        r.relation detail = q := by
      intro q
      rw [← relation?_eq_some_iff, relation?_ofStored h, Option.map_eq_some_iff]
    rw [g.consistent.listed_iff n hn]
    simp only [← and_assoc, hkept, Link.touches_iff]
    constructor
    · rintro ⟨_, ⟨r, hfind, rfl⟩, hends⟩
      exact ⟨r, hfind, hends⟩
    · rintro ⟨r, hfind, hends⟩
      exact ⟨_, ⟨r, hfind, rfl⟩, hends⟩

/-! ## What is refused -/

theorem unstoredEnd?_eq_some_iff {r : StoredRelationship}
    {fault : LookupFault} :
    unstoredEnd? (nodeTable detail nodes) r = some fault ↔
      UnlistedEnd nodes r fault.node ∧ fault.relation = r.id := by
  obtain ⟨relation, node⟩ := fault
  have hlisted : ∀ id, (∃ n ∈ nodes, n.id = id) ↔
      (nodeTable detail nodes).contains id = true :=
    fun _ => contains_nodeTable.symm
  simp only [unstoredEnd?, UnlistedEnd, hlisted]
  cases (nodeTable detail nodes).contains r.source <;>
    cases (nodeTable detail nodes).contains r.target <;>
    simp [eq_comm, and_comm]

/-- The first end that is not found is that of the first relationship
with one. -/
theorem findSome?_unstoredEnd?_eq_some_iff {fault : LookupFault} :
    relationships.findSome? (unstoredEnd? (nodeTable detail nodes)) =
    some fault ↔
      FirstUnlisted nodes relationships fault := by
  simp only [List.findSome?_eq_some_iff, unstoredEnd?_eq_some_iff,
    ← List.findSome?_eq_none_iff, findSome?_unstoredEnd?_eq_none_iff,
    FirstUnlisted]
  grind

theorem ofStored_eq_lookup_iff {fault : LookupFault} :
    ofStored nodes relationships detail = .error (.lookup fault) ↔
      FirstUnlisted nodes relationships fault := by
  have hfirst :
      relationships.findSome? (unstoredEnd? (nodeTable detail nodes)) =
        some fault ↔ FirstUnlisted nodes relationships fault :=
    findSome?_unstoredEnd?_eq_some_iff
  rw [ofStored_eq, ← hfirst]
  split
  · rename_i first hfound
    simp [hfound]
  · rename_i hfound
    simp [hfound, mapError_eq_error_iff]

theorem ofStored_nil (detail : Detail) :
    ofStored [] [] detail = .error (.graph .empty) := rfl

theorem ofStored_eq_empty_iff :
    ofStored nodes relationships detail = .error (.graph .empty) ↔
      nodes = [] ∧ relationships = [] := by
  constructor
  · intro h
    have hnodes : nodes = [] := by
      by_contra hnonempty
      obtain ⟨fault, ⟨⟩⟩ := exists_lookup_of_ofStored hnonempty h
    subst hnodes
    refine ⟨rfl, endsListed_nil_iff.1 ?_⟩
    rw [ofStored_eq] at h
    split at h
    · cases h
    · rename_i hfound
      exact findSome?_unstoredEnd?_eq_none_iff.1 hfound
  · rintro ⟨rfl, rfl⟩
    exact ofStored_nil detail

/-- Stored elements are refused for an end that is not listed, or as there
are none. -/
theorem ofStored_eq_error {failure : Failure}
    (h : ofStored nodes relationships detail = .error failure) :
    failure = .graph .empty ∨ ∃ fault, failure = .lookup fault := by
  by_cases hempty : nodes = [] ∧ relationships = []
  · rw [ofStored_eq_empty_iff.2 hempty] at h
    cases h
    exact .inl rfl
  · right
    by_cases hnodes : nodes = []
    · subst hnodes
      obtain ⟨r, rest, rfl⟩ := List.exists_cons_of_ne_nil fun hnone =>
        hempty ⟨rfl, hnone⟩
      cases h
      exact ⟨_, rfl⟩
    · exact exists_lookup_of_ofStored hnodes h

/-! ## In a row -/

/-- In a row, elements come to what they come to by themselves, unless there
are none. -/
theorem graphOf_eq_noneIfEmpty (nodes : List StoredNode)
    (relationships : List StoredRelationship) (detail : Detail) :
    Row.graphOf nodes relationships detail =
      noneIfEmpty (ofStored nodes relationships detail) := by
  by_cases hnodes : nodes = []
  · subst hnodes
    cases relationships with
    | nil => rfl
    | cons r rest => rfl
  · rw [Row.graphOf_of_ne_nil hnodes]
    cases houtcome : ofStored nodes relationships detail with
    | ok g => rfl
    | error failure =>
      obtain ⟨fault, rfl⟩ := exists_lookup_of_ofStored hnodes houtcome
      rfl

/-- Whatever is stored comes to its graph or to the fault that it calls for, and
does so in every row that holds it. -/
theorem outcome_of_stored (nodes : List StoredNode)
    (relationships : List StoredRelationship) (detail : Detail) :
    StoredOutcome nodes relationships detail where
  ok_iff := by
    constructor
    · rintro ⟨g, hg⟩
      refine ⟨?_, ends_of_ofStored hg⟩
      rintro rfl
      obtain rfl := endsListed_nil_iff.1 (ends_of_ofStored hg)
      cases hg
    · rintro ⟨hnonempty, hends⟩
      exact exists_ofStored detail hnonempty hends
  keeps _ := keeps_of_ofStored
  lookup_iff _ := ofStored_eq_lookup_iff
  empty_iff := ofStored_eq_empty_iff
  fault _ := ofStored_eq_error
  row row hnodes hrelationships := by
    rw [Row.graph?_eq_bind, Row.storedNodes_eq_ok hnodes,
      Row.storedRelationships_eq_ok hrelationships, ← graphOf_eq_noneIfEmpty]
    rfl

end Graph

end DrawnPattern
