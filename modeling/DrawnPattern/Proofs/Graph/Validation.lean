import DrawnPattern.Proofs.Graph.Gathering
import DrawnPattern.Proofs.Graph.Incidence
import Mathlib.Data.Option.Basic
set_option autoImplicit false

/-!
# Which additions make a graph

What a builder makes of any additions is told by the additions alone
(`judged_build`).  They make a graph iff there is a node, no number is given
twice, every relation ends at nodes and every node lists relations that touch it
(`Valid`); the graph then has the nodes and relations that were added, and each
node lists the relations that touch it (`GraphOf`).  Otherwise the fault is the
first of a fixed order (`Rejected`).  So neither the order of additions nor what
nodes list in advance shows in a graph.
-/

namespace DrawnPattern.Graph.Builder

variable {adds : List Addition} {b : Builder} {g : Graph} {gap : Gap}
  {r : Relation} {n : Node} {id : Int}

/-! ## What is right and wrong with additions -/

/-- Whether a node with the number is added, at whatever place among the
additions. -/
def IsNode (adds : List Addition) (id : NodeId) : Prop :=
  ∃ n ∈ addedNodes adds, n.id = id

/-- Whether a relation ends at nodes that are added. -/
def EndsInside (adds : List Addition) (r : Relation) : Prop :=
  IsNode adds r.link.source ∧ IsNode adds r.link.target

/-- The end of a relation that is not added; of two such ends the source. -/
def LacksEnd (adds : List Addition) (r : Relation) (id : NodeId) : Prop :=
  (¬IsNode adds r.link.source ∧ id = r.link.source) ∨
    (IsNode adds r.link.source ∧ ¬IsNode adds r.link.target ∧
      id = r.link.target)

/-- Whether a relation is added under the number and touches the node. -/
def Touched (adds : List Addition) (n : Node) (id : RelationId) : Prop :=
  ∃ r ∈ addedRelations adds, r.id = id ∧ r.link.touches n.id = true

/-- What is wrong with a number that a node lists: no relation has it, or the
relation that has it does not touch the node. -/
def BadListing (adds : List Addition) (n : Node) (id : RelationId)
    (gap : Gap) : Prop :=
  ((∀ r ∈ addedRelations adds, r.id ≠ id) ∧ gap = .unknownListing n.id id) ∨
    ((∃ r ∈ addedRelations adds, r.id = id ∧ r.link.touches n.id = false) ∧
      gap = .strangeListing n.id id)

/-- The additions that make a graph.  Each condition is about all of them, so
their order does not matter. -/
structure Valid (adds : List Addition) : Prop where
  nonempty : addedNodes adds ≠ []
  distinct : Distinct adds
  ends : ∀ r ∈ addedRelations adds, EndsInside adds r
  listings : ∀ n ∈ addedNodes adds, ∀ id ∈ n.relations.toList, Touched adds n id

/-- The graph that additions make: their nodes and relations, with each node
listing what touches it. -/
structure GraphOf (adds : List Addition) (g : Graph) : Prop where
  nodes : ∀ id traits, (∃ n ∈ g.nodes.toList, n.id = id ∧ n.traits = traits) ↔
    ∃ n ∈ addedNodes adds, n.id = id ∧ n.traits = traits
  relations : ∀ r, r ∈ g.relations.toList ↔ r ∈ addedRelations adds
  listings : ∀ n ∈ g.nodes.toList, ∀ id, id ∈ n.relations.toList ↔
    Touched adds n id

/-- The fault of additions that make no graph.  Each kind of fault is looked for
only where those before it are absent.  Of repeats the earliest decides, of
other faults of one kind the lowest number. -/
inductive Rejected (adds : List Addition) : GraphFault → Prop where
  | empty (hempty : addedNodes adds = []) : Rejected adds .empty
  | repeated {gap : Gap} (hnonempty : addedNodes adds ≠ [])
    (hrepeat : FirstRepeat adds gap) :
    Rejected adds (.incomplete gap)
  | missingEnd {r : Relation} {id : NodeId} (hnonempty : addedNodes adds ≠ [])
    (hdistinct : Distinct adds) (hr : r ∈ addedRelations adds)
    (hlacks : LacksEnd adds r id)
    (hleast : ∀ s ∈ addedRelations adds, s.id < r.id → EndsInside adds s) :
    Rejected adds (.incomplete (.missingEnd r.id id))
  | badListing {n : Node} {id : RelationId} {gap : Gap}
    (hnonempty : addedNodes adds ≠ [])
    (hdistinct : Distinct adds)
    (hends : ∀ r ∈ addedRelations adds, EndsInside adds r)
    (hn : n ∈ addedNodes adds) (hid : id ∈ n.relations.toList)
    (hbad : BadListing adds n id gap)
    (hleast : ∀ m ∈ addedNodes adds, m.id < n.id →
      ∀ other ∈ m.relations.toList, Touched adds m other)
    (hleastListing : ∀ other ∈ n.relations.toList, other < id →
      Touched adds n other) :
    Rejected adds (.incomplete gap)

/-! ## Checks -/

theorem mem_nodes_gather (h : Distinct adds) :
    n ∈ (gather adds).nodes.toList ↔ n ∈ addedNodes adds := by
  rw [nodes_gather]
  exact Keyed.mem_ofListKeepFirst_of_inj fun m hm n hn =>
    List.inj_on_of_nodup_map h.nodes hm hn

theorem mem_relations_gather (h : Distinct adds) :
    r ∈ (gather adds).relations.toList ↔ r ∈ addedRelations adds := by
  rw [relations_gather]
  exact Keyed.mem_ofListKeepFirst_of_inj fun s hs r hr =>
    List.inj_on_of_nodup_map h.relations hs hr

theorem contains_nodes_gather (adds : List Addition) (id : NodeId) :
    (gather adds).nodes.contains id = true ↔ IsNode adds id := by
  rw [nodes_gather, Keyed.contains_ofListKeepFirst, IsNode]

theorem isEmpty_nodes_gather (adds : List Addition) :
    (gather adds).nodes.isEmpty = true ↔ addedNodes adds = [] := by
  rw [nodes_gather, Keyed.isEmpty, List.isEmpty_iff]
  constructor
  · intro hnone
    refine List.eq_nil_iff_forall_not_mem.2 fun n hn => ?_
    have hcontains :
        (.ofListKeepFirst (addedNodes adds) : NodeTable).contains n.id = true :=
      Keyed.contains_ofListKeepFirst.2 ⟨n, hn, rfl⟩
    rw [Keyed.contains, hnone] at hcontains
    cases hcontains
  · intro hnone
    rw [hnone]
    rfl

theorem missingEnd?_eq_none_iff :
    missingEnd? (gather adds).nodes r = none ↔ EndsInside adds r := by
  rw [missingEnd?, EndsInside, ← contains_nodes_gather, ← contains_nodes_gather]
  cases (gather adds).nodes.contains r.link.source <;>
    cases (gather adds).nodes.contains r.link.target <;> simp

theorem missingEnd?_eq_some_iff : missingEnd? (gather adds).nodes r = some gap ↔
    ∃ id, LacksEnd adds r id ∧ gap = .missingEnd r.id id := by
  simp only [missingEnd?, LacksEnd, ← contains_nodes_gather]
  cases (gather adds).nodes.contains r.link.source <;>
    cases (gather adds).nodes.contains r.link.target <;> simp [eq_comm]

/-- The first missing end is the one of the relation with the lowest number, in
whatever order the relations were added. -/
theorem firstMissingEnd?_eq_some_iff (h : Distinct adds) :
    firstMissingEnd? (gather adds).nodes (gather adds).relations = some gap ↔
      ∃ r ∈ addedRelations adds,
      (∃ id, LacksEnd adds r id ∧ gap = .missingEnd r.id id) ∧
        ∀ s ∈ addedRelations adds, s.id < r.id → EndsInside adds s := by
  simp only [firstMissingEnd?, Keyed.findSome?_eq_some_iff,
    mem_relations_gather h, missingEnd?_eq_some_iff, missingEnd?_eq_none_iff,
    Std.compare_eq_lt]

theorem firstMissingEnd?_eq_none_iff (h : Distinct adds) :
    firstMissingEnd? (gather adds).nodes (gather adds).relations = none ↔
      ∀ r ∈ addedRelations adds, EndsInside adds r := by
  simp only [firstMissingEnd?, List.findSome?_eq_none_iff,
    mem_relations_gather h, missingEnd?_eq_none_iff]

theorem find?_relations_gather (h : Distinct adds) {id : RelationId}
    {r : Relation} :
    (gather adds).relations.find? id = some r ↔ r ∈ addedRelations adds ∧
    r.id = id := by
  rw [Keyed.find?_eq_some_iff, mem_relations_gather h]

theorem badListing?_eq_none_iff (h : Distinct adds) :
    badListing? (gather adds).relations n id = none ↔ Touched adds n id := by
  rw [badListing?, Touched]
  cases hfind : (gather adds).relations.find? id with
  | none =>
    have habsent := Keyed.find?_eq_none_iff.1 hfind
    simp only [mem_relations_gather h] at habsent
    simp only [reduceCtorEq, false_iff]
    rintro ⟨r, hr, hid, -⟩
    exact habsent r hr hid
  | some r =>
    obtain ⟨hr, hid⟩ := (find?_relations_gather h).1 hfind
    simp only [ite_eq_left_iff, reduceCtorEq, imp_false, Bool.not_eq_true,
      Bool.not_eq_false]
    constructor
    · exact fun htouches => ⟨r, hr, hid, htouches⟩
    · rintro ⟨s, hs, hsid, htouches⟩
      rwa [List.inj_on_of_nodup_map h.relations hr hs (hid.trans hsid.symm)]

theorem badListing?_eq_some_iff (h : Distinct adds) :
    badListing? (gather adds).relations n id = some gap ↔
    BadListing adds n id gap := by
  rw [badListing?, BadListing]
  cases hfind : (gather adds).relations.find? id with
  | none =>
    have habsent := Keyed.find?_eq_none_iff.1 hfind
    simp only [mem_relations_gather h] at habsent
    simp only [Option.some.injEq]
    constructor
    · exact fun hgap => .inl ⟨habsent, hgap.symm⟩
    · rintro (⟨-, hgap⟩ | ⟨⟨r, hr, hid, -⟩, -⟩)
      · exact hgap.symm
      · exact absurd hid (habsent r hr)
  | some r =>
    obtain ⟨hr, hid⟩ := (find?_relations_gather h).1 hfind
    simp only
    constructor
    · intro hgap
      split at hgap
      · cases hgap
      · rename_i htouches
        exact .inr ⟨⟨r, hr, hid, Bool.not_eq_true _ ▸ htouches⟩,
          (Option.some.inj hgap).symm⟩
    · rintro (⟨habsent, -⟩ | ⟨⟨s, hs, hsid, htouches⟩, rfl⟩)
      · exact absurd hid (habsent r hr)
      · rw [List.inj_on_of_nodup_map h.relations hs hr (hsid.trans hid.symm)]
          at htouches
        simp [htouches]

/-- What a node lists after attachment is what it listed before and what
touches it. -/
theorem mem_attachTo_gather (h : Distinct adds) :
    id ∈ (attachTo (gather adds).relations.toList n).relations.toList ↔
      id ∈ n.relations.toList ∨ Touched adds n id := by
  simp only [mem_attachTo, mem_relations_gather h, Touched, and_comm]

/-- Attachment changes nothing about what a node lists wrongly. -/
theorem findSome?_badListing?_attachTo (h : Distinct adds) :
    (attachTo (gather adds).relations.toList n).relations.toList.findSome?
        (badListing? (gather adds).relations
          (attachTo (gather adds).relations.toList n)) =
      n.relations.toList.findSome? (badListing? (gather adds).relations n) := by
  have hsame :
      badListing? (gather adds).relations
        (attachTo (gather adds).relations.toList n) =
      badListing? (gather adds).relations n := by
    funext id
    rw [badListing?, badListing?, attachTo_id]
  rw [hsame]
  apply Option.ext
  intro gap
  simp only [Keyed.findSome?_eq_some_iff, mem_attachTo_gather h,
    badListing?_eq_none_iff h]
  constructor
  · rintro ⟨id, hid | htouched, hgap, hleast⟩
    · exact ⟨id, hid, hgap, fun other hother => hleast other (.inl hother)⟩
    · rw [(badListing?_eq_none_iff h).2 htouched] at hgap
      cases hgap
  · rintro ⟨id, hid, hgap, hleast⟩
    refine ⟨id, .inl hid, hgap, fun other hother hlt => ?_⟩
    rcases hother with hother | htouched
    · exact hleast other hother hlt
    · exact htouched

theorem firstBadListing?_attached (h : Distinct adds) :
    firstBadListing? (attached (gather adds).nodes (gather adds).relations)
        (gather adds).relations =
      firstBadListing? (gather adds).nodes (gather adds).relations := by
  rw [firstBadListing?, firstBadListing?, attached, Keyed.map,
    List.findSome?_map]
  congr 1
  funext n
  exact findSome?_badListing?_attachTo h

theorem firstBadListing?_eq_none_iff (h : Distinct adds) :
    firstBadListing? (gather adds).nodes (gather adds).relations = none ↔
      ∀ n ∈ addedNodes adds, ∀ id ∈ n.relations.toList, Touched adds n id := by
  simp only [firstBadListing?, List.findSome?_eq_none_iff, mem_nodes_gather h,
    badListing?_eq_none_iff h]

/-- The first bad listing is the lowest of the node with the lowest number, in
whatever order the nodes were added. -/
theorem firstBadListing?_eq_some_iff (h : Distinct adds) :
    firstBadListing? (gather adds).nodes (gather adds).relations = some gap ↔
      ∃ n ∈ addedNodes adds,
      (∃ id ∈ n.relations.toList, BadListing adds n id gap ∧
        ∀ other ∈ n.relations.toList, other < id → Touched adds n other) ∧
        ∀ m ∈ addedNodes adds, m.id < n.id →
          ∀ other ∈ m.relations.toList, Touched adds m other := by
  simp only [firstBadListing?, Keyed.findSome?_eq_some_iff,
    List.findSome?_eq_none_iff, mem_nodes_gather h, badListing?_eq_some_iff h,
    badListing?_eq_none_iff h, Std.compare_eq_lt, id_eq]

/-! ## The first fault -/

/-- The first fault of what was gathered, in the order in which a builder looks
for faults. -/
def fault? (b : Builder) : Option GraphFault :=
  if b.nodes.isEmpty then some .empty
  else (b.repeated <|> firstMissingEnd? b.nodes b.relations <|>
    firstBadListing? (attached b.nodes b.relations) b.relations).map .incomplete

theorem fault?_of_isEmpty (h : b.nodes.isEmpty = true) :
    b.fault? = some .empty := by
  rw [fault?, if_pos h]

theorem fault?_of_not_isEmpty (h : b.nodes.isEmpty = false) :
    b.fault? = (b.repeated <|> firstMissingEnd? b.nodes b.relations <|>
      firstBadListing? (attached b.nodes b.relations) b.relations).map
      .incomplete := by
  rw [fault?, h]
  rfl

/-- Assembly ends with the first fault that the checks find. -/
theorem assemble_eq_error_iff {fault : GraphFault} :
    b.assemble = .error fault ↔ b.fault? = some fault := by
  unfold assemble
  split
  · rename_i hnodes
    rw [fault?_of_not_isEmpty hnodes]
    split
    · rename_i gap hrepeated
      simp [hrepeated]
    · rename_i hrepeated
      split
      · rename_i gap hends
        simp [hrepeated, hends]
      · rename_i hends
        split
        · rename_i gap hlistings
          simp [hrepeated, hends, hlistings]
        · rename_i hlistings
          simp [hrepeated, hends, hlistings]
  · rename_i hnodes
    rw [fault?_of_isEmpty (Bool.not_eq_false _ ▸ hnodes)]
    simp

/-- Without a fault there is the graph of the tables. -/
theorem assemble_eq_ok_iff : b.assemble = .ok g ↔
    b.fault? = none ∧ g.nodes = attached b.nodes b.relations ∧
    g.relations = b.relations := by
  constructor
  · intro h
    refine ⟨?_, eq_of_assemble h⟩
    cases hfault : b.fault? with
    | none => rfl
    | some fault =>
      rw [assemble_eq_error_iff.2 hfault] at h
      cases h
  · rintro ⟨hnone, hnodes, hrelations⟩
    cases hassemble : b.assemble with
    | error fault =>
      rw [assemble_eq_error_iff.1 hassemble] at hnone
      cases hnone
    | ok g' =>
      obtain ⟨hnodes', hrelations'⟩ := eq_of_assemble hassemble
      rw [Graph.ext (hnodes.trans hnodes'.symm)
        (hrelations.trans hrelations'.symm)]

theorem fault?_gather_eq_none_iff (adds : List Addition) :
    (gather adds).fault? = none ↔ Valid adds := by
  cases hempty : (gather adds).nodes.isEmpty with
  | true =>
    rw [fault?_of_isEmpty hempty]
    refine ⟨fun h => (nomatch h), fun hvalid => ?_⟩
    exact absurd ((isEmpty_nodes_gather adds).1 hempty) hvalid.nonempty
  | false =>
    have hnonempty : addedNodes adds ≠ [] := by
      rw [Ne, ← isEmpty_nodes_gather, hempty]
      exact Bool.false_ne_true
    rw [fault?_of_not_isEmpty hempty, Option.map_eq_none_iff,
      Option.orElse_eq_none, Option.orElse_eq_none, repeated_gather_eq_none_iff]
    constructor
    · rintro ⟨hdistinct, hends, hlistings⟩
      rw [firstBadListing?_attached hdistinct] at hlistings
      exact ⟨hnonempty, hdistinct,
        (firstMissingEnd?_eq_none_iff hdistinct).1 hends,
        (firstBadListing?_eq_none_iff hdistinct).1 hlistings⟩
    · rintro ⟨-, hdistinct, hends, hlistings⟩
      rw [firstBadListing?_attached hdistinct]
      exact ⟨hdistinct, (firstMissingEnd?_eq_none_iff hdistinct).2 hends,
        (firstBadListing?_eq_none_iff hdistinct).2 hlistings⟩

theorem fault?_gather_eq_some_iff (adds : List Addition) {fault : GraphFault} :
    (gather adds).fault? = some fault ↔ Rejected adds fault := by
  cases hempty : (gather adds).nodes.isEmpty with
  | true =>
    have hnone := (isEmpty_nodes_gather adds).1 hempty
    rw [fault?_of_isEmpty hempty]
    constructor
    · rintro ⟨rfl⟩
      exact .empty hnone
    · intro hrejected
      cases hrejected with
      | empty => rfl
      | repeated hnonempty => exact absurd hnone hnonempty
      | missingEnd hnonempty => exact absurd hnone hnonempty
      | badListing hnonempty => exact absurd hnone hnonempty
  | false =>
    have hnonempty : addedNodes adds ≠ [] := by
      rw [Ne, ← isEmpty_nodes_gather, hempty]
      exact Bool.false_ne_true
    rw [fault?_of_not_isEmpty hempty, Option.map_eq_some_iff]
    constructor
    · rintro ⟨gap, hgap, rfl⟩
      rcases (Option.orElse_eq_some _ _ _).1 hgap with hrepeated | ⟨hnone, hgap⟩
      · exact .repeated hnonempty ((repeated_gather_iff adds).1 hrepeated)
      · have hdistinct := (repeated_gather_eq_none_iff adds).1 hnone
        rcases (Option.orElse_eq_some _ _ _).1 hgap with
          hmissing | ⟨hends, hlisting⟩
        · obtain ⟨r, hr, ⟨id, hlacks, rfl⟩, hleast⟩ :=
            (firstMissingEnd?_eq_some_iff hdistinct).1 hmissing
          exact .missingEnd hnonempty hdistinct hr hlacks hleast
        · rw [firstBadListing?_attached hdistinct] at hlisting
          obtain ⟨n, hn, ⟨id, hid, hbad, hleastListing⟩, hleast⟩ :=
            (firstBadListing?_eq_some_iff hdistinct).1 hlisting
          exact .badListing hnonempty hdistinct
            ((firstMissingEnd?_eq_none_iff hdistinct).1 hends) hn hid hbad
            hleast hleastListing
    · intro hrejected
      cases hrejected with
      | empty hnone => exact absurd hnone hnonempty
      | repeated _ hrepeat =>
        rw [(repeated_gather_iff adds).2 hrepeat]
        exact ⟨_, rfl, rfl⟩
      | missingEnd _ hdistinct hr hlacks hleast =>
        have hmissing := (firstMissingEnd?_eq_some_iff hdistinct).2
          ⟨_, hr, ⟨_, hlacks, rfl⟩, hleast⟩
        rw [(repeated_gather_eq_none_iff adds).2 hdistinct, hmissing]
        exact ⟨_, rfl, rfl⟩
      | badListing _ hdistinct hends hn hid hbad hleast hleastListing =>
        have hlisting := (firstBadListing?_eq_some_iff hdistinct).2
          ⟨_, hn, ⟨_, hid, hbad, hleastListing⟩, hleast⟩
        rw [(repeated_gather_eq_none_iff adds).2 hdistinct,
          (firstMissingEnd?_eq_none_iff hdistinct).2 hends,
          firstBadListing?_attached hdistinct, hlisting]
        exact ⟨_, rfl, rfl⟩

/-! ## The graph -/

/-- What is attached to the nodes is the graph of the additions. -/
theorem graphOf_of_tables (h : Distinct adds)
    (hnodes : g.nodes = attached (gather adds).nodes (gather adds).relations)
    (hrelations : g.relations = (gather adds).relations) : GraphOf adds g := by
  refine ⟨fun id traits => ?_, fun r => ?_, fun n hn id => ?_⟩
  · simp only [hnodes, exists_mem_attached_iff, mem_nodes_gather h]
  · rw [hrelations, mem_relations_gather h]
  · rw [g.consistent.listed_iff n hn, hrelations]
    simp only [mem_relations_gather h, Touched]

/-- Additions have one graph: its nodes and relations are theirs, and what its
nodes list follows from the relations. -/
theorem GraphOf.unique {g' : Graph} (h : GraphOf adds g)
    (h' : GraphOf adds g') : g = g' :=
  Graph.ext_traits (fun id traits =>
    (h.nodes id traits).trans (h'.nodes id traits).symm)
    fun r => (h.relations r).trans (h'.relations r).symm

theorem assemble_gather_eq_ok_iff :
    (gather adds).assemble = .ok g ↔ Valid adds ∧ GraphOf adds g := by
  rw [assemble_eq_ok_iff, fault?_gather_eq_none_iff]
  constructor
  · rintro ⟨hvalid, hnodes, hrelations⟩
    exact ⟨hvalid, graphOf_of_tables hvalid.distinct hnodes hrelations⟩
  · rintro ⟨hvalid, hgraph⟩
    cases hassemble : (gather adds).assemble with
    | error fault =>
      have hfault := (fault?_gather_eq_none_iff adds).2 hvalid
      rw [assemble_eq_error_iff.1 hassemble] at hfault
      cases hfault
    | ok g' =>
      obtain ⟨-, hnodes, hrelations⟩ := assemble_eq_ok_iff.1 hassemble
      rw [hgraph.unique (graphOf_of_tables hvalid.distinct hnodes hrelations)]
      exact ⟨hvalid, hnodes, hrelations⟩

/-! ## Building -/

theorem build_unchecked (b : Builder) : b.build .unchecked = b.assemble := by
  unfold build
  split <;> simp_all

theorem build_required_eq_ok_iff :
    b.build .required = .ok g ↔ b.assemble = .ok g ∧ g.isConnected = true := by
  unfold build
  split
  · rename_i fault hassemble
    simp [hassemble]
  · rename_i g' hassemble
    rw [hassemble]
    simp only [Except.ok.injEq]
    split
    · rename_i hconnected
      rw [Except.ok.injEq]
      exact ⟨fun h => ⟨h, h ▸ hconnected⟩, And.left⟩
    · rename_i hconnected
      refine ⟨fun h => (nomatch h), ?_⟩
      rintro ⟨rfl, hconnected'⟩
      exact absurd hconnected' hconnected

theorem build_required_eq_error_iff {fault : GraphFault} :
    b.build .required = .error fault ↔ b.assemble = .error fault ∨
      ∃ g, b.assemble = .ok g ∧ g.isConnected = false ∧
        fault = .disconnected g.first.id g.unreached g.nodes.size := by
  unfold build
  split
  · rename_i fault hassemble
    simp [hassemble]
  · rename_i g' hassemble
    rw [hassemble]
    simp only [Except.ok.injEq, reduceCtorEq, false_or, exists_eq_left']
    split
    · rename_i hconnected
      simp [hconnected]
    · rename_i hconnected
      simp [hconnected, eq_comm]

/-- Distinct numbers are gathered alike in any order, as tables are
sorted by them. -/
theorem gather_perm {others : List Addition} (hperm : others.Perm adds)
    (h : Distinct adds) :
    gather others = gather adds := by
  have hnodes : (addedNodes others).Perm (addedNodes adds) := hperm.filterMap _
  have hrelations : (addedRelations others).Perm (addedRelations adds) :=
    hperm.filterMap _
  have h' : Distinct others :=
    ⟨(hnodes.map _).nodup_iff.2 h.nodes,
      (hrelations.map _).nodup_iff.2 h.relations⟩
  have hnodeTables : (gather others).nodes = (gather adds).nodes := by
    apply Keyed.ext_mem
    intro n
    rw [mem_nodes_gather h', mem_nodes_gather h, hnodes.mem_iff]
  have hrelationTables :
      (gather others).relations = (gather adds).relations := by
    apply Keyed.ext_mem
    intro r
    rw [mem_relations_gather h', mem_relations_gather h, hrelations.mem_iff]
  have hrepeated : (gather others).repeated = (gather adds).repeated := by
    rw [(repeated_gather_eq_none_iff others).2 h',
      (repeated_gather_eq_none_iff adds).2 h]
  cases hothers : gather others
  cases hadds : gather adds
  simp_all

/-- Nodes and relations are listed as additions, the nodes first. -/
def listed (nodes : List Node) (relations : List Relation) : List Addition :=
  nodes.map .node ++ relations.map .relation

theorem addedNodes_listed (nodes : List Node) (relations : List Relation) :
    addedNodes (listed nodes relations) = nodes := by
  simp [listed, addedNodes, List.filterMap_map, Function.comp_def,
    Addition.node?]

theorem addedRelations_listed (nodes : List Node) (relations : List Relation) :
    addedRelations (listed nodes relations) = relations := by
  simp [listed, addedRelations, List.filterMap_map, Function.comp_def,
    Addition.relation?]

theorem ofLists_eq (nodes : List Node) (relations : List Relation)
    (c : Connectivity) :
    Graph.ofLists nodes relations c =
    (gather (listed nodes relations)).build c := by
  rw [Graph.ofLists, gather, listed, List.foldl_append, List.foldl_map,
    List.foldl_map]
  rfl

/-- The nodes and relations of a graph make the graph. -/
theorem assemble_listed (g : Graph) :
    (gather (listed g.nodes.toList g.relations.toList)).assemble = .ok g := by
  have hnodes := addedNodes_listed g.nodes.toList g.relations.toList
  have hrelations := addedRelations_listed g.nodes.toList g.relations.toList
  have hlistings : ∀ n ∈ g.nodes.toList, ∀ id, id ∈ n.relations.toList ↔
      Touched (listed g.nodes.toList g.relations.toList) n id := by
    intro n hn id
    rw [g.consistent.listed_iff n hn, Touched, hrelations]
  rw [assemble_gather_eq_ok_iff]
  refine ⟨⟨?_, ⟨?_, ?_⟩, ?_, ?_⟩, ?_, ?_, hlistings⟩
  · rw [hnodes]
    exact g.consistent.nonempty
  · rw [hnodes]
    exact Keyed.keys_nodup g.nodes
  · rw [hrelations]
    exact Keyed.keys_nodup g.relations
  · rw [hrelations]
    intro r hr
    rw [EndsInside, IsNode, IsNode, hnodes]
    exact ⟨g.consistent.source_mem r hr, g.consistent.target_mem r hr⟩
  · rw [hnodes]
    exact fun n hn id => (hlistings n hn id).1
  · intro id traits
    rw [hnodes]
  · intro r
    rw [hrelations]

/-- What a builder makes of additions, told by the additions alone: a graph iff
they are valid, and else the first fault that they have. -/
structure Judged (adds : List Addition) : Prop where
  /-- they make a graph iff nothing is wrong with them -/
  accepted : (∃ g, (gather adds).build .unchecked = .ok g) ↔ Valid adds
  /-- the graph is theirs, and no other is -/
  graph : ∀ g, (gather adds).build .unchecked = .ok g ↔ Valid adds ∧
    GraphOf adds g
  /-- the fault is the first that they have -/
  fault : ∀ fault, (gather adds).build .unchecked = .error fault ↔
    Rejected adds fault
  /-- of the graphs those that are connected are had when that is required -/
  connected : ∀ g, (gather adds).build .required = .ok g ↔
    (gather adds).build .unchecked = .ok g ∧ g.isConnected = true
  /-- and the others are what is rejected besides -/
  disconnected : ∀ fault, (gather adds).build .required = .error fault ↔
    (gather adds).build .unchecked = .error fault ∨
      ∃ g, (gather adds).build .unchecked = .ok g ∧ g.isConnected = false ∧
        fault = .disconnected g.first.id g.unreached g.nodes.size
  /-- additions with distinct numbers may be made in any order -/
  unordered : ∀ others c, others.Perm adds → Distinct adds →
    (gather others).build c = (gather adds).build c
  /-- so may those that make a graph -/
  graphUnordered : ∀ others c g, others.Perm adds →
    ((gather others).build c = .ok g ↔ (gather adds).build c = .ok g)
  /-- a graph is made again of its own nodes and relations -/
  rebuilt : ∀ c g, (gather adds).build c = .ok g →
    Graph.ofLists g.nodes.toList g.relations.toList c = .ok g

theorem distinct_of_build {c : Connectivity}
    (h : (gather adds).build c = .ok g) :
    Distinct adds := by
  have hassemble : (gather adds).assemble = .ok g := by
    cases c with
    | unchecked => rwa [build_unchecked] at h
    | required => exact (build_required_eq_ok_iff.1 h).1
  exact (assemble_gather_eq_ok_iff.1 hassemble).1.distinct

/-- The outcome of building is the one that the additions call for, in whatever
order they were made. -/
theorem judged_build (adds : List Addition) : Judged adds where
  accepted := by
    rw [build_unchecked, ← fault?_gather_eq_none_iff]
    constructor
    · rintro ⟨g, hg⟩
      exact (assemble_eq_ok_iff.1 hg).1
    · intro hnone
      cases hassemble : (gather adds).assemble with
      | error fault =>
        rw [assemble_eq_error_iff.1 hassemble] at hnone
        cases hnone
      | ok g => exact ⟨g, rfl⟩
  graph g := by rw [build_unchecked, assemble_gather_eq_ok_iff]
  fault fault := by
    rw [build_unchecked, assemble_eq_error_iff, fault?_gather_eq_some_iff]
  connected g := by rw [build_unchecked, build_required_eq_ok_iff]
  disconnected fault := by
    simp only [build_unchecked, build_required_eq_error_iff]
  unordered others c hperm hdistinct := by rw [gather_perm hperm hdistinct]
  graphUnordered others c g hperm := by
    constructor
    · intro h
      rwa [gather_perm hperm.symm (distinct_of_build h)]
    · intro h
      rwa [gather_perm hperm (distinct_of_build h)]
  rebuilt c g h := by
    rw [ofLists_eq]
    cases c with
    | unchecked => rw [build_unchecked, assemble_listed]
    | required =>
      exact build_required_eq_ok_iff.2 ⟨assemble_listed g,
        (build_required_eq_ok_iff.1 h).2⟩

end DrawnPattern.Graph.Builder
