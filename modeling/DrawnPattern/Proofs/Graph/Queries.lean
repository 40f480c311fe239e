import DrawnPattern.Proofs.Graph.Incidence
import Mathlib.Algebra.GroupWithZero.Nat
set_option autoImplicit false

/-!
# What a graph answers about its nodes

Every answer about a node is computed from the numbers that the node lists, and
every one can be told from the relations alone (`answers_from_relations`): what
is incident to a node are the relations that end at it (`incident_eq_filter`),
what is between two nodes are the relations that join them
(`relationsBetween_eq_filter`), and neighbours are different nodes that a
relation joins (`mem_neighbors_iff`).  As each relation is listed at each of its
ends and a loop has only one, the nodes together list every relation twice and
every loop once (`sum_listed`).
-/

namespace DrawnPattern.Graph

variable {g : Graph} {a b : NodeId}

/-! ## Incident relations -/

/-- Relations in ascending order are determined by which they are. -/
theorem eq_of_ascending {l m : List Relation}
    (hl : l.Pairwise fun q r => q.id < r.id)
    (hm : m.Pairwise fun q r => q.id < r.id) (h : ∀ r, r ∈ l ↔ r ∈ m) :
    l = m := by
  have hne : ∀ {q r : Relation}, q.id < r.id → q ≠ r := by
    rintro q _ hlt rfl
    exact Int.lt_irrefl _ hlt
  have hperm := (List.perm_ext_iff_of_nodup (hl.imp hne) (hm.imp hne)).2 h
  exact hperm.eq_of_pairwise (fun q r _ _ hqr hrq =>
    absurd hqr (Int.lt_asymm hrq)) hl hm

theorem relations_ascending (g : Graph) :
    g.relations.toList.Pairwise fun q r => q.id < r.id :=
  g.relations.ascending.imp Std.compare_eq_lt.1

theorem incident_ascending (g : Graph) (a : NodeId) :
    (g.incident a).Pairwise fun q r => q.id < r.id := by
  unfold incident
  split
  · rename_i n _
    refine n.relations.ascending.filterMap _ fun i j hij q hq r hr => ?_
    obtain ⟨-, rfl⟩ := relation?_eq_some_iff.1 hq
    obtain ⟨-, rfl⟩ := relation?_eq_some_iff.1 hr
    exact Std.compare_eq_lt.1 hij
  · exact .nil

/-- What is incident to a node are the relations that end at it, in
their order. -/
theorem incident_eq_filter (g : Graph) (a : NodeId) :
    g.incident a = g.relations.toList.filter (·.link.touches a) := by
  refine eq_of_ascending (incident_ascending g a)
    ((relations_ascending g).filter _) fun r => ?_
  rw [mem_incident_iff, List.mem_filter]

/-- What is between two nodes are the relations that join them, in
their order. -/
theorem relationsBetween_eq_filter (g : Graph) (a b : NodeId) :
    g.relationsBetween a b =
      g.relations.toList.filter fun r => decide (r.link.Joins a b) := by
  rw [relationsBetween, incident_eq_filter, List.filter_filter]
  refine List.filter_congr fun r _ => ?_
  rw [Bool.eq_iff_iff, Bool.and_eq_true, beq_iff_eq, ← Link.joins_iff_other,
    decide_eq_true_iff]
  exact and_iff_left_of_imp Link.touches_of_joins

theorem mem_relationsBetween_iff {r : Relation} :
    r ∈ g.relationsBetween a b ↔ r ∈ g.relations.toList ∧ r.link.Joins a b := by
  rw [relationsBetween_eq_filter, List.mem_filter, decide_eq_true_iff]

theorem relationsBetween_ne_nil_iff :
    g.relationsBetween a b ≠ [] ↔
    ∃ r ∈ g.relations.toList, r.link.Joins a b := by
  rw [ne_eq, List.eq_nil_iff_forall_not_mem, not_forall_not]
  simp only [mem_relationsBetween_iff]

theorem relationsBetween_comm (g : Graph) (a b : NodeId) :
    g.relationsBetween a b = g.relationsBetween b a := by
  simp only [relationsBetween_eq_filter, Link.joins_comm (a := a)]

/-- Neighbours are different nodes that a relation joins. -/
theorem mem_neighbors_iff :
    b ∈ (g.neighbors a).toList ↔
    a ≠ b ∧ ∃ r ∈ g.relations.toList, r.link.Joins a b := by
  simp only [neighbors, OrderedSet.mem_ofList_iff, List.mem_filterMap,
    List.mem_filter, mem_incident_iff, Bool.not_eq_true']
  constructor
  · rintro ⟨r, ⟨⟨hr, -⟩, hloop⟩, hother⟩
    obtain ⟨hne, hjoins⟩ := Link.not_isLoop_and_other_iff.1 ⟨hloop, hother⟩
    exact ⟨hne, r, hr, hjoins⟩
  · rintro ⟨hne, r, hr, hjoins⟩
    obtain ⟨hloop, hother⟩ := Link.not_isLoop_and_other_iff.2 ⟨hne, hjoins⟩
    exact ⟨r, ⟨⟨hr, Link.touches_of_joins hjoins⟩, hloop⟩, hother⟩

theorem incident_eq_nil (h : a ∉ g.nodeIds) : g.incident a = [] := by
  rw [List.eq_nil_iff_forall_not_mem]
  intro r hr
  obtain ⟨hr, htouches⟩ := mem_incident_iff.1 hr
  exact h (mem_nodeIds_of_touches hr htouches)

/-! ## How many relations the nodes list -/

/-- A node lists as many relations as touch it, each once, loops included. -/
theorem size_relations {n : Node} (hn : n ∈ g.nodes.toList) :
    n.relations.size = g.relations.toList.countP (·.link.touches n.id) := by
  have hperm : n.relations.toList.Perm
      ((g.relations.toList.filter (·.link.touches n.id)).map Relation.id) := by
    refine (List.perm_ext_iff_of_nodup (Keyed.toList_nodup _) ?_).2 fun id => ?_
    · exact (Keyed.keys_nodup g.relations).sublist (List.filter_sublist.map _)
    · rw [g.consistent.listed_iff n hn]
      simp only [List.mem_map, List.mem_filter]
      grind
  rw [Keyed.size, hperm.length_eq, List.length_map,
    List.countP_eq_length_filter]

/-- Of distinct nodes that hold the ends of a link, it touches two, and a
loop one. -/
theorem countP_touches {l : Link} {ids : List NodeId} (hnodup : ids.Nodup)
    (hsource : l.source ∈ ids) (htarget : l.target ∈ ids) :
    ids.countP (l.touches ·) = if l.isLoop then 1 else 2 := by
  rw [List.countP_eq_length_filter]
  split
  · rename_i hloop
    rw [Link.isLoop_iff] at hloop
    have hperm : (ids.filter (l.touches ·)).Perm [l.source] := by
      refine (List.perm_ext_iff_of_nodup (hnodup.filter _)
        (List.nodup_singleton _)).2 fun id => ?_
      rw [List.mem_filter, Link.touches_iff, List.mem_singleton]
      grind
    exact hperm.length_eq
  · rename_i hloop
    rw [Link.isLoop_iff] at hloop
    have hperm : (ids.filter (l.touches ·)).Perm [l.source, l.target] := by
      refine (List.perm_ext_iff_of_nodup (hnodup.filter _)
        (by simpa using hloop)).2 fun id => ?_
      simp only [List.mem_filter, Link.touches_iff, List.mem_cons,
        List.not_mem_nil, or_false]
      grind
    exact hperm.length_eq

/-- One more item is counted wherever it is related. -/
theorem sum_map_countP_cons {α β : Type} (R : α → β → Bool)
    (items : List α) (b : β) (others : List β) :
    (items.map fun a => (b :: others).countP (R a)).sum =
      (items.map fun a => others.countP (R a)).sum + items.countP (R · b) := by
  induction items with
  | nil => rfl
  | cons a rest ih =>
    rw [List.map_cons, List.sum_cons, ih, List.map_cons, List.sum_cons,
      List.countP_cons, List.countP_cons]
    omega

theorem sum_map_countP_touches {ids : List NodeId} (hnodup : ids.Nodup) :
    ∀ {relations : List Relation},
      (∀ r ∈ relations, r.link.source ∈ ids ∧ r.link.target ∈ ids) →
      (ids.map fun id => relations.countP (·.link.touches id)).sum +
        relations.countP (·.link.isLoop) = 2 * relations.length := by
  intro relations
  induction relations with
  | nil => simp
  | cons r rest ih =>
    intro hends
    obtain ⟨⟨hsource, htarget⟩, hrest⟩ := List.forall_mem_cons.1 hends
    have hlater := ih hrest
    have htwice := countP_touches hnodup hsource htarget
    rw [sum_map_countP_cons fun id (r : Relation) => r.link.touches id, htwice,
      List.countP_cons, List.length_cons]
    split <;> omega

/-- The nodes together list every relation twice, and every loop once: each
relation touches its ends and no other node. -/
theorem sum_listed (g : Graph) :
    (g.nodes.toList.map fun n => n.relations.size).sum +
      g.relations.toList.countP (·.link.isLoop) = 2 * g.relations.size := by
  have hsizes : (g.nodes.toList.map fun n => n.relations.size) =
      g.nodeIds.map fun id =>
        g.relations.toList.countP (·.link.touches id) := by
    rw [nodeIds, Keyed.keys, List.map_map]
    exact List.map_congr_left fun n hn => size_relations hn
  rw [hsizes, Keyed.size]
  refine sum_map_countP_touches (Keyed.keys_nodup g.nodes) fun r hr => ?_
  exact ⟨mem_nodeIds.2 (g.consistent.source_mem r hr),
    mem_nodeIds.2 (g.consistent.target_mem r hr)⟩

/-! ## The answers -/

/-- What a graph answers about any numbers, of nodes or not, told by its
relations. -/
structure AnswersFromRelations (g : Graph) : Prop where
  /-- each relation at most once, in ascending order -/
  incident_ascending : ∀ a, (g.incident a).Pairwise fun q r => q.id < r.id
  mem_incident : ∀ a r, r ∈ g.incident a ↔
    r ∈ g.relations.toList ∧ (r.link.source = a ∨ r.link.target = a)
  mem_neighbors : ∀ a b, b ∈ (g.neighbors a).toList ↔
    a ≠ b ∧ ∃ r ∈ g.relations.toList, r.link.Joins a b
  neighbors_symm : ∀ a b, b ∈ (g.neighbors a).toList ↔
    a ∈ (g.neighbors b).toList
  neighbors_irrefl : ∀ a, a ∉ (g.neighbors a).toList
  between_ascending : ∀ a b, (g.relationsBetween a b).Pairwise fun q r =>
    q.id < r.id
  mem_between : ∀ a b r, r ∈ g.relationsBetween a b ↔
    r ∈ g.relations.toList ∧ r.link.Joins a b
  /-- between a node and itself are its loops -/
  mem_between_self : ∀ a r, r ∈ g.relationsBetween a a ↔
    r ∈ g.relations.toList ∧ r.link.source = a ∧ r.link.target = a
  between_comm : ∀ a b, g.relationsBetween a b = g.relationsBetween b a
  neighbors_iff_between : ∀ a b, b ∈ (g.neighbors a).toList ↔
    b ≠ a ∧ g.relationsBetween a b ≠ []
  unknown : ∀ a, a ∉ g.nodeIds →
    g.incident a = [] ∧ g.neighbors a = ∅ ∧ ∀ b, g.relationsBetween a b = []
  /-- the nodes list every relation twice, and every loop once -/
  listed : (g.nodes.toList.map fun n => n.relations.size).sum +
    g.relations.toList.countP (·.link.isLoop) = 2 * g.relations.size

/-- Every graph answers as its relations say, also where it is asked about
numbers of no node. -/
theorem answers_from_relations (g : Graph) : g.AnswersFromRelations where
  incident_ascending := incident_ascending g
  mem_incident a r := by rw [mem_incident_iff, Link.touches_iff]
  mem_neighbors _ _ := mem_neighbors_iff
  neighbors_symm a b := by
    simp only [mem_neighbors_iff, ne_comm (a := a), Link.joins_comm (a := a)]
  neighbors_irrefl a h := (mem_neighbors_iff.1 h).1 rfl
  between_ascending a b := by
    rw [relationsBetween_eq_filter]
    exact (relations_ascending g).filter _
  mem_between _ _ _ := mem_relationsBetween_iff
  mem_between_self a r := by rw [mem_relationsBetween_iff, Link.joins_self_iff]
  between_comm := relationsBetween_comm g
  neighbors_iff_between a b := by
    rw [mem_neighbors_iff, ne_comm, relationsBetween_ne_nil_iff]
  unknown a h := by
    have hnone := incident_eq_nil h
    refine ⟨hnone, ?_, fun b => ?_⟩
    · rw [neighbors, hnone]
      rfl
    · rw [relationsBetween, hnone]
      rfl
  listed := sum_listed g

end DrawnPattern.Graph
