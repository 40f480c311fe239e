import DrawnPattern.Proofs.Graph.Reach
set_option autoImplicit false

/-!
# Depth-first traversal

A graph is explored in rounds, which are counted, so that graphs can be
evaluated.  The same nodes are found by a traversal that goes depth first with a
stack and stops when the stack is empty.  Each number is put on the stack at
most once, which is why it stops on any tables (`unmet_foldl_meet_le`).  What
holds of a traversal of a graph at each step (`Traversal.Sound`) makes what is
visited in the end what paths of relations join to the first node
(`Traversal.mem_run_iff`).  So the lowest number and the number of the nodes
that no path joins to it are found, and a graph is connected iff paths join all
of its nodes (`Graph.traversal_exact`).
-/

namespace DrawnPattern

/-- How far a traversal has come: what is still to be looked around from, and
what was met. -/
structure Traversal where
  /-- what is visited but not yet looked around from, the next one first -/
  stack : List NodeId
  visited : List NodeId

namespace Traversal

/-- The traversal that is about to look around from a first number. -/
def start (id : NodeId) : Traversal := ⟨[id], [id]⟩

/-- A number that is met for the first time is noted as visited and put on
the stack. -/
def meet (t : Traversal) (id : NodeId) : Traversal :=
  if t.visited.contains id then t else ⟨id :: t.stack, id :: t.visited⟩

/-- The numbers across the relations that a node lists.  A node or relation that
is not there is passed over. -/
def across (nodes : NodeTable) (relations : RelationTable) (focus : NodeId) :
    List NodeId :=
  match nodes.find? focus with
  | some n =>
    n.relations.toList.filterMap fun id =>
      (relations.find? id).bind (·.link.other focus)
  | none => []

/-- The ends of all relations. -/
def ends (relations : RelationTable) : List NodeId :=
  relations.toList.flatMap fun r => [r.link.source, r.link.target]

/-- How many ends of relations are not visited yet.  It falls whenever something
is met, so the stack runs empty. -/
def unmet (t : Traversal) (relations : RelationTable) : Nat :=
  (ends relations).countP fun id => !t.visited.contains id

/-! ## Meeting numbers -/

variable {nodes : NodeTable} {relations : RelationTable} {t : Traversal}
  {focus : NodeId}

theorem meet_of_mem {id : NodeId} (h : id ∈ t.visited) : t.meet id = t := by
  rw [meet, if_pos (List.contains_iff_mem.2 h)]

theorem meet_of_not_mem {id : NodeId} (h : id ∉ t.visited) :
    t.meet id = ⟨id :: t.stack, id :: t.visited⟩ := by
  rw [meet, if_neg (by simpa using h)]

/-- What is new is put on the stack and noted as visited, once. -/
theorem foldl_meet (t : Traversal) (ids : List NodeId) :
    ∃ new, ids.foldl meet t = ⟨new ++ t.stack, new ++ t.visited⟩ ∧ new.Nodup ∧
      ∀ a, a ∈ new ↔ a ∈ ids ∧ a ∉ t.visited := by
  induction ids generalizing t with
  | nil => exact ⟨[], rfl, List.nodup_nil, by simp⟩
  | cons id rest ih =>
    by_cases hseen : id ∈ t.visited
    · obtain ⟨new, heq, hnodup, hmem⟩ := ih t
      refine ⟨new, by rw [List.foldl_cons, meet_of_mem hseen, heq], hnodup,
        fun a => ?_⟩
      rw [hmem, List.mem_cons]
      grind
    · obtain ⟨new, heq, hnodup, hmem⟩ := ih (t.meet id)
      rw [meet_of_not_mem hseen] at heq hmem
      refine ⟨new ++ [id], ?_, ?_, fun a => ?_⟩
      · rw [List.foldl_cons, meet_of_not_mem hseen, heq]
        simp
      · refine List.nodup_append.2 ⟨hnodup, List.nodup_singleton _, ?_⟩
        rintro a ha b hb rfl
        exact ((hmem a).1 ha).2 (List.mem_singleton.1 hb ▸ List.mem_cons_self)
      · rw [List.mem_append, hmem, List.mem_singleton]
        grind

/-- What lies across a relation is one of its ends. -/
theorem mem_ends_of_mem_across {id : NodeId}
    (h : id ∈ across nodes relations focus) :
    id ∈ ends relations := by
  unfold across at h
  split at h
  · obtain ⟨listed, -, hother⟩ := List.mem_filterMap.1 h
    obtain ⟨r, hfind, hother⟩ := Option.bind_eq_some_iff.1 hother
    refine List.mem_flatMap.2 ⟨r, (Keyed.mem_of_find? hfind).1, ?_⟩
    rcases Link.other_eq_some_iff.1 hother with ⟨-, ht⟩ | ⟨hs, -⟩
    · simp [ht]
    · simp [hs]
  · exact absurd h List.not_mem_nil

/-- Whenever an end is put on the stack, there is one less that is
not visited. -/
theorem unmet_foldl_meet_le (ids : List NodeId)
    (h : ∀ id ∈ ids, id ∈ ends relations) :
    ∀ t : Traversal,
    (ids.foldl meet t).stack.length + (ids.foldl meet t).unmet relations ≤
      t.stack.length + t.unmet relations := by
  induction ids with
  | nil => exact fun t => Nat.le_refl _
  | cons id rest ih =>
    intro t
    obtain ⟨hid, hrest⟩ := List.forall_mem_cons.1 h
    refine Nat.le_trans (ih hrest (t.meet id)) ?_
    by_cases hseen : id ∈ t.visited
    · exact Nat.le_of_eq (by rw [meet_of_mem hseen])
    · have hsplit := List.perm_cons_erase hid
      have hless := List.countP_mono_left (l := (ends relations).erase id)
        (p := fun a => !(id :: t.visited).contains a)
        (q := fun a => !t.visited.contains a)
        fun a _ ha => by simp_all
      simp only [meet_of_not_mem hseen, unmet, hsplit.countP_eq,
        List.length_cons]
      rw [List.countP_cons_of_neg (by simp),
        List.countP_cons_of_pos (by simpa using hseen)]
      omega

/-! ## The loop -/

/-- Takes the top off the stack and meets what lies across, until the stack
is empty. -/
def run (nodes : NodeTable) (relations : RelationTable) : Traversal → Traversal
  | ⟨[], visited⟩ => ⟨[], visited⟩
  | ⟨focus :: rest, visited⟩ =>
    run nodes relations ((across nodes relations focus).foldl meet
      ⟨rest, visited⟩)
termination_by t => t.stack.length + t.unmet relations
decreasing_by
  have hle : _ ≤ rest.length + unmet ⟨focus :: rest, visited⟩ relations :=
    unmet_foldl_meet_le (across nodes relations focus)
      (fun _ => mem_ends_of_mem_across)
      ⟨rest, visited⟩
  rw [List.length_cons]
  omega

/-- Where a traversal starts, and how many nodes it never visits; nothing
without a node. -/
def unvisitedFromFirst? (nodes : NodeTable) (relations : RelationTable) :
    Option (NodeId × Nat) :=
  nodes.toList.head?.map fun first =>
    (first.id,
      nodes.size - (run nodes relations (start first.id)).visited.length)

theorem stack_run (t : Traversal) : (run nodes relations t).stack = [] := by
  induction t using run.induct nodes relations with
  | case1 visited => rw [run]
  | case2 focus rest visited ih => rw [run, ih]

/-! ## What is visited -/

/-- What holds of a traversal at each step: what is visited can be reached, and
has been looked around from unless it is still on the stack. -/
structure Sound (nodes : NodeTable) (relations : RelationTable) (first : NodeId)
    (t : Traversal) :
    Prop where
  nodup : t.visited.Nodup
  first_mem : first ∈ t.visited
  stack_subset : ∀ a ∈ t.stack, a ∈ t.visited
  joined : ∀ a ∈ t.visited,
    Relation.ReflTransGen (fun a b => b ∈ across nodes relations a) first a
  /-- only what is on the stack may have something unvisited across
  a relation -/
  looked : ∀ a ∈ t.visited, a ∉ t.stack →
    ∀ b ∈ across nodes relations a, b ∈ t.visited

variable {first : NodeId} {rest visited : List NodeId}

theorem sound_start (first : NodeId) :
    Sound nodes relations first (start first) where
  nodup := List.nodup_singleton _
  first_mem := List.mem_singleton_self _
  stack_subset _ ha := ha
  joined a ha := by
    rw [List.mem_singleton.1 ha]
  looked a ha hnot := absurd ha hnot

theorem Sound.step (h : Sound nodes relations first ⟨focus :: rest, visited⟩) :
    Sound nodes relations first ((across nodes relations focus).foldl meet
      ⟨rest, visited⟩) := by
  obtain ⟨new, heq, hnodup, hmem⟩ :=
    foldl_meet ⟨rest, visited⟩ (across nodes relations focus)
  have hfocus : focus ∈ visited := h.stack_subset focus List.mem_cons_self
  rw [heq]
  refine ⟨?_, List.mem_append_right _ h.first_mem, fun a ha => ?_,
    fun a ha => ?_, fun a ha hoff b hb => ?_⟩
  · refine List.nodup_append.2 ⟨hnodup, h.nodup, ?_⟩
    rintro a ha b hb rfl
    exact ((hmem a).1 ha).2 hb
  · rcases List.mem_append.1 ha with ha | ha
    · exact List.mem_append_left _ ha
    · exact List.mem_append_right _
        (h.stack_subset a (List.mem_cons_of_mem _ ha))
  · rcases List.mem_append.1 ha with ha | ha
    · exact (h.joined focus hfocus).tail ((hmem a).1 ha).1
    · exact h.joined a ha
  · rw [List.mem_append, not_or] at hoff
    have hold : a ∈ visited := (List.mem_append.1 ha).resolve_left hoff.1
    rw [List.mem_append, hmem]
    by_cases hvisited : b ∈ visited
    · exact .inr hvisited
    · by_cases hfocus' : a = focus
      · exact .inl ⟨hfocus' ▸ hb, hvisited⟩
      · refine absurd (h.looked a hold ?_ b hb) hvisited
        rw [List.mem_cons, not_or]
        exact ⟨hfocus', hoff.2⟩

theorem Sound.run {t : Traversal} (h : Sound nodes relations first t) :
    Sound nodes relations first (t.run nodes relations) := by
  induction t using run.induct nodes relations with
  | case1 visited =>
    rw [Traversal.run]
    exact h
  | case2 focus rest visited ih =>
    rw [Traversal.run]
    exact ih h.step

/-- In the end what is visited is what relations lead to: the stack is empty
then, so everything was looked around from. -/
theorem mem_run_iff {id : NodeId} :
    id ∈ (run nodes relations (start first)).visited ↔
    Relation.ReflTransGen (fun a b => b ∈ across nodes relations a)
    first id := by
  have hsound :
      Sound nodes relations first (run nodes relations (start first)) :=
    (sound_start first).run
  refine ⟨hsound.joined id, fun hpath => ?_⟩
  induction hpath with
  | refl => exact hsound.first_mem
  | tail _ hb ih =>
    refine hsound.looked _ ih ?_ _ hb
    rw [stack_run]
    exact List.not_mem_nil

end Traversal

/-! ## Paths of relations -/

namespace Graph

variable {g : Graph} {a b : NodeId}

/-- Whether a relation joins two nodes, whatever its direction. -/
def Joined (g : Graph) (a b : NodeId) : Prop := ∃ r ∈ g.relations.toList,
    r.link.Joins a b

/-- Whether a path of relations leads from one node to another, whatever their
directions; every node has a path to itself. -/
def Path (g : Graph) : NodeId → NodeId → Prop := Relation.ReflTransGen g.Joined

open Classical in
/-- How many nodes no path joins to the first one. -/
noncomputable def apart (g : Graph) : Nat :=
  g.nodeIds.countP fun id => ¬g.Path g.first.id id

/-- What a depth-first traversal visits from the first node. -/
def visited (g : Graph) : List NodeId :=
  (Traversal.run g.nodes g.relations (.start g.first.id)).visited

theorem mem_adjacent_iff_joined : b ∈ g.adjacent a ↔ g.Joined a b := by
  simp only [mem_adjacent_iff, Joined, Link.joins_iff_other]

theorem across_eq_adjacent (g : Graph) :
    Traversal.across g.nodes g.relations = g.adjacent := by
  funext focus
  rw [Traversal.across, adjacent, incident, node?]
  cases g.nodes.find? focus with
  | none => rfl
  | some n => exact List.filterMap_filterMap.symm

theorem Joined.symm (h : g.Joined a b) : g.Joined b a := by
  obtain ⟨r, hr, hjoins⟩ := h
  exact ⟨r, hr, Link.joins_comm.1 hjoins⟩

instance (g : Graph) : Std.Symm g.Joined := ⟨fun _ _ => Joined.symm⟩

theorem Path.symm (h : g.Path a b) : g.Path b a :=
  Relation.ReflTransGen.stdSymm.symm a b h

/-- A node is reached iff a path joins it to the first. -/
theorem mem_reached_iff_path : a ∈ g.reached ↔ g.Path g.first.id a := by
  simp only [mem_reached_iff, mem_adjacent_iff_joined]
  rfl

theorem mem_visited_iff_path : a ∈ g.visited ↔ g.Path g.first.id a := by
  rw [visited, Traversal.mem_run_iff, across_eq_adjacent]
  simp only [mem_adjacent_iff_joined]
  rfl

theorem visited_nodup (g : Graph) : g.visited.Nodup :=
  (Traversal.sound_start _).run.nodup

/-- A traversal visits what is explored in rounds, in another order.  So nothing
that is counted depends on how it is looked for. -/
theorem visited_perm_reached (g : Graph) : g.visited.Perm g.reached :=
  (List.perm_ext_iff_of_nodup g.visited_nodup g.reached_nodup).2 fun _ =>
    mem_visited_iff_path.trans mem_reached_iff_path.symm

theorem unreached_eq_apart (g : Graph) : g.unreached = g.apart := by
  classical
  rw [unreached_eq_countP, apart]
  refine List.countP_congr fun id _ => ?_
  simp [mem_reached_iff_path]

theorem unvisitedFromFirst?_eq (g : Graph) :
    Traversal.unvisitedFromFirst? g.nodes g.relations =
    some (g.first.id, g.unreached) := by
  have hfirst : g.nodes.toList.head? = some g.first := List.head?_eq_some_head _
  rw [Traversal.unvisitedFromFirst?, hfirst, unreached,
    ← g.visited_perm_reached.length_eq]
  rfl

/-- The first node has the lowest number. -/
theorem first_le {n : Node} (hn : n ∈ g.nodes.toList) : g.first.id ≤ n.id := by
  have hascending := g.nodes.ascending
  have hfirst : g.nodes.toList = g.first :: g.nodes.toList.tail :=
    (List.cons_head_tail _).symm
  rw [hfirst] at hascending hn
  rcases List.mem_cons.1 hn with rfl | hn
  · exact Int.le_refl _
  · exact Int.le_of_lt
      (Std.compare_eq_lt.1 ((List.pairwise_cons.1 hascending).1 n hn))

/-- A graph is connected iff paths join all of its nodes, be they next to the
first one or not. -/
theorem isConnected_iff_paths :
    g.isConnected = true ↔ ∀ a ∈ g.nodeIds, ∀ b ∈ g.nodeIds, g.Path a b := by
  constructor
  · intro h a ha b hb
    have hreached : ∀ id ∈ g.nodeIds, g.Path g.first.id id :=
      fun id hid => mem_reached_iff_path.1 (mem_reached_of_isConnected h hid)
    exact (hreached a ha).symm.trans (hreached b hb)
  · intro h
    refine isConnected_of_forall fun id hid =>
      mem_reached_iff_path.2 (h _ ?_ id hid)
    exact mem_nodeIds.2 ⟨g.first, g.first_mem, rfl⟩

/-- What a traversal of a graph finds, and what that says about the graph: how
many nodes lie apart, and whether it is connected. -/
structure Traversed (g : Graph) : Prop where
  first_mem : g.first.id ∈ g.nodeIds
  first_least : ∀ id ∈ g.nodeIds, g.first.id ≤ id
  visited_iff : ∀ id, id ∈ g.visited ↔ g.Path g.first.id id
  /-- nodes are visited only once, and nothing else is -/
  visited_nodup : g.visited.Nodup
  visited_subset : ∀ id ∈ g.visited, id ∈ g.nodeIds
  /-- so there are not fewer nodes than are visited -/
  visited_length_le : g.visited.length ≤ g.nodes.size
  unvisited_eq : Traversal.unvisitedFromFirst? g.nodes g.relations =
    some (g.first.id, g.apart)
  /-- the rounds find the same nodes -/
  visited_perm : g.visited.Perm g.reached
  unreached_eq : g.unreached = g.apart
  isConnected_iff : g.isConnected = true ↔ ∀ a ∈ g.nodeIds, ∀ b ∈ g.nodeIds,
    g.Path a b

/-- The traversal of every graph is exact: it visits what paths lead to, each
node once, and so tells whether the graph is connected. -/
theorem traversal_exact (g : Graph) : g.Traversed where
  first_mem := mem_nodeIds.2 ⟨g.first, g.first_mem, rfl⟩
  first_least id hid := by
    obtain ⟨n, hn, rfl⟩ := mem_nodeIds.1 hid
    exact first_le hn
  visited_iff _ := mem_visited_iff_path
  visited_nodup := g.visited_nodup
  visited_subset id hid :=
    g.reached_subset_nodeIds id (g.visited_perm_reached.mem_iff.1 hid)
  visited_length_le := by
    have hsub := List.subperm_of_subset g.reached_nodup g.reached_subset_nodeIds
    have hle := (g.visited_perm_reached.subperm.trans hsub).length_le
    rwa [nodeIds, Keyed.keys, List.length_map] at hle
  unvisited_eq := by rw [unvisitedFromFirst?_eq, unreached_eq_apart]
  visited_perm := g.visited_perm_reached
  unreached_eq := g.unreached_eq_apart
  isConnected_iff := isConnected_iff_paths

end Graph

end DrawnPattern
