import DrawnPattern.Graph.Reach
import DrawnPattern.Proofs.Graph.Incidence
import Mathlib.Data.List.Perm.Subperm
import Mathlib.Logic.Relation
set_option autoImplicit false

/-!
# What connectedness gives

Exploration stays within every set that holds its start and is closed under
adjacency, and finds nothing twice; after as many rounds as there are nodes,
what it has found is closed itself (`explore_closed`).  So a graph is connected
iff all its nodes are reached, and then every set with the first node that is
closed under adjacency holds all of them (`forall_of_isConnected`).
-/

namespace DrawnPattern

variable {adjacent : NodeId → List NodeId}

/-! ## Exploration -/

/-- What exploration finds lies in every closed set around its start, so it
finds no more than what paths lead to. -/
theorem explore_subset {inside : NodeId → Prop}
    (closed : ∀ a, inside a → ∀ b ∈ adjacent a, inside b) (rounds : Nat) :
    ∀ seen frontier : List NodeId, (∀ a ∈ seen, inside a) →
    (∀ a ∈ frontier, inside a) →
      ∀ a ∈ explore adjacent rounds seen frontier, inside a := by
  induction rounds with
  | zero =>
    intro seen frontier hseen _ a ha
    exact hseen a ha
  | succ rounds ih =>
    intro seen frontier hseen hfrontier a ha
    simp only [explore] at ha
    have hfound : ∀ b ∈ ((frontier.flatMap adjacent).filter
        fun id => !seen.contains id).eraseDups,
        inside b := by
      intro b hb
      rw [List.mem_eraseDups] at hb
      obtain ⟨c, hc, hbc⟩ := List.mem_flatMap.1 (List.mem_filter.1 hb).1
      exact closed c (hfrontier c hc) b hbc
    split at ha
    · exact hseen a ha
    · refine ih _ _ ?_ hfound a ha
      intro b hb
      rcases List.mem_append.1 hb with hb | hb
      · exact hseen b hb
      · exact hfound b hb

theorem nodup_eraseDups {α : Type} [BEq α] [LawfulBEq α] (l : List α) :
    l.eraseDups.Nodup := by
  -- on the length: what is left after an item is shorter
  induction hlength : l.length using Nat.strongRecOn generalizing l with
  | ind length ih =>
    cases l with
    | nil => simp
    | cons a rest =>
      rw [List.eraseDups_cons, List.nodup_cons]
      have hshorter : (rest.filter fun b => !b == a).length < length := by
        have hle := List.length_filter_le (fun b => !b == a) rest
        rw [List.length_cons] at hlength
        omega
      exact ⟨by simp [List.mem_eraseDups], ih _ hshorter _ rfl⟩

/-- What one round finds: what is adjacent to the frontier and not seen yet. -/
theorem mem_found {seen frontier : List NodeId} {b : NodeId} :
    b ∈ ((frontier.flatMap adjacent).filter
      fun id => !seen.contains id).eraseDups ↔
      (∃ a ∈ frontier, b ∈ adjacent a) ∧ b ∉ seen := by
  simp [List.mem_eraseDups]

theorem nodup_append_found {seen : List NodeId} (frontier : List NodeId)
    (h : seen.Nodup) :
    (seen ++ ((frontier.flatMap adjacent).filter
      fun id => !seen.contains id).eraseDups).Nodup := by
  refine List.nodup_append.2 ⟨h, nodup_eraseDups _, ?_⟩
  rintro a ha b hb rfl
  exact (mem_found.1 hb).2 ha

/-- Nothing is found twice. -/
theorem explore_nodup (rounds : Nat) :
    ∀ seen frontier : List NodeId, seen.Nodup →
    (explore adjacent rounds seen frontier).Nodup := by
  induction rounds with
  | zero =>
    intro seen frontier hseen
    exact hseen
  | succ rounds ih =>
    intro seen frontier hseen
    simp only [explore]
    split
    · exact hseen
    · exact ih _ _ (nodup_append_found frontier hseen)

theorem subset_explore (rounds : Nat) :
    ∀ seen frontier : List NodeId, ∀ a ∈ seen,
    a ∈ explore adjacent rounds seen frontier := by
  induction rounds with
  | zero =>
    intro seen frontier a ha
    exact ha
  | succ rounds ih =>
    intro seen frontier a ha
    simp only [explore]
    split
    · exact ha
    · exact ih _ _ a (List.mem_append_left _ ha)

/-- With a round for each item of a set that is never left, exploration ends
with everything that is adjacent to what was found.  Only the items found last
may have neighbours that are not found yet. -/
theorem explore_closed {all : List NodeId}
    (hall : ∀ a ∈ all, ∀ b ∈ adjacent a, b ∈ all) (rounds : Nat) :
    ∀ seen frontier : List NodeId, seen.Nodup → (∀ a ∈ seen, a ∈ all) →
      (∀ a ∈ frontier, a ∈ seen) →
      (∀ a ∈ seen, a ∉ frontier → ∀ b ∈ adjacent a, b ∈ seen) →
      all.length ≤ rounds + seen.length →
      ∀ a ∈ explore adjacent rounds seen frontier, ∀ b ∈ adjacent a,
        b ∈ explore adjacent rounds seen frontier := by
  induction rounds with
  | zero =>
    intro seen frontier hnodup hsub _ _ hlength a ha b hb
    -- all items are found, so there is nothing left to find
    have hperm :=
      (List.subperm_of_subset hnodup hsub).perm_of_length_le (by omega)
    exact hperm.mem_iff.2 (hall a (hsub a ha) b hb)
  | succ rounds ih =>
    intro seen frontier hnodup hsub hfrontier hdone hlength
    simp only [explore]
    split
    · rename_i hnone
      intro a ha b hb
      by_cases hlast : a ∈ frontier
      · by_contra hnew
        have hfound := mem_found.2 ⟨⟨a, hlast, hb⟩, hnew⟩
        rw [List.isEmpty_iff.1 hnone] at hfound
        exact List.not_mem_nil hfound
      · exact hdone a ha hlast b hb
    · rename_i hsome
      refine ih _ _ (nodup_append_found frontier hnodup) ?_ ?_ ?_ ?_
      · intro a ha
        rcases List.mem_append.1 ha with ha | ha
        · exact hsub a ha
        · obtain ⟨⟨z, hz, haz⟩, -⟩ := mem_found.1 ha
          exact hall z (hsub z (hfrontier z hz)) a haz
      · exact fun a ha => List.mem_append_right _ ha
      · intro a ha hold b hb
        have haseen : a ∈ seen := (List.mem_append.1 ha).resolve_right hold
        rw [List.mem_append, mem_found]
        by_cases hlast : a ∈ frontier
        · by_cases hb' : b ∈ seen
          · exact .inl hb'
          · exact .inr ⟨⟨a, hlast, hb⟩, hb'⟩
        · exact .inl (hdone a haseen hlast b hb)
      · rw [List.isEmpty_iff] at hsome
        have hpos := List.length_pos_of_ne_nil hsome
        rw [List.length_append]
        omega

/-! ## Connected graphs -/

namespace Graph

variable {g : Graph}

theorem reached_nodup (g : Graph) : g.reached.Nodup :=
  explore_nodup _ _ _ (List.nodup_singleton _)

theorem reached_subset {inside : NodeId → Prop} (hfirst : inside g.first.id)
    (closed : ∀ a, inside a → ∀ b ∈ g.adjacent a, inside b) :
    ∀ a ∈ g.reached, inside a :=
  explore_subset closed _ _ _ (by simpa using hfirst) (by simpa using hfirst)

theorem mem_nodeIds_of_mem_adjacent {a b : NodeId} (hb : b ∈ g.adjacent a) :
    b ∈ g.nodeIds := by
  obtain ⟨r, hr, hother⟩ := mem_adjacent_iff.1 hb
  refine mem_nodeIds_of_touches hr (Link.touches_iff.2 ?_)
  rcases Link.other_eq_some_iff.1 hother with ⟨-, ht⟩ | ⟨hs, -⟩
  · exact .inr ht
  · exact .inl hs

/-- Only nodes are reached. -/
theorem reached_subset_nodeIds (g : Graph) : ∀ a ∈ g.reached, a ∈ g.nodeIds :=
  reached_subset (mem_nodeIds.2 ⟨g.first, g.first_mem, rfl⟩) fun _ _ _ =>
    mem_nodeIds_of_mem_adjacent

/-- A connected graph reaches every node. -/
theorem mem_reached_of_isConnected (h : g.isConnected = true) {id : NodeId}
    (hid : id ∈ g.nodeIds) :
    id ∈ g.reached := by
  have hlength : g.nodeIds.length ≤ g.reached.length := by
    simp only [isConnected, unreached, beq_iff_eq, Keyed.size] at h
    simp only [nodeIds, Keyed.keys, List.length_map]
    omega
  have hsub := List.subperm_of_subset g.reached_nodup g.reached_subset_nodeIds
  exact (hsub.perm_of_length_le hlength).mem_iff.2 hid

/-- In a connected graph every set with the first node that is closed under
adjacency holds all nodes. -/
theorem forall_of_isConnected (h : g.isConnected = true)
    {inside : NodeId → Prop} (hfirst : inside g.first.id)
    (closed : ∀ a, inside a → ∀ b ∈ g.adjacent a, inside b) :
    ∀ n ∈ g.nodes.toList, inside n.id := by
  intro n hn
  exact reached_subset hfirst closed n.id
    (mem_reached_of_isConnected h (mem_nodeIds.2 ⟨n, hn, rfl⟩))

theorem mem_reached_first (g : Graph) : g.first.id ∈ g.reached :=
  subset_explore _ _ _ _ (List.mem_singleton_self _)

/-- What is adjacent to what is reached is reached. -/
theorem reached_closed {a b : NodeId} (ha : a ∈ g.reached)
    (hb : b ∈ g.adjacent a) :
    b ∈ g.reached := by
  have hfirst : g.first.id ∈ g.nodeIds :=
    mem_nodeIds.2 ⟨g.first, g.first_mem, rfl⟩
  have hlength : g.nodeIds.length = g.nodes.size := List.length_map _
  have hall : ∀ a ∈ g.nodeIds, ∀ b ∈ g.adjacent a, b ∈ g.nodeIds :=
    fun _ _ _ => mem_nodeIds_of_mem_adjacent
  refine explore_closed hall _ _ _ (List.nodup_singleton _) ?_ (fun _ ha => ha)
    ?_ (by omega) a ha b hb
  · simpa using hfirst
  · intro a ha hnot
    exact absurd ha hnot

/-- What is not reached is left over of the nodes, since what is reached
consists of nodes, each once. -/
theorem unreached_eq_countP (g : Graph) :
    g.unreached = g.nodeIds.countP fun id => !g.reached.contains id := by
  have hperm :
      (g.nodeIds.filter fun id => g.reached.contains id).Perm g.reached := by
    refine (List.perm_ext_iff_of_nodup ((Keyed.keys_nodup g.nodes).filter _)
      g.reached_nodup).2 ?_
    intro id
    rw [List.mem_filter, List.contains_iff_mem, and_iff_right_iff_imp]
    exact g.reached_subset_nodeIds id
  have hsplit :=
    List.length_eq_countP_add_countP (fun id => g.reached.contains id)
      (l := g.nodeIds)
  have hreached := hperm.length_eq
  have hsize : g.nodeIds.length = g.nodes.size := List.length_map _
  rw [← List.countP_eq_length_filter] at hreached
  simp only [Bool.not_eq_true, Bool.decide_eq_false] at hsplit
  rw [unreached]
  omega

/-- What is reached is what a path joins to the first node: rounds do not run
out before everything is found. -/
theorem mem_reached_iff {id : NodeId} :
    id ∈ g.reached ↔
    Relation.ReflTransGen (fun a b => b ∈ g.adjacent a) g.first.id id := by
  constructor
  · exact reached_subset .refl (fun _ hpath _ hb => hpath.tail hb) id
  · intro hpath
    induction hpath with
    | refl => exact mem_reached_first g
    | tail _ hb ih => exact reached_closed ih hb

/-- A graph whose nodes are all reached is connected. -/
theorem isConnected_of_forall (h : ∀ id ∈ g.nodeIds, id ∈ g.reached) :
    g.isConnected = true := by
  have hlength :=
    (List.subperm_of_subset (Keyed.keys_nodup g.nodes) h).length_le
  simp only [Keyed.keys, List.length_map] at hlength
  simp only [isConnected, unreached, beq_iff_eq, Keyed.size]
  omega

end Graph

end DrawnPattern
