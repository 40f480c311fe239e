import DrawnPattern.Matches
set_option autoImplicit false

/-!
# The first match of each subgraph

Deduplication remembers the subgraphs it has seen.  What it keeps can be said
without that memory: the bindings that no earlier binding shares its subgraph
with (`firstPerSubgraph_eq`).
-/

namespace DrawnPattern.Binding

/-- The bindings, in order, that share their subgraph with no earlier one, told
by positions and without a record of what was seen. -/
def unprecedented (bindings : List Binding) : List Binding :=
  (bindings.zipIdx.filter
    fun p => decide (p.1.subgraph ∉ (bindings.take p.2).map subgraph)).map
    Prod.fst

/-- With a memory, what is remembered counts as earlier. -/
theorem go_eq {bindings : List Binding} : ∀ seen : List Binding,
    firstPerSubgraph.go seen bindings =
      (bindings.zipIdx.filter fun p =>
        decide (p.1.subgraph ∉ seen ++ (bindings.take p.2).map subgraph)).map
          Prod.fst := by
  induction bindings with
  | nil =>
    intro seen
    rfl
  | cons b rest ih =>
    intro seen
    have hlater : ∀ memory : List Binding,
        (∀ k, k ∈ memory ↔ k = b.subgraph ∨ k ∈ seen) →
        (((rest.zipIdx.map (Prod.map id (· + 1))).filter fun p =>
            decide (p.1.subgraph ∉ seen ++
              ((b :: rest).take p.2).map subgraph)).map Prod.fst) =
          firstPerSubgraph.go memory rest := by
      intro memory hmemory
      rw [ih, List.filter_map, List.map_map]
      refine congrArg (List.map Prod.fst) (List.filter_congr fun p _ => ?_)
      simp only [Function.comp_apply, Prod.map_fst, Prod.map_snd, id_eq,
        List.take_succ_cons, List.map_cons, List.mem_append,
        List.mem_cons, hmemory]
      grind
    rw [List.zipIdx_cons']
    unfold firstPerSubgraph.go
    by_cases hseen : b.subgraph ∈ seen
    · rw [if_pos (List.contains_iff_mem.2 hseen),
        List.filter_cons_of_neg (by simpa using hseen)]
      refine (hlater seen fun k => ?_).symm
      exact ⟨.inr, fun h => h.elim (fun heq => heq ▸ hseen) id⟩
    · rw [if_neg (by simpa using hseen),
        List.filter_cons_of_pos (by simpa using hseen), List.map_cons]
      exact congrArg (b :: ·) (hlater (b.subgraph :: seen)
        fun k => List.mem_cons).symm

/-- What deduplication keeps: the pass with a memory comes to what is told of
positions. -/
theorem firstPerSubgraph_eq (bindings : List Binding) :
    firstPerSubgraph bindings = unprecedented bindings :=
  go_eq []

theorem mem_of_mem_unprecedented {bindings : List Binding} {b : Binding}
    (h : b ∈ unprecedented bindings) : b ∈ bindings := by
  obtain ⟨⟨b', i⟩, hp, rfl⟩ := List.mem_map.1 h
  exact List.fst_mem_of_mem_zipIdx (List.mem_filter.1 hp).1

end DrawnPattern.Binding
