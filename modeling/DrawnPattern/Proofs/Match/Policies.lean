import DrawnPattern.Proofs.Match.Assembly
import DrawnPattern.Proofs.Match.Embedding
set_option autoImplicit false

/-!
# What a policy changes about matches

Under every policy the same rows are assembled, with the same graph, and the
same rows are refused, with the same failure.  Deduplication leaves out exactly
the bindings that an earlier one shares its subgraph with
(`Binding.deduplicated_unprecedented`); the other policies report every binding.
-/

namespace DrawnPattern

namespace Binding

/-- Whether two bindings have the same nodes, each equally often, and the same
relations. -/
def SameSubgraph (b c : Binding) : Prop :=
  b.nodes.Perm c.nodes ∧ b.relations.Perm c.relations

/-- Whether no earlier binding has the subgraph of the one at a position, so
that it stands for its subgraph. -/
def LeadsAt (bindings : List Binding) (i : Nat) : Prop :=
  ∀ b, bindings[i]? = some b → ∀ j < i, ∀ c,
    bindings[j]? = some c → ¬c.SameSubgraph b

/-- Whether of some bindings the first of each subgraph is kept, as it was bound
and in its order, and nothing else. -/
structure Deduplicated (kept bindings : List Binding) : Prop where
  /-- they are kept as they were and in their order -/
  subsequence : ∃ positions : List Nat, positions.Pairwise (· < ·) ∧
    (∀ i, i ∈ positions ↔ i < bindings.length ∧ LeadsAt bindings i) ∧
      List.Forall₂ (fun i b => bindings[i]? = some b) positions kept
  distinct : kept.Pairwise fun b c => ¬b.SameSubgraph c
  /-- what is dropped has the subgraph of an earlier binding that is kept -/
  covered : ∀ i b, bindings[i]? = some b → ¬LeadsAt bindings i →
    ∃ j < i, ∃ c, bindings[j]? = some c ∧ c ∈ kept ∧ LeadsAt bindings j ∧
    c.SameSubgraph b

variable {bindings : List Binding} {b c d : Binding}

/-! ## Subgraphs -/

theorem SameSubgraph.trans (h : b.SameSubgraph c) (h' : c.SameSubgraph d) :
    b.SameSubgraph d :=
  ⟨h.1.trans h'.1, h.2.trans h'.2⟩

/-- Bindings have one subgraph iff their ids, in ascending order, are
the same. -/
theorem subgraph_eq_iff : b.subgraph = c.subgraph ↔ b.SameSubgraph c := by
  constructor
  · intro h
    have hperm : ∀ {l m : List Int}, l.mergeSort = m.mergeSort → l.Perm m :=
      fun {l m} heq =>
        (List.mergeSort_perm l _).symm.trans (heq ▸ List.mergeSort_perm m _)
    rw [subgraph, subgraph, Binding.mk.injEq] at h
    exact ⟨hperm h.1, hperm h.2⟩
  · rintro ⟨hnodes, hrelations⟩
    exact subgraph_eq_of_perm hnodes hrelations

/-! ## What is kept -/

theorem leadsAt_iff {i : Nat} (h : bindings[i]? = some b) :
    LeadsAt bindings i ↔ b.subgraph ∉ (bindings.take i).map subgraph := by
  rw [List.mem_map, not_exists]
  constructor
  · rintro hleads c ⟨hc, heq⟩
    obtain ⟨j, hj⟩ := List.mem_iff_getElem?.1 hc
    rw [List.getElem?_take] at hj
    split at hj
    · rename_i hlt
      exact hleads b h j hlt c hj (subgraph_eq_iff.1 heq)
    · cases hj
  · intro hnone b' hb' j hlt c hc hsame
    rw [h, Option.some.injEq] at hb'
    subst hb'
    refine hnone c ⟨List.mem_iff_getElem?.2 ⟨j, ?_⟩, subgraph_eq_iff.2 hsame⟩
    rw [List.getElem?_take, if_pos hlt, hc]

/-- A binding with earlier ones of its subgraph has a first of them. -/
theorem exists_leadsAt {i : Nat} (h : bindings[i]? = some b)
    (hnot : ¬LeadsAt bindings i) :
    ∃ j < i, ∃ c, bindings[j]? = some c ∧ LeadsAt bindings j ∧
    c.SameSubgraph b := by
  induction i using Nat.strongRecOn generalizing b with
  | ind i ih =>
    simp only [LeadsAt, h, Option.some.injEq, forall_eq', not_forall,
      not_not] at hnot
    obtain ⟨j, hlt, c, hc, hsame⟩ := hnot
    by_cases hleads : LeadsAt bindings j
    · exact ⟨j, hlt, c, hc, hleads, hsame⟩
    · obtain ⟨k, hk, d, hd, hleads', hsame'⟩ := ih j hlt hc hleads
      exact ⟨k, Nat.lt_trans hk hlt, d, hd, hleads', hsame'.trans hsame⟩

/-- The bindings without precedent, with their positions, by which equal
bindings are told apart. -/
def leading (bindings : List Binding) : List (Binding × Nat) :=
  bindings.zipIdx.filter fun p =>
    decide (p.1.subgraph ∉ (bindings.take p.2).map subgraph)

theorem mem_leading_iff {i : Nat} :
    (b, i) ∈ leading bindings ↔ bindings[i]? = some b ∧ LeadsAt bindings i := by
  rw [leading, List.mem_filter, List.mem_zipIdx_iff_getElem?,
    decide_eq_true_iff]
  exact and_congr_right fun h => (leadsAt_iff h).symm

theorem leading_ascending (bindings : List Binding) :
    (leading bindings).Pairwise fun p q => p.2 < q.2 := by
  refine List.Pairwise.filter _ (List.pairwise_map.1 ?_)
  rw [List.zipIdx_map_snd]
  exact List.pairwise_lt_range'

/-- What has no precedent is the first of each subgraph, and every subgraph has
such a first one. -/
theorem deduplicated_unprecedented (bindings : List Binding) :
    Deduplicated (unprecedented bindings) bindings where
  subsequence := by
    refine ⟨(leading bindings).map Prod.snd,
      List.pairwise_map.2 (leading_ascending bindings), fun i => ?_, ?_⟩
    · rw [List.mem_map]
      constructor
      · rintro ⟨⟨b, i⟩, hp, rfl⟩
        obtain ⟨hb, hleads⟩ := mem_leading_iff.1 hp
        exact ⟨(List.getElem?_eq_some_iff.1 hb).1, hleads⟩
      · rintro ⟨hlt, hleads⟩
        exact ⟨(bindings[i], i),
          mem_leading_iff.2 ⟨List.getElem?_eq_getElem hlt, hleads⟩, rfl⟩
    · show List.Forall₂ _ _ ((leading bindings).map Prod.fst)
      rw [List.forall₂_map_left_iff, List.forall₂_map_right_iff,
        List.forall₂_same]
      exact fun p hp => (mem_leading_iff.1 hp).1
  distinct := by
    show ((leading bindings).map Prod.fst).Pairwise _
    refine List.pairwise_map.2 ((leading_ascending bindings).imp_of_mem
      fun hp hq hlt => ?_)
    obtain ⟨hb, -⟩ := mem_leading_iff.1 hp
    obtain ⟨hc, hleads⟩ := mem_leading_iff.1 hq
    exact hleads _ hc _ hlt _ hb
  covered i b hb hnot := by
    obtain ⟨j, hlt, c, hc, hleads, hsame⟩ := exists_leadsAt hb hnot
    exact ⟨j, hlt, c, hc,
      List.mem_map.2 ⟨(c, j), mem_leading_iff.2 ⟨hc, hleads⟩, rfl⟩,
      hleads, hsame⟩

/-- What is kept is determined: it is what stands at the positions that lead. -/
theorem Deduplicated.at_positions {kept : List Binding} {positions : List Nat}
    (h : Deduplicated kept bindings) (hascending : positions.Pairwise (· < ·))
    (hleads : ∀ i, i ∈ positions ↔ i < bindings.length ∧ LeadsAt bindings i) :
    List.Forall₂ (fun i b => bindings[i]? = some b) positions kept := by
  obtain ⟨positions', hascending', hleads', hat⟩ := h.subsequence
  have hperm : positions.Perm positions' := by
    apply (List.perm_ext_iff_of_nodup (hascending.imp Nat.ne_of_lt)
      (hascending'.imp Nat.ne_of_lt)).2
    intro i
    rw [hleads, hleads']
  rw [hperm.eq_of_pairwise
    (fun _ _ _ _ hlt hgt => absurd hgt (Nat.lt_asymm hlt))
    hascending hascending']
  exact hat

end Binding

/-! ## Assembling under different policies -/

namespace Matches

open Query (Policy)

/-- Whether a row is assembled alike under all policies, but for
what is kept. -/
structure AlikeUnderPolicies (shape : Option Query.Shape)
    (row : Row) : Prop where
  /-- no policy refuses what another accepts, and all refuse with the
  same failure -/
  error_iff : ∀ p q failure,
    Assembler.assemble ⟨p, shape⟩ row = .error failure ↔
    Assembler.assemble ⟨q, shape⟩ row = .error failure
  breaking_eq : Assembler.assemble ⟨.breaking, shape⟩ row =
    Assembler.assemble ⟨.preserving, shape⟩ row
  deduplicated : ∀ m, Assembler.assemble ⟨.preserving, shape⟩ row = .ok m →
    ∃ m', Assembler.assemble ⟨.deduplicating, shape⟩ row = .ok m' ∧
    m'.graph = m.graph ∧
      Binding.Deduplicated m'.reported m.reported

/-- What is read of a row does not depend on the policy; what is kept
of it does. -/
theorem Assembler.assemble_eq_map (policy : Policy) (shape : Option Query.Shape)
    (row : Row) :
    Assembler.assemble ⟨policy, shape⟩ row =
      (fun m : Matches => ⟨m.graph, policy.kept m.reported⟩) <$>
        Assembler.assemble ⟨.preserving, shape⟩ row := by
  simp only [assemble_eq_bind, map_bind, map_pure]
  rfl

/-- A failure under one policy is a failure under each, since what is kept is
decided when everything was read. -/
theorem Assembler.assemble_eq_error_iff {policy : Policy}
    {shape : Option Query.Shape} {row : Row} {failure : Failure} :
    Assembler.assemble ⟨policy, shape⟩ row = .error failure ↔
      Assembler.assemble ⟨.preserving, shape⟩ row = .error failure := by
  rw [assemble_eq_map policy]
  cases Assembler.assemble ⟨.preserving, shape⟩ row with
  | error first => rfl
  | ok m => exact iff_of_false (fun h => nomatch h) fun h => nomatch h

/-- Every row is assembled alike under all policies, and deduplication keeps the
first binding of each subgraph. -/
theorem alike_under_policies (shape : Option Query.Shape) (row : Row) :
    AlikeUnderPolicies shape row where
  error_iff _ _ _ :=
    Assembler.assemble_eq_error_iff.trans Assembler.assemble_eq_error_iff.symm
  breaking_eq := by
    rw [Assembler.assemble_eq_map .breaking]
    exact id_map _
  deduplicated m hm := by
    refine ⟨⟨m.graph, Binding.unprecedented m.reported⟩, ?_, rfl,
      Binding.deduplicated_unprecedented m.reported⟩
    rw [Assembler.assemble_eq_map, hm]
    rfl

/-- Two nodes joined by two relationships, matched three times.  The second
match has the subgraph of the first one and is left out; the third has the other
relationship and is kept as it was bound, with its nodes not in order. -/
theorem alike_under_policies_parallel : ∃ row m m',
    Assembler.assemble ⟨.preserving, none⟩ row = .ok m ∧
      m.reported = [⟨[1, 2], [5]⟩, ⟨[2, 1], [5]⟩, ⟨[2, 1], [6]⟩] ∧
      Assembler.assemble ⟨.deduplicating, none⟩ row = .ok m' ∧
      m'.graph = m.graph ∧
      m'.reported = [⟨[1, 2], [5]⟩, ⟨[2, 1], [6]⟩] := by
  let all : List Binding := [⟨[1, 2], [5]⟩, ⟨[2, 1], [5]⟩, ⟨[2, 1], [6]⟩]
  have hrow : (Row.ofColumns [{ id := 1 }, { id := 2 }]
      [⟨5, 1, 2, "KNOWS", ∅⟩,
        ⟨6, 1, 2, "KNOWS", ∅⟩] all).WellFormed none _ _ _ :=
    Row.wellFormed_ofColumns (by unfold EndsListed; decide)
      (fun _ _ _ h => nomatch h)
      (by unfold Binding.Listed; decide)
  obtain ⟨m, hm, hassembled⟩ :=
    Assembler.assembled_of_wellFormed (a := ⟨.preserving, none⟩) hrow
  have hall : m.reported = all := hassembled.reported_eq
  obtain ⟨m', hm', hgraph, hkept⟩ :=
    (alike_under_policies none _).deduplicated m hm
  rw [hall] at hkept
  have hleads : ∀ i, i ∈ [0, 2] ↔ i < all.length ∧ Binding.LeadsAt all i := by
    intro i
    match i with
    | 0 =>
      exact iff_of_true (by decide)
        ⟨by decide, fun _ _ j hlt => absurd hlt j.not_lt_zero⟩
    | 1 =>
      -- the first binding has the subgraph of the second one
      refine iff_of_false (by decide) fun ⟨_, hleads⟩ =>
        hleads _ rfl 0 Nat.one_pos _ rfl ?_
      unfold Binding.SameSubgraph
      decide
    | 2 =>
      refine iff_of_true (by decide) ⟨by decide, ?_⟩
      rintro b ⟨⟩ j hlt c hc hsame
      have hearlier : ∀ c ∈ all.take 2, ¬c.relations.Perm [6] := by decide
      refine hearlier c (List.mem_iff_getElem?.2 ⟨j, ?_⟩) hsame.2
      rw [List.getElem?_take, if_pos hlt, hc]
    | i + 3 =>
      exact iff_of_false (by simp) fun ⟨hlt, _⟩ => absurd hlt (by simp [all])
  obtain ⟨b, rest, hb, hrest, hreported⟩ :=
    List.forall₂_cons_left_iff.1 (hkept.at_positions (by decide) hleads)
  obtain ⟨c, last, hc, hlast, rfl⟩ := List.forall₂_cons_left_iff.1 hrest
  rw [List.forall₂_nil_left_iff.1 hlast] at hreported
  cases hb
  cases hc
  exact ⟨_, m, m', hm, hall, hm', hgraph, hreported⟩

end Matches

end DrawnPattern
