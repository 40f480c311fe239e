import DrawnPattern.Proofs.Symmetry.Members
import DrawnPattern.Query.Predicate
set_option autoImplicit false

/-!
# Which predicates a query has

A query asks that a property is missing for each null of its graph, and, where
symmetries are broken, that the ids bound to neighbours of a class ascend.  As
the order of ids is transitive, all ids bound to a class ascend then
(`pairwise_iff_neighbouring`).
-/

namespace DrawnPattern.Query

/-! ## Neighbours -/

theorem mem_neighbouring {α : Type} {R : α → α → Prop} {items : List α}
    (h : items.Pairwise R) {a b : α} (hab : (a, b) ∈ neighbouring items) :
    a ∈ items ∧ b ∈ items ∧ R a b := by
  unfold neighbouring at hab
  induction items with
  | nil => simp at hab
  | cons x rest ih =>
    cases rest with
    | nil => simp at hab
    | cons y rest =>
      obtain ⟨hx, hrest⟩ := List.pairwise_cons.1 h
      simp only [List.tail_cons, List.zip_cons_cons, List.mem_cons,
        Prod.mk.injEq] at hab
      rcases hab with ⟨rfl, rfl⟩ | hab
      · exact ⟨by simp, by simp, hx _ List.mem_cons_self⟩
      · obtain ⟨ha, hb, hR⟩ := ih hrest hab
        exact ⟨List.mem_cons_of_mem _ ha, List.mem_cons_of_mem _ hb, hR⟩

/-- A transitive relation holds throughout a list iff it holds between
neighbours. -/
theorem pairwise_iff_neighbouring {α : Type} {R : α → α → Prop}
    (trans : ∀ a b c, R a b → R b c → R a c) {items : List α} :
    items.Pairwise R ↔ ∀ pair ∈ neighbouring items, R pair.1 pair.2 := by
  refine ⟨fun h pair hpair => (mem_neighbouring h hpair).2.2, fun h => ?_⟩
  unfold neighbouring at h
  induction items with
  | nil => exact .nil
  | cons x rest ih =>
    cases rest with
    | nil => exact List.pairwise_singleton R x
    | cons y rest =>
      rw [List.tail_cons, List.zip_cons_cons, List.forall_mem_cons] at h
      have hrest := ih h.2
      refine List.pairwise_cons.2 ⟨?_, hrest⟩
      rw [List.forall_mem_cons]
      exact ⟨h.1,
        fun z hz => trans x y z h.1 ((List.pairwise_cons.1 hrest).1 z hz)⟩

/-! ## Predicates by kind -/

variable {policy : Policy} {g : Graph}

theorem nodeLacks_mem_iff {node : NodeId} {property : String} :
    .nodeLacks node property ∈ predicates policy g ↔
      ∃ n ∈ g.nodes.toList, n.id = node ∧
      property ∈ nullNames n.traits.properties := by
  unfold predicates lackPredicates orderPredicates
  split <;> simp <;> tauto

theorem relationLacks_mem_iff {relation : RelationId} {property : String} :
    .relationLacks relation property ∈ predicates policy g ↔
      ∃ r ∈ g.relations.toList, r.id = relation ∧
      property ∈ nullNames r.link.traits.properties := by
  unfold predicates lackPredicates orderPredicates
  split <;> simp <;> tauto

theorem nodesAscend_mem_iff {lower upper : NodeId} :
    .nodesAscend lower upper ∈ predicates policy g ↔
      policy = .breaking ∧
        ∃ members ∈ g.symmetry.nodeClasses,
        (lower, upper) ∈ neighbouring members := by
  unfold predicates lackPredicates orderPredicates
  split <;> simp [*]

theorem relationsAscend_mem_iff {lower upper : RelationId} :
    .relationsAscend lower upper ∈ predicates policy g ↔
      policy = .breaking ∧
        ∃ members ∈ g.symmetry.relationClasses,
        (lower, upper) ∈ neighbouring members := by
  unfold predicates lackPredicates orderPredicates
  split <;> simp [*]

end DrawnPattern.Query
