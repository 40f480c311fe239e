import DrawnPattern.Proofs.Graph.Building
import DrawnPattern.Proofs.Match.Finding
set_option autoImplicit false

/-!
# Leaving labels out

A compiler that knows the catalog of a database leaves out the labels that the
catalog calls redundant.  If the catalog counts what the store holds, these are
labels that all elements carry (`Catalog.Counts.redundantNode_iff`), so the
labels that are still written ask for all labels of the graph
(`writtenLabels_iff`) and the query finds what it finds with all of them written
(`pruning_keeps_matches`).
-/

namespace DrawnPattern

/-! ## Counts -/

/-- Whether a catalog has the totals of a store and, for the labels and types it
lists, how many elements carry them. -/
structure Catalog.Counts (k : Catalog) (s : Store) : Prop where
  total_nodes : k.totalNodes = s.nodes.size
  total_relations : k.totalRelations = s.relationships.size
  node_count : ∀ label count, Map.get? k.nodeCounts label = some count →
    count = s.nodes.toList.countP fun n => decide (label ∈ n.labels)
  relation_count : ∀ label count, Map.get? k.relationCounts label = some count →
    count = s.relationships.toList.countP fun r => decide (label = r.type)

namespace Catalog.Counts

variable {k : Catalog} {s : Store} {label : String}

/-- Of a list that is not empty, all items pass iff a count that is right is
its length. -/
theorem count_eq_length_iff {α : Type} {items : List α} {p : α → Bool}
    {count? : Option Nat}
    (h : ∀ count, count? = some count → count = items.countP p) :
    (decide (0 < items.length) && count? == some items.length) = true ↔
      items ≠ [] ∧ count?.isSome = true ∧ ∀ a ∈ items, p a = true := by
  rw [Bool.and_eq_true, decide_eq_true_eq, List.length_pos_iff, beq_iff_eq,
    ← List.countP_eq_length]
  refine and_congr_right fun _ => ?_
  constructor
  · intro hcount
    exact ⟨by rw [hcount]; rfl, (h _ hcount).symm⟩
  · rintro ⟨hlisted, hall⟩
    obtain ⟨count, hcount⟩ := Option.isSome_iff_exists.1 hlisted
    rw [hcount, h count hcount, hall]

/-- The redundant node labels are those listed that every stored node carries,
if there is one. -/
theorem redundantNode_iff (h : k.Counts s) :
    k.isRedundantNodeLabel label = true ↔
    s.nodes.toList ≠ [] ∧ (Map.get? k.nodeCounts label).isSome = true ∧
      ∀ n ∈ s.nodes.toList, label ∈ n.labels := by
  rw [isRedundantNodeLabel, h.total_nodes, Keyed.size,
    count_eq_length_iff (h.node_count label)]
  simp only [decide_eq_true_eq]

/-- The redundant types are those listed that every stored relationship has, if
there is one. -/
theorem redundantRelation_iff (h : k.Counts s) :
    k.isRedundantRelationLabel label = true ↔
    s.relationships.toList ≠ [] ∧
    (Map.get? k.relationCounts label).isSome = true ∧
      ∀ r ∈ s.relationships.toList, label = r.type := by
  rw [isRedundantRelationLabel, h.total_relations, Keyed.size,
    count_eq_length_iff (h.relation_count label)]
  simp only [decide_eq_true_eq]

end Catalog.Counts

namespace Query

variable {c : Compiler} {g : Graph} {s : Store} {e : Assignment}

/-- With the right counts, all elements carry the labels that are left out: as
many carry the label as there are. -/
theorem omitsShared_of_counts {k : Catalog} (o : Options) (h : k.Counts s) :
    OmitsShared ⟨o, some k⟩ s where
  node label hdropped := by
    have hboth : (o.pruneLabels && k.isRedundantNodeLabel label) = true := by
      simpa [Compiler.keepsNodeLabel] using hdropped
    exact (h.redundantNode_iff.1 (Bool.and_eq_true_iff.1 hboth).2).2.2
  relation label hdropped := by
    have hboth :
        (o.pruneLabels && k.isRedundantRelationLabel label) = true := by
      simpa [Compiler.keepsRelationLabel] using hdropped
    exact (h.redundantRelation_iff.1 (Bool.and_eq_true_iff.1 hboth).2).2.2

/-- Whether a compiler writes every label, as one without a catalog does. -/
def WritesAll (c : Compiler) : Prop :=
  c.catalog = none ∨ c.options.pruneLabels = false

theorem keeps_of_writesAll (h : WritesAll c) (label : String) :
    c.keepsNodeLabel label = true ∧ c.keepsRelationLabel label = true := by
  obtain ⟨o, catalog⟩ := c
  cases catalog with
  | none => exact ⟨rfl, rfl⟩
  | some k =>
    have hkeep : o.pruneLabels = false := h.resolve_left (Option.some_ne_none k)
    simp [Compiler.keepsNodeLabel, Compiler.keepsRelationLabel, hkeep]

theorem omitsShared_of_writesAll (h : WritesAll c) (s : Store) :
    OmitsShared c s where
  node label hdropped := by
    rw [(keeps_of_writesAll h label).1] at hdropped
    cases hdropped
  relation label hdropped := by
    rw [(keeps_of_writesAll h label).2] at hdropped
    cases hdropped

/-! ## Labels of the pattern and of the graph -/

/-- Whether stored elements are bound to the nodes and relations of a graph,
whatever their traits are. -/
structure Bound (g : Graph) (s : Store) (e : Assignment) : Prop where
  node : ∀ n ∈ g.nodes.toList, e.node n.id ∈ s.nodes.toList
  relation : ∀ r ∈ g.relations.toList, e.relation r.id ∈ s.relationships.toList

/-- Whether the labels and types that the pattern writes are those of what
is bound. -/
structure WrittenLabels (c : Compiler) (g : Graph) (e : Assignment) : Prop where
  node : ∀ ref ∈ (chains g).flatMap Chain.refs, ∀ label ∈ (ref.slot c g).label,
    label ∈ (e.node ref.node).labels
  relation : ∀ step ∈ (chains g).flatMap Chain.steps,
    ∀ label ∈ (relationSlot c step.relation).label,
    label = (e.relation step.relation.id).type

/-- Whether all labels and types of the graph are those of what is bound, also
those that the pattern leaves out. -/
structure GraphLabels (g : Graph) (e : Assignment) : Prop where
  node : ∀ n ∈ g.nodes.toList, ∀ label ∈ n.traits.label,
    label ∈ (e.node n.id).labels
  relation : ∀ r ∈ g.relations.toList, ∀ label ∈ r.link.traits.label,
    label = (e.relation r.id).type

/-- What the pattern writes asks for all labels if those left out are
carried by all. -/
theorem writtenLabels_iff (homits : OmitsShared c s)
    (hconnected : g.isConnected = true) (hbound : Bound g s e) :
    WrittenLabels c g e ↔ GraphLabels g e := by
  have hnodes : (∀ ref ∈ (chains g).flatMap Chain.refs,
      ∀ label ∈ (ref.slot c g).label,
      label ∈ (e.node ref.node).labels) ↔
      ∀ n ∈ g.nodes.toList, ∀ label ∈ n.traits.label,
      label ∈ (e.node n.id).labels := by
    rw [forall_refs_iff hconnected fun id _ label hlabel => by
      simp [NodeRef.slot, mentionedSlot] at hlabel]
    refine forall₂_congr fun n hn => ?_
    rw [slot_declaration hn]
    exact forall_mem_filter_iff fun l hl =>
      homits.node l hl _ (hbound.node n hn)
  have hrelations : (∀ step ∈ (chains g).flatMap Chain.steps,
      ∀ label ∈ (relationSlot c step.relation).label,
      label = (e.relation step.relation.id).type) ↔
      ∀ r ∈ g.relations.toList, ∀ label ∈ r.link.traits.label,
      label = (e.relation r.id).type := by
    rw [forall_steps_iff hconnected
      (P := fun r => ∀ label ∈ (relationSlot c r).label,
        label = (e.relation r.id).type)]
    exact forall₂_congr fun r hr =>
      forall_mem_filter_iff fun l hl =>
        homits.relation l hl _ (hbound.relation r hr)
  exact ⟨fun h => ⟨hnodes.1 h.node, hrelations.1 h.relation⟩,
    fun h => ⟨hnodes.2 h.node, hrelations.2 h.relation⟩⟩

/-! ## Pruned and unpruned queries -/

/-- With the right counts, leaving redundant labels out changes nothing: what
the pattern still writes asks for all labels of the graph, and the query finds
what it finds without a catalog and with labels kept.  What is read here off the
slots of a pattern is what the text of its query is made of, for the pruned
query and for those it is compared with. -/
theorem pruning_keeps_matches (o : Options) (k : Catalog)
    (g : Graph) (s : Store) (hcounts : k.Counts s)
    (hconnected : g.isConnected = true) :
    (∀ c ∈ [⟨o, some k⟩, ⟨o, none⟩, ⟨{ o with pruneLabels := false }, some k⟩],
      Written c g) ∧
      (∀ e, Bound g s e → (WrittenLabels ⟨o, some k⟩ g e ↔ GraphLabels g e)) ∧
      {e | Finds ⟨o, some k⟩ g s e} = {e | Finds ⟨o, none⟩ g s e} ∧
      {e | Finds ⟨o, some k⟩ g s e} =
      {e | Finds ⟨{ o with pruneLabels := false }, some k⟩ g s e} := by
  have hpruned := omitsShared_of_counts o hcounts
  have hsame : ∀ c : Compiler, WritesAll c → c.options.policy = o.policy →
      {e | Finds ⟨o, some k⟩ g s e} = {e | Finds c g s e} := by
    intro c hall hpolicy
    refine Set.ext fun e => ?_
    show Finds ⟨o, some k⟩ g s e ↔ Finds c g s e
    rw [finds_iff_matches hpruned hconnected,
      finds_iff_matches (omitsShared_of_writesAll hall s) hconnected, hpolicy]
  exact ⟨fun c _ => written c g,
    fun e hbound => writtenLabels_iff hpruned hconnected hbound,
    hsame _ (.inl rfl) rfl, hsame _ (.inr rfl) rfl⟩

/-- Two persons, one of them an author, who know each other. -/
def twoPersons : Store where
  nodes :=
    ⟨[{ id := 1, labels := ["Person", "Author"] },
        { id := 2, labels := ["Person"] }], by decide⟩
  relationships := ⟨[⟨5, 1, 2, "KNOWS", ∅⟩], by decide⟩
  ends_stored := by decide

/-- The counts of `twoPersons`. -/
def twoPersonsCatalog : Catalog where
  nodeCounts := ((∅ : Map String Nat).insert "Person" 2).insert "Author" 1
  relationCounts := (∅ : Map String Nat).insert "KNOWS" 1
  totalNodes := 2
  totalRelations := 1

/-- Where all are persons and some are authors, a query for an author known to a
person writes the one label and leaves out the other. -/
theorem pruning_keeps_matches_twoPersons :
    ∃ g, Graph.ofLists
        [{ id := 0, traits := { label := some "Author" } },
          { id := 1, traits := { label := some "Person" } }]
        [⟨0, ⟨0, 1, false, { label := some "KNOWS" }⟩⟩] .required = .ok g ∧
      twoPersonsCatalog.isRedundantNodeLabel "Person" = true ∧
      twoPersonsCatalog.isRedundantNodeLabel "Author" = false ∧
      twoPersonsCatalog.Counts twoPersons ∧ g.isConnected = true ∧
      {e | Finds ⟨{}, some twoPersonsCatalog⟩ g twoPersons e} =
          {e | Finds ⟨{}, none⟩ g twoPersons e} := by
  have hcounts : twoPersonsCatalog.Counts twoPersons := by
    refine ⟨rfl, rfl, fun label count hcount => ?_,
      fun label count hcount => ?_⟩
    · rw [twoPersonsCatalog, Map.get?_insert, Map.get?_insert] at hcount
      split_ifs at hcount with hauthor hperson
      · subst hauthor
        cases hcount
        decide
      · subst hperson
        cases hcount
        decide
      · cases hcount
    · rw [twoPersonsCatalog, Map.get?_insert] at hcount
      split_ifs at hcount with hknows
      · subst hknows
        cases hcount
        decide
      · cases hcount
  refine Exists.imp (fun g hg => ⟨hg, by decide, by decide, hcounts, ?_⟩)
    (Graph.exists_of_isOk ?_)
  · have hconnected := Graph.isConnected_of_ofLists hg
    exact ⟨hconnected,
      (pruning_keeps_matches {} twoPersonsCatalog g twoPersons hcounts
        hconnected).2.2.1⟩
  · decide

end Query

end DrawnPattern
