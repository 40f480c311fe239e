import DrawnPattern.Matches
import DrawnPattern.Proofs.Agreement
import DrawnPattern.Proofs.Graph.Link
import DrawnPattern.Proofs.Keyed
import DrawnPattern.Proofs.Order
import Mathlib.Data.List.Perm.Basic
set_option autoImplicit false

/-!
# Embeddings

What a database does with a query, as far as the library relies on it.  A
`Store` is a property graph whose nodes and relationships have distinct ids.  An
`Assignment` binds a stored element to each node and relation of a query graph;
it is an embedding (`Assignment.Embeds`) when relations get different
relationships and each relationship lies between the bound ends.  Nodes may
share an image.

Which elements satisfy which traits is left open (`Fit`): all that is known is
that traits that agree are satisfied by the same elements.  `Fit.stored` is the
reading under which labels and properties are looked up in the element.

A relabelling of the query graph (`Relabels`) turns matches into matches of the
same subgraph (`Matches.relabel`, `subgraph_relabel`).
-/

namespace DrawnPattern

/-- A database: nodes and relationships with distinct ids, every relationship
between two of the nodes. -/
structure Store where
  nodes : Keyed StoredNode.id
  relationships : Keyed StoredRelationship.id
  ends_stored : ∀ r ∈ relationships.toList, r.source ∈ nodes.keys ∧
    r.target ∈ nodes.keys

/-! ## Satisfaction -/

/-- Which stored elements satisfy which traits; agreeing traits are not
told apart. -/
structure Fit where
  node : StoredNode → Traits → Prop
  relation : StoredRelationship → Traits → Prop
  node_congr : ∀ n a b, a.same b = true → node n a → node n b
  relation_congr : ∀ r a b, a.same b = true → relation r a → relation r b

/-- Whether stored properties meet one condition: null asks that there is no
such property, every other value that the property agrees with it. -/
def Properties.Meets (stored : Properties) (entry : String × Value) : Prop :=
  if entry.2.isNull then Map.get? stored entry.1 = none
  else ∃ value, Map.get? stored entry.1 = some value ∧ value.same entry.2 = true

theorem Properties.meets_of_entrySame {stored : Properties}
    {p q : String × Value} (h : entrySame p q) (hp : stored.Meets p) :
    stored.Meets q := by
  obtain ⟨hname, hvalue⟩ := h
  unfold Meets at hp ⊢
  rw [← hname, ← Value.isNull_eq_of_same hvalue]
  split at hp
  · rename_i hnull
    rw [if_pos hnull]
    exact hp
  · rename_i hnull
    rw [if_neg hnull]
    obtain ⟨value, hget, hsame⟩ := hp
    exact ⟨value, hget, Value.same_trans hsame hvalue⟩

/-- Meeting conditions is meeting conditions that agree with them. -/
theorem Properties.meets_all_of_same {stored a b : Properties}
    (h : same a b = true) (ha : ∀ entry ∈ a.toList, stored.Meets entry) :
    ∀ entry ∈ b.toList, stored.Meets entry := by
  rw [same_iff] at h
  generalize a.toList = l, b.toList = m at h ha ⊢
  induction h with
  | nil => exact ha
  | cons hpq _ ih =>
    rw [List.forall_mem_cons] at ha ⊢
    exact ⟨meets_of_entrySame hpq ha.1, ih ha.2⟩

/-- The reading under which a node carries the label, a relationship has the
type, and both meet each condition on a property. -/
def Fit.stored : Fit where
  node n t := (∀ label ∈ t.label, label ∈ n.labels) ∧
    ∀ entry ∈ t.properties.toList, n.properties.Meets entry
  relation r t := (∀ label ∈ t.label, label = r.type) ∧
    ∀ entry ∈ t.properties.toList, r.properties.Meets entry
  node_congr := by
    rintro n a b hsame ⟨hlabel, hprops⟩
    rw [Traits.same_iff] at hsame
    exact ⟨hsame.1 ▸ hlabel, Properties.meets_all_of_same hsame.2 hprops⟩
  relation_congr := by
    rintro r a b hsame ⟨hlabel, hprops⟩
    rw [Traits.same_iff] at hsame
    exact ⟨hsame.1 ▸ hlabel, Properties.meets_all_of_same hsame.2 hprops⟩

instance : Inhabited Fit := ⟨Fit.stored⟩

/-! ## Assignments -/

/-- Whether a relationship lies between the elements placed at the ends
of a link: from its source to its target if it is directed, either way
round if not. -/
def Link.Spans (l : Link) (place : NodeId → Int)
    (r : StoredRelationship) : Prop :=
  (r.source = place l.source ∧ r.target = place l.target) ∨
    (l.directed = false ∧ r.source = place l.target ∧ r.target = place l.source)

/-- The reading of a link does not matter for what it spans, since without
direction it spans both ways. -/
theorem Link.spans_of_normal_eq {l m : Link} {place : NodeId → Int}
    {r : StoredRelationship} (h : l.normal = m.normal) (hl : l.Spans place r) :
    m.Spans place r := by
  obtain ⟨hdir, -, hends⟩ := normal_eq_iff.1 h
  unfold Spans at hl ⊢
  rw [← hdir]
  rcases hends with ⟨hs, ht⟩ | ⟨hd, hs, ht⟩
  · rw [← hs, ← ht]
    exact hl
  · rw [← hs, ← ht]
    rcases hl with hl | ⟨-, hl⟩
    · exact .inr ⟨hd, hl.1, hl.2⟩
    · exact .inl hl

/-- A stored element for each node and relation of a query graph; what it gives
for other numbers does not matter. -/
structure Assignment where
  node : NodeId → StoredNode
  relation : RelationId → StoredRelationship

namespace Assignment

/-- The id of the element bound to a node. -/
def place (e : Assignment) (node : NodeId) : Int := (e.node node).id

/-- The id of the element bound to a relation. -/
def relationId (e : Assignment) (relation : RelationId) : Int :=
  (e.relation relation).id

/-- Whether an assignment embeds a query graph into a store: relations go to
different relationships, nodes may share an image. -/
structure Embeds (e : Assignment) (g : Graph) (s : Store) : Prop where
  node_mem : ∀ n ∈ g.nodes.toList, e.node n.id ∈ s.nodes.toList
  relation_mem : ∀ r ∈ g.relations.toList,
    e.relation r.id ∈ s.relationships.toList
  relation_inj : ∀ a ∈ g.relations.toList, ∀ b ∈ g.relations.toList,
    e.relation a.id = e.relation b.id → a.id = b.id
  spans : ∀ r ∈ g.relations.toList, r.link.Spans e.place (e.relation r.id)

/-- An embedding whose images satisfy the traits of what they are bound to, as
some reading of traits has it. -/
structure Matches (e : Assignment) (fit : Fit) (g : Graph)
    (s : Store) : Prop where
  embeds : e.Embeds g s
  node_fits : ∀ n ∈ g.nodes.toList, fit.node (e.node n.id) n.traits
  relation_fits : ∀ r ∈ g.relations.toList,
    fit.relation (e.relation r.id) r.link.traits

/-- What is reported of an assignment: the bound ids, in the order of the
variables. -/
def binding (e : Assignment) (g : Graph) : Binding :=
  ⟨g.nodeIds.map e.place, g.relationIds.map e.relationId⟩

/-- Different relations are bound to different ids. -/
theorem Embeds.relationId_inj {e : Assignment} {g : Graph} {s : Store}
    (h : e.Embeds g s) {a b : Relation} (ha : a ∈ g.relations.toList)
    (hb : b ∈ g.relations.toList)
    (hid : e.relationId a.id = e.relationId b.id) : a.id = b.id :=
  h.relation_inj a ha b hb (Keyed.eq_of_key_eq (h.relation_mem a ha)
    (h.relation_mem b hb) hid)

end Assignment

/-! ## Relabelling -/

/-- Bindings of the same ids are bindings of the same subgraph. -/
theorem Binding.subgraph_eq_of_perm {a b : Binding}
    (hnodes : a.nodes.Perm b.nodes)
    (hrelations : a.relations.Perm b.relations) : a.subgraph = b.subgraph := by
  have hsort : ∀ {l m : List Int}, l.Perm m → l.mergeSort = m.mergeSort :=
    mergeSort_eq_of_perm (by simp only [decide_eq_true_eq]; omega)
      (by simp only [Bool.or_eq_true, decide_eq_true_eq]; omega)
      (by simp only [decide_eq_true_eq]; omega)
  rw [subgraph, subgraph, hsort hnodes, hsort hrelations]

/-- Renamings of the nodes and relations under which a graph looks the same. -/
structure Relabels (g : Graph) (f : NodeId → NodeId)
    (σ : RelationId → RelationId) : Prop where
  nodes_perm : (g.nodeIds.map f).Perm g.nodeIds
  relations_perm : (g.relationIds.map σ).Perm g.relationIds
  traits : ∀ n ∈ g.nodes.toList, ∃ m ∈ g.nodes.toList,
    m.id = f n.id ∧ (m = n ∨ m.traits.same n.traits = true)
  link : ∀ r ∈ g.relations.toList, ∃ s ∈ g.relations.toList,
    s.id = σ r.id ∧ s.link.normal = (r.link.rename f).normal

theorem Relabels.id (g : Graph) : Relabels g id id where
  nodes_perm := by rw [List.map_id]
  relations_perm := by rw [List.map_id]
  traits n hn := ⟨n, hn, rfl, .inl rfl⟩
  link r hr := ⟨r, hr, rfl, rfl⟩

/-- Relabellings compose. -/
theorem Relabels.comp {g : Graph} {f f' : NodeId → NodeId}
    {σ σ' : RelationId → RelationId} (h : Relabels g f σ)
    (h' : Relabels g f' σ') : Relabels g (f ∘ f') (σ ∘ σ') where
  nodes_perm := by
    rw [← List.map_map]
    exact (h'.nodes_perm.map f).trans h.nodes_perm
  relations_perm := by
    rw [← List.map_map]
    exact (h'.relations_perm.map σ).trans h.relations_perm
  traits n hn := by
    obtain ⟨m, hm, hid, hsame⟩ := h'.traits n hn
    obtain ⟨k, hk, hid', hsame'⟩ := h.traits m hm
    refine ⟨k, hk, by rw [hid', hid, Function.comp_apply], ?_⟩
    rcases hsame with rfl | hsame
    · exact hsame'
    · rcases hsame' with rfl | hsame'
      · exact .inr hsame
      · exact .inr (Traits.same_trans hsame' hsame)
  link r hr := by
    obtain ⟨t, ht, hid, hnormal⟩ := h'.link r hr
    obtain ⟨u, hu, hid', hnormal'⟩ := h.link t ht
    refine ⟨u, hu, by rw [hid', hid, Function.comp_apply], ?_⟩
    rw [hnormal', ← Link.normal_rename_normal t.link f, hnormal,
      Link.normal_rename_normal, Link.rename_rename]

namespace Assignment

/-- The assignment after relabelling: each element is bound to what the label
now names. -/
def relabel (e : Assignment) (f : NodeId → NodeId)
    (σ : RelationId → RelationId) : Assignment :=
  ⟨fun node => e.node (f node), fun relation => e.relation (σ relation)⟩

variable {e : Assignment} {fit : Fit} {g : Graph} {s : Store}
  {f : NodeId → NodeId} {σ : RelationId → RelationId}

theorem Embeds.relabel (h : e.Embeds g s) (hre : Relabels g f σ) :
    (e.relabel f σ).Embeds g s where
  node_mem n hn := by
    obtain ⟨m, hm, hid, -⟩ := hre.traits n hn
    have hmem := h.node_mem m hm
    rw [hid] at hmem
    exact hmem
  relation_mem r hr := by
    obtain ⟨t, ht, hid, -⟩ := hre.link r hr
    have hmem := h.relation_mem t ht
    rw [hid] at hmem
    exact hmem
  relation_inj a ha b hb heq := by
    obtain ⟨a', ha', hida, -⟩ := hre.link a ha
    obtain ⟨b', hb', hidb, -⟩ := hre.link b hb
    have hσ : σ a.id = σ b.id := by
      rw [← hida, ← hidb]
      exact h.relation_inj a' ha' b' hb' (by rw [hida, hidb]; exact heq)
    have hnodup : (g.relationIds.map σ).Nodup :=
      hre.relations_perm.nodup_iff.2 (Keyed.keys_nodup g.relations)
    exact List.inj_on_of_nodup_map hnodup (Keyed.key_mem_keys ha)
      (Keyed.key_mem_keys hb) hσ
  spans r hr := by
    obtain ⟨t, ht, hid, hnormal⟩ := hre.link r hr
    have hspans := Link.spans_of_normal_eq hnormal (h.spans t ht)
    rw [hid] at hspans
    exact hspans

/-- A relabelled match is a match: it binds the same elements, each to an
element of the query that asks for the same. -/
theorem Matches.relabel (h : e.Matches fit g s) (hre : Relabels g f σ) :
    (e.relabel f σ).Matches fit g s where
  embeds := h.embeds.relabel hre
  node_fits n hn := by
    obtain ⟨m, hm, hid, hsame⟩ := hre.traits n hn
    have hfits := h.node_fits m hm
    rw [hid] at hfits
    rcases hsame with rfl | hsame
    · exact hfits
    · exact fit.node_congr _ _ _ hsame hfits
  relation_fits r hr := by
    obtain ⟨t, ht, hid, hnormal⟩ := hre.link r hr
    have hfits := h.relation_fits t ht
    have htraits : t.link.traits = r.link.traits := by
      rw [← Link.normal_traits t.link, hnormal, Link.normal_traits,
        Link.rename_traits]
    rw [hid, htraits] at hfits
    exact hfits

/-- A relabelled assignment binds the same subgraph, since it binds the same ids
in another order. -/
theorem subgraph_relabel (hre : Relabels g f σ) :
    ((e.relabel f σ).binding g).subgraph = (e.binding g).subgraph := by
  have hnodes := hre.nodes_perm.map e.place
  have hrelations := hre.relations_perm.map e.relationId
  rw [List.map_map] at hnodes hrelations
  exact Binding.subgraph_eq_of_perm hnodes hrelations

end Assignment

end DrawnPattern
