import DrawnPattern.Proofs.Match.Breaking
import DrawnPattern.Proofs.Query.Coverage
import DrawnPattern.Proofs.Query.Written
set_option autoImplicit false

/-!
# What a query finds

A database reads the pattern of a query chain by chain: every node and relation
it binds is stored and satisfies the label and the properties written of it,
every relationship lies as its arrow is drawn, different relations get different
relationships, and the predicates hold (`Finds`).  If every label that is not
written is one that all elements of the store carry (`OmitsShared`), the query
of a connected graph finds exactly the matches of the graph with the order asked
for (`finds_iff_matches`).
-/

namespace DrawnPattern.Query

variable {c : Compiler} {g : Graph} {s : Store} {e : Assignment}

/-! ## Reading the pattern -/

/-- Whether a stored node satisfies what is written of a node: it carries the
label, if one is written, and the properties agree. -/
structure Slot.FitsNode (slot : Slot) (n : StoredNode) : Prop where
  label : ∀ label ∈ slot.label, label ∈ n.labels
  asked : ∀ entry ∈ slot.asked, n.properties.Meets entry

/-- Whether a stored relationship satisfies what is written of a relation: it
has the type, if one is written, and the properties agree. -/
structure Slot.FitsRelation (slot : Slot) (r : StoredRelationship) : Prop where
  label : ∀ label ∈ slot.label, label = r.type
  asked : ∀ entry ∈ slot.asked, r.properties.Meets entry

/-- Whether a relationship lies between two elements as an arrow is drawn
between them. -/
def Arrow.Joins (r : StoredRelationship) (before after : Int) : Arrow → Prop
  | plain =>
    (r.source = before ∧ r.target = after) ∨
      (r.source = after ∧ r.target = before)
  | forward => r.source = before ∧ r.target = after
  | backward => r.source = after ∧ r.target = before

/-- Whether the element bound to a node is stored and satisfies what is written
where the node is referred to. -/
structure NodeRef.Admits (c : Compiler) (g : Graph) (s : Store) (e : Assignment)
    (ref : NodeRef) :
    Prop where
  stored : e.node ref.node ∈ s.nodes.toList
  fits : (ref.slot c g).FitsNode (e.node ref.node)

/-- Whether the element bound to the relation of a step is stored, satisfies
what is written of the relation, and lies between the elements bound to the
nodes around it. -/
structure Step.Admits (c : Compiler) (g : Graph) (s : Store) (e : Assignment)
    (before : NodeId) (step : Step) : Prop where
  stored : e.relation step.relation.id ∈ s.relationships.toList
  fits : (relationSlot c step.relation).FitsRelation
    (e.relation step.relation.id)
  joins : step.arrow.Joins (e.relation step.relation.id) (e.place before)
    (e.place step.node.node)
  node : step.node.Admits c g s e

/-- Whether steps are admitted one after the other, from the node
before them on. -/
def AdmitsSteps (c : Compiler) (g : Graph) (s : Store) (e : Assignment) :
    NodeId → List Step → Prop
  | _, [] => True
  | before, step :: rest =>
    step.Admits c g s e before ∧ AdmitsSteps c g s e step.node.node rest

/-- Whether a chain is admitted: its first node, and its steps from there on. -/
structure Chain.Admits (c : Compiler) (g : Graph) (s : Store) (e : Assignment)
    (chain : Chain) :
    Prop where
  start : chain.start.Admits c g s e
  steps : AdmitsSteps c g s e chain.start.node chain.steps

/-- Whether a predicate holds of what is bound, read as its text says it. -/
def Predicate.Holds (e : Assignment) : Predicate → Prop
  | nodeLacks node property => Map.get? (e.node node).properties property = none
  | relationLacks relation property =>
    Map.get? (e.relation relation).properties property = none
  | nodesAscend lower upper => e.place lower ≤ e.place upper
  | relationsAscend lower upper => e.relationId lower < e.relationId upper

/-- Whether the query of a graph finds an assignment in a store.  This is read
off what the query writes, not off the graph. -/
structure Finds (c : Compiler) (g : Graph) (s : Store) (e : Assignment) :
    Prop where
  pattern : ∀ chain ∈ chains g, chain.Admits c g s e
  relation_inj : ∀ a ∈ (chains g).flatMap Chain.steps,
    ∀ b ∈ (chains g).flatMap Chain.steps,
    e.relation a.relation.id = e.relation b.relation.id →
    a.relation.id = b.relation.id
  predicates : ∀ p ∈ predicates c.options.policy g, p.Holds e

/-! ## Labels that are not written -/

/-- Whether every label that is not written is one that all elements carry, so
that leaving it out loses no condition. -/
structure OmitsShared (c : Compiler) (s : Store) : Prop where
  node : ∀ label, c.keepsNodeLabel label = false →
    ∀ n ∈ s.nodes.toList, label ∈ n.labels
  relation : ∀ label, c.keepsRelationLabel label = false →
    ∀ r ∈ s.relationships.toList, label = r.type

/-- What holds of the labels left out holds of all labels if it holds of
those kept. -/
theorem forall_mem_filter_iff {label : Option String} {keep : String → Bool}
    {P : String → Prop} (h : ∀ l, keep l = false → P l) :
    (∀ l ∈ label.filter keep, P l) ↔ ∀ l ∈ label, P l := by
  cases label with
  | none => simp
  | some l =>
    cases hkeep : keep l with
    | false => simp [Option.filter, hkeep, h l hkeep]
    | true => simp [Option.filter, hkeep]

/-! ## Conditions on properties -/

/-- Conditions are met if those with a value are met and those without one
name nothing. -/
theorem forall_meets_iff {stored asked : Properties} :
    (∀ entry ∈ asked.toList, stored.Meets entry) ↔
    (∀ entry ∈ presentProperties asked, stored.Meets entry) ∧
      ∀ name ∈ nullNames asked, Map.get? stored name = none := by
  simp only [presentProperties, nullNames, List.mem_filter, List.mem_map]
  constructor
  · intro h
    refine ⟨fun entry hentry => h entry hentry.1, ?_⟩
    rintro name ⟨entry, ⟨hentry, hnull⟩, rfl⟩
    have hmeets := h entry hentry
    rw [Properties.Meets, if_pos hnull] at hmeets
    exact hmeets
  · rintro ⟨hpresent, hmissing⟩ entry hentry
    cases hnull : entry.2.isNull with
    | false => exact hpresent entry ⟨hentry, by rw [hnull]; rfl⟩
    | true =>
      rw [Properties.Meets, if_pos hnull]
      exact hmissing entry.1 ⟨entry, ⟨hentry, hnull⟩, rfl⟩

/-- What is written of a node and its null checks ask for its traits: values
inline, null in a check, and the label unless it tells nothing. -/
theorem fits_declaredSlot_iff (homits : OmitsShared c s) {n : Node}
    {m : StoredNode} (hm : m ∈ s.nodes.toList) : Fit.stored.node m n.traits ↔
      (declaredSlot c n).FitsNode m ∧
        ∀ name ∈ nullNames n.traits.properties,
        Map.get? m.properties name = none := by
  have hlabel : (∀ l ∈ n.traits.label.filter c.keepsNodeLabel, l ∈ m.labels) ↔
      _ :=
    forall_mem_filter_iff fun l hl => homits.node l hl m hm
  show (∀ l ∈ n.traits.label, l ∈ m.labels) ∧ _ ↔ _
  rw [← hlabel, forall_meets_iff, ← and_assoc]
  exact and_congr_left fun _ =>
    ⟨fun h => ⟨h.1, h.2⟩, fun h => ⟨h.label, h.asked⟩⟩

/-- What is written of a relation and its null checks ask for its traits, as
with nodes. -/
theorem fits_relationSlot_iff (homits : OmitsShared c s) {r : Relation}
    {m : StoredRelationship} (hm : m ∈ s.relationships.toList) :
    Fit.stored.relation m r.link.traits ↔
      (relationSlot c r).FitsRelation m ∧
        ∀ name ∈ nullNames r.link.traits.properties,
        Map.get? m.properties name = none := by
  have hlabel : (∀ l ∈ r.link.traits.label.filter c.keepsRelationLabel,
      l = m.type) ↔ _ :=
    forall_mem_filter_iff fun l hl => homits.relation l hl m hm
  show (∀ l ∈ r.link.traits.label, l = m.type) ∧ _ ↔ _
  rw [← hlabel, forall_meets_iff, ← and_assoc]
  exact and_congr_left fun _ =>
    ⟨fun h => ⟨h.1, h.2⟩, fun h => ⟨h.label, h.asked⟩⟩

/-- The predicates hold if the null checks do and the ids are in order. -/
theorem forall_predicates_hold_iff {policy : Policy} :
    (∀ p ∈ predicates policy g, p.Holds e) ↔
    (∀ n ∈ g.nodes.toList, ∀ name ∈ nullNames n.traits.properties,
      Map.get? (e.node n.id).properties name = none) ∧
    (∀ r ∈ g.relations.toList, ∀ name ∈ nullNames r.link.traits.properties,
      Map.get? (e.relation r.id).properties name = none) ∧
    ∀ p ∈ predicates policy g, p.Ordered e := by
  constructor
  · intro h
    refine ⟨fun n hn name hname => ?_, fun r hr name hname => ?_,
      fun p hp => ?_⟩
    · exact h _ (nodeLacks_mem_iff.2 ⟨n, hn, rfl, hname⟩)
    · exact h _ (relationLacks_mem_iff.2 ⟨r, hr, rfl, hname⟩)
    · cases p with
      | nodeLacks node property => trivial
      | relationLacks relation property => trivial
      | nodesAscend lower upper => exact h _ hp
      | relationsAscend lower upper => exact h _ hp
  · rintro ⟨hnodes, hrelations, hordered⟩ p hp
    cases p with
    | nodeLacks node property =>
      obtain ⟨n, hn, rfl, hname⟩ := nodeLacks_mem_iff.1 hp
      exact hnodes n hn property hname
    | relationLacks relation property =>
      obtain ⟨r, hr, rfl, hname⟩ := relationLacks_mem_iff.1 hp
      exact hrelations r hr property hname
    | nodesAscend lower upper => exact hordered _ hp
    | relationsAscend lower upper => exact hordered _ hp

/-! ## Chains -/

/-- An arrow is drawn so that relationships lie as the link asks for, from
whichever end the link is walked. -/
theorem joins_arrowFrom_iff {l : Link} {before after : NodeId}
    (hends : l.other before = some after) (place : NodeId → Int)
    (r : StoredRelationship) :
    (arrowFrom l before).Joins r (place before) (place after) ↔
    l.Spans place r := by
  unfold arrowFrom Link.Spans
  rw [Link.other_eq_some_iff] at hends
  cases hdirected : l.directed with
  | false =>
    simp only [Bool.not_false, if_true, Arrow.Joins, true_and]
    rcases hends with ⟨hs, ht⟩ | ⟨hs, ht⟩
    · rw [hs, ht]
    · rw [hs, ht]
      exact or_comm
  | true =>
    simp only [Bool.not_true, Bool.false_eq_true, if_false, reduceCtorEq,
      false_and, or_false]
    by_cases hsource : l.source = before
    · have htarget : l.target = after := by
        rcases hends with ⟨-, ht⟩ | ⟨hs, ht⟩
        · exact ht
        · rw [ht, ← hsource, hs]
      rw [if_pos hsource, hsource, htarget]
      rfl
    · obtain ⟨hs, ht⟩ := hends.resolve_left fun h => hsource h.1
      rw [if_neg hsource, hs, ht]
      rfl

/-- Whether the element bound to a relation is stored, satisfies what is written
of the relation, and lies between the elements bound to its ends. -/
structure RelationAdmits (c : Compiler) (s : Store) (e : Assignment)
    (r : Relation) : Prop where
  stored : e.relation r.id ∈ s.relationships.toList
  fits : (relationSlot c r).FitsRelation (e.relation r.id)
  spans : r.link.Spans e.place (e.relation r.id)

/-- Steps that lead on are admitted iff their relations and the nodes they
lead to are. -/
theorem Leads.admitsSteps_iff {node : NodeId} {steps : List Step}
    (h : Leads c g node steps) :
    AdmitsSteps c g s e node steps ↔
      ∀ step ∈ steps, RelationAdmits c s e step.relation ∧
      step.node.Admits c g s e := by
  induction h with
  | stop node => simp [AdmitsSteps]
  | @go node step rest passes _ ih =>
    have hjoins :=
      joins_arrowFrom_iff passes.ends e.place (e.relation step.relation.id)
    rw [← passes.arrow_eq] at hjoins
    have hstep : step.Admits c g s e node ↔
        RelationAdmits c s e step.relation ∧ step.node.Admits c g s e :=
      ⟨fun h => ⟨⟨h.stored, h.fits, hjoins.1 h.joins⟩, h.node⟩,
        fun h => ⟨h.1.stored, h.1.fits, hjoins.2 h.1.spans, h.2⟩⟩
    rw [AdmitsSteps, hstep, ih, List.forall_mem_cons]

/-- The pattern is admitted iff its references and its relations are, so that
the chains can be forgotten. -/
theorem Drawn.admits_iff {left : List RelationId} {final : OrderedSet NodeId}
    (h : Drawn c g left final) : (∀ chain ∈ chains g, chain.Admits c g s e) ↔
      (∀ ref ∈ (chains g).flatMap Chain.refs, ref.Admits c g s e) ∧
        ∀ step ∈ (chains g).flatMap Chain.steps,
        RelationAdmits c s e step.relation := by
  have hchain : ∀ chain ∈ chains g, chain.Admits c g s e ↔
      (∀ ref ∈ chain.refs, ref.Admits c g s e) ∧
        ∀ step ∈ chain.steps, RelationAdmits c s e step.relation := by
    intro chain hchain
    have hsteps := (h.leads chain hchain).admitsSteps_iff (s := s) (e := e)
    rw [Chain.refs, List.forall_mem_cons, List.forall_mem_map]
    constructor
    · intro hadmits
      have hall := hsteps.1 hadmits.steps
      exact ⟨⟨hadmits.start, fun step hstep => (hall step hstep).2⟩,
        fun step hstep => (hall step hstep).1⟩
    · rintro ⟨⟨hstart, hnodes⟩, hrelations⟩
      exact ⟨hstart, hsteps.2 fun step hstep =>
        ⟨hrelations step hstep, hnodes step hstep⟩⟩
  constructor
  · intro hall
    refine ⟨fun ref href => ?_, fun step hstep => ?_⟩
    · obtain ⟨chain, hmem, href⟩ := List.mem_flatMap.1 href
      exact ((hchain chain hmem).1 (hall chain hmem)).1 ref href
    · obtain ⟨chain, hmem, hstep⟩ := List.mem_flatMap.1 hstep
      exact ((hchain chain hmem).1 (hall chain hmem)).2 step hstep
  · rintro ⟨hrefs, hsteps⟩ chain hmem
    exact (hchain chain hmem).2
      ⟨fun ref href => hrefs ref (List.mem_flatMap.2 ⟨chain, hmem, href⟩),
        fun step hstep => hsteps step (List.mem_flatMap.2 ⟨chain, hmem, hstep⟩)⟩

/-- The steps of a connected graph take its relations. -/
theorem forall_steps_iff (hconnected : g.isConnected = true)
    {P : Relation → Prop} :
    (∀ step ∈ (chains g).flatMap Chain.steps, P step.relation) ↔
    ∀ r ∈ g.relations.toList, P r := by
  obtain ⟨left, final, h⟩ := exists_drawn {} g
  obtain ⟨rfl, -⟩ := h.of_isConnected hconnected
  rw [← List.forall_mem_map (f := Step.relation)]
  exact forall_congr' fun r => imp_congr_left h.relations_perm.mem_iff

/-- What holds of mentions where it holds of declarations holds of all
references in a connected graph if it holds of its nodes where they are
declared. -/
theorem forall_refs_iff (hconnected : g.isConnected = true) {P : NodeRef → Prop}
    (hmention : ∀ id, P (.declaration id) → P (.mention id)) :
    (∀ ref ∈ (chains g).flatMap Chain.refs, P ref) ↔
      ∀ n ∈ g.nodes.toList, P (.declaration n.id) := by
  obtain ⟨left, final, h⟩ := exists_drawn {} g
  obtain ⟨rfl, hall⟩ := h.of_isConnected hconnected
  refine ⟨fun hrefs n hn =>
    hrefs _ (h.declaration_mem hall (Keyed.key_mem_keys hn)), ?_⟩
  intro hnodes ref href
  have hmet := (h.met_iff hall _).1 (List.mem_map_of_mem href)
  obtain ⟨n, hn, hid⟩ := Graph.mem_nodeIds.1 hmet
  have hdeclared : P (.declaration ref.node) := hid ▸ hnodes n hn
  cases ref with
  | declaration id => exact hdeclared
  | mention id => exact hmention id hdeclared

/-- The pattern of a connected graph is admitted iff its nodes, as they are
declared, and its relations are: a mention writes nothing. -/
theorem forall_admits_iff (hconnected : g.isConnected = true) :
    (∀ chain ∈ chains g, chain.Admits c g s e) ↔
      (∀ n ∈ g.nodes.toList,
        e.node n.id ∈ s.nodes.toList ∧
        (declaredSlot c n).FitsNode (e.node n.id)) ∧
      ∀ r ∈ g.relations.toList, RelationAdmits c s e r := by
  obtain ⟨left, final, h⟩ := exists_drawn c g
  have hmention : ∀ id, (NodeRef.declaration id).Admits c g s e →
      (NodeRef.mention id).Admits c g s e := fun id hadmits =>
    ⟨hadmits.stored,
      fun _ hlabel => absurd hlabel (by simp [NodeRef.slot, mentionedSlot]),
      fun _ hentry => absurd hentry List.not_mem_nil⟩
  rw [h.admits_iff, forall_steps_iff hconnected,
    forall_refs_iff hconnected hmention]
  refine and_congr_left fun _ => forall₂_congr fun n hn => ?_
  rw [← slot_declaration hn]
  exact ⟨fun hadmits => ⟨hadmits.stored, hadmits.fits⟩,
    fun hdeclared => ⟨hdeclared.1, hdeclared.2⟩⟩

/-! ## What is found -/

/-- The query of a connected graph finds the matches of the graph whose ids are
in the order asked for. -/
theorem finds_iff_matches (homits : OmitsShared c s)
    (hconnected : g.isConnected = true) :
    Finds c g s e ↔
      e.Matches .stored g s ∧ ∀ p ∈ predicates c.options.policy g,
      p.Ordered e := by
  -- a pattern keeps the relationships of its steps apart, and in a connected
  -- graph the steps are all relations
  have hinj : (∀ a ∈ (chains g).flatMap Chain.steps,
        ∀ b ∈ (chains g).flatMap Chain.steps,
        e.relation a.relation.id = e.relation b.relation.id →
        a.relation.id = b.relation.id) ↔
      ∀ a ∈ g.relations.toList, ∀ b ∈ g.relations.toList,
        e.relation a.id = e.relation b.id → a.id = b.id := by
    rw [← forall_steps_iff hconnected]
    exact forall₂_congr fun a _ => forall_steps_iff hconnected
      (P := fun r => e.relation a.relation.id = e.relation r.id →
        a.relation.id = r.id)
  constructor
  · rintro ⟨hpattern, hfinds, hpredicates⟩
    obtain ⟨hnodes, hrelations⟩ := (forall_admits_iff hconnected).1 hpattern
    obtain ⟨hnodeLacks, hrelationLacks, hordered⟩ :=
      forall_predicates_hold_iff.1 hpredicates
    refine ⟨⟨⟨fun n hn => (hnodes n hn).1, fun r hr => (hrelations r hr).stored,
      hinj.1 hfinds, fun r hr => (hrelations r hr).spans⟩, fun n hn => ?_,
      fun r hr => ?_⟩, hordered⟩
    · exact (fits_declaredSlot_iff homits (hnodes n hn).1).2
        ⟨(hnodes n hn).2, hnodeLacks n hn⟩
    · exact (fits_relationSlot_iff homits (hrelations r hr).stored).2
        ⟨(hrelations r hr).fits, hrelationLacks r hr⟩
  · rintro ⟨⟨⟨hnodes, hrelations, hembeds, hspans⟩, hnodeFits, hrelationFits⟩,
      hordered⟩
    have hnode := fun n hn =>
      (fits_declaredSlot_iff homits (hnodes n hn)).1 (hnodeFits n hn)
    have hrelation := fun r hr =>
      (fits_relationSlot_iff homits (hrelations r hr)).1 (hrelationFits r hr)
    refine ⟨(forall_admits_iff hconnected).2
      ⟨fun n hn => ⟨hnodes n hn, (hnode n hn).1⟩,
        fun r hr => ⟨hrelations r hr, (hrelation r hr).1, hspans r hr⟩⟩,
      hinj.2 hembeds, forall_predicates_hold_iff.2
        ⟨fun n hn => (hnode n hn).2, fun r hr => (hrelation r hr).2, hordered⟩⟩

end DrawnPattern.Query
