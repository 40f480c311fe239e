import DrawnPattern.Proofs.Alike
import DrawnPattern.Proofs.Graph.Drawing
import DrawnPattern.Proofs.Query.Coverage
import DrawnPattern.Proofs.Query.Written
import Mathlib
set_option autoImplicit false

/-!
# The text determines the pattern

Queries of drawings under the same options, without a catalog, tell the drawings
apart (`alike_of_compile_text_eq`).  The text gives back the lines and the
predicates.  As the chains of both graphs declare nodes where they are first
met, the references are the same, one by one, and so are the nodes with what is
asked of them.  Steps between the same nodes with the same arrows take relations
with the same ends, as links of drawings are read from the lower end.  The null
checks give the properties that no line shows.
-/

namespace DrawnPattern.Query

variable {c : Compiler} {g h : Graph}

/-! ## Properties -/

/-- Each item of the one list has its counterpart in the other. -/
theorem exists_counterpart {α β : Type} {R : α → β → Prop} {as : List α}
    {bs : List β} (h : List.Forall₂ R as bs) : ∀ a ∈ as, ∃ b ∈ bs, R a b := by
  induction h with
  | nil => exact fun a ha => absurd ha List.not_mem_nil
  | cons hab _ ih =>
    intro a ha
    rcases List.mem_cons.1 ha with rfl | ha
    · exact ⟨_, List.mem_cons_self, hab⟩
    · obtain ⟨b, hb, hR⟩ := ih a ha
      exact ⟨b, List.mem_cons_of_mem _ hb, hR⟩

/-- Properties that correspond as far as they have values, and that share
the others. -/
theorem exists_entry {R : String × Value → String × Value → Prop}
    {a b : Properties}
    (hpresent : List.Forall₂ R (presentProperties a) (presentProperties b))
    (hnull : ∀ name, (name, Value.null) ∈ a.toList →
      (name, Value.null) ∈ b.toList)
    (hrefl : ∀ name, R (name, .null) (name, .null)) :
    ∀ p ∈ a.toList, ∃ q ∈ b.toList, R p q := by
  intro p hp
  obtain ⟨name, value⟩ := p
  cases hvalue : value.isNull with
  | true =>
    cases value <;> cases hvalue
    exact ⟨_, hnull name hp, hrefl name⟩
  | false =>
    have hshown : (name, value) ∈ presentProperties a :=
      List.mem_filter.2 ⟨hp, by simp [hvalue]⟩
    obtain ⟨q, hq, hR⟩ := exists_counterpart hpresent _ hshown
    exact ⟨q, List.mem_of_mem_filter hq, hR⟩

theorem properties_alike {a b : Properties}
    (hpresent : List.Forall₂ EntryAlike (presentProperties a)
      (presentProperties b))
    (hnull : ∀ name, (name, Value.null) ∈ a.toList ↔
      (name, Value.null) ∈ b.toList) :
    a.Alike b := by
  have hrel : ∀ name, Option.Rel EntryAlike (a.find? name) (b.find? name) := by
    refine Keyed.rel_find? (fun p hp => ?_) fun q hq => ?_
    · obtain ⟨q, hq, halike⟩ :=
        exists_entry hpresent (fun name => (hnull name).1)
          (fun _ => ⟨rfl, rfl⟩) p hp
      exact ⟨q, hq, halike.1, halike⟩
    · obtain ⟨p, hp, halike⟩ :=
        exists_entry hpresent.flip (fun name => (hnull name).2)
          (fun _ => ⟨rfl, rfl⟩) q hq
      exact ⟨p, hp, halike.1⟩
  intro name
  have hname := hrel name
  unfold Map.get?
  generalize a.find? name = x, b.find? name = y at hname ⊢
  cases hname with
  | none => exact .none
  | some halike => exact .some halike.2

/-- The null checks are the properties without a value. -/
theorem mem_nullChecks_iff {policy : Policy} {x : Element} {name : String} :
    (x, name) ∈ nullChecks policy g ↔
    (x, name, Value.null) ∈ allProperties g := by
  rw [nullChecks_eq, List.mem_map]
  constructor
  · rintro ⟨⟨y, name', value⟩, hp, hslot⟩
    obtain ⟨hp, hnull⟩ := List.mem_filter.1 hp
    cases hslot
    cases value <;> cases hnull
    exact hp
  · intro hp
    exact ⟨_, List.mem_filter.2 ⟨hp, rfl⟩, rfl⟩

theorem null_mem_node_iff (policy : Policy) {n : Node} (hn : n ∈ g.nodes.toList)
    (name : String) :
    (name, Value.null) ∈ n.traits.properties.toList ↔
      (Element.node n.id, name) ∈ nullChecks policy g := by
  rw [mem_nullChecks_iff, allProperties, List.mem_append, List.mem_flatMap,
    List.mem_flatMap]
  constructor
  · exact fun hp => .inl ⟨n, hn, List.mem_map_of_mem hp⟩
  · rintro (⟨m, hm, hp⟩ | ⟨r, -, hp⟩)
    · obtain ⟨p, hp, heq⟩ := List.mem_map.1 hp
      obtain ⟨hid, rfl⟩ := Prod.mk.inj heq
      rw [← Keyed.eq_of_key_eq hm hn (Element.node.inj hid)]
      exact hp
    · obtain ⟨p, -, heq⟩ := List.mem_map.1 hp
      cases heq

theorem null_mem_relation_iff (policy : Policy) {r : Relation}
    (hr : r ∈ g.relations.toList) (name : String) :
    (name, Value.null) ∈ r.link.traits.properties.toList ↔
      (Element.relation r.id, name) ∈ nullChecks policy g := by
  rw [mem_nullChecks_iff, allProperties, List.mem_append, List.mem_flatMap,
    List.mem_flatMap]
  constructor
  · exact fun hp => .inr ⟨r, hr, List.mem_map_of_mem hp⟩
  · rintro (⟨n, -, hp⟩ | ⟨q, hq, hp⟩)
    · obtain ⟨p, -, heq⟩ := List.mem_map.1 hp
      cases heq
    · obtain ⟨p, hp, heq⟩ := List.mem_map.1 hp
      obtain ⟨hid, rfl⟩ := Prod.mk.inj heq
      rw [← Keyed.eq_of_key_eq hq hr (Element.relation.inj hid)]
      exact hp

/-! ## Traits -/

/-- Whether lines show the same of two elements: what has no value is
not shown. -/
structure ShownAlike (t u : Traits) : Prop where
  label : t.label = u.label
  present : List.Forall₂ EntryAlike (presentProperties t.properties)
    (presentProperties u.properties)

theorem ShownAlike.alike {t u : Traits} (hshown : ShownAlike t u)
    (hnull : ∀ name, (name, Value.null) ∈ t.properties.toList ↔
      (name, Value.null) ∈ u.properties.toList) : t.Alike u :=
  ⟨hshown.label, properties_alike hshown.present hnull⟩

/-- Without a catalog every label is kept. -/
theorem filter_keepsNodeLabel (hcatalog : c.catalog = none)
    (label : Option String) :
    label.filter c.keepsNodeLabel = label := by
  cases label with
  | none => rfl
  | some label => simp [Compiler.keepsNodeLabel, hcatalog]

theorem filter_keepsRelationLabel (hcatalog : c.catalog = none)
    (label : Option String) :
    label.filter c.keepsRelationLabel = label := by
  cases label with
  | none => rfl
  | some label => simp [Compiler.keepsRelationLabel, hcatalog]

theorem shownAlike_of_declaredSlot (hcatalog : c.catalog = none) {m n : Node}
    (halike : (declaredSlot c m).Alike (declaredSlot c n)) :
    ShownAlike m.traits n.traits where
  label := by
    have hlabel := halike.label
    simpa only [declaredSlot, filter_keepsNodeLabel hcatalog] using hlabel
  present := halike.asked

theorem shownAlike_of_relationSlot (hcatalog : c.catalog = none)
    {q r : Relation} (halike : (relationSlot c q).Alike (relationSlot c r)) :
    ShownAlike q.link.traits r.link.traits where
  label := by
    have hlabel := halike.label
    simpa only [relationSlot, filter_keepsRelationLabel hcatalog] using hlabel
  present := halike.asked

/-! ## Nodes -/

/-- Where nodes are introduced in one order, they are referred to alike. -/
theorem Introduces.eq_of_nodes {refs : List NodeRef} :
    ∀ {met : List NodeId} {refs' : List NodeRef}, Introduces met refs →
    Introduces met refs' →
      refs.map NodeRef.node = refs'.map NodeRef.node → refs = refs' := by
  induction refs with
  | nil =>
    intro met refs' _ _ hnodes
    exact (List.map_eq_nil_iff.1 hnodes.symm).symm
  | cons ref rest ih =>
    intro met refs' hrefs hrefs' hnodes
    cases refs' with
    | nil => cases hnodes
    | cons ref' rest' =>
      obtain ⟨hnode, hrest⟩ := List.cons.inj hnodes
      have href := hrefs.1
      have href' := hrefs'.1
      rw [← hnode] at href'
      have hsame : ref = ref' := by
        by_cases hmet : ref.node ∈ met
        · rw [NodeRef.eq_mention_of_ne fun heq => href.1 heq hmet,
            NodeRef.eq_mention_of_ne fun heq =>
              href'.1 (heq.trans (by rw [hnode])) hmet, hnode]
        · exact (href.2 hmet).trans (href'.2 hmet).symm
      subst hsame
      rw [ih hrefs.2 hrefs'.2 hrest]

theorem NodeRef.node_eq {ref ref' : NodeRef}
    (halike : (ref.slot c g).Alike (ref'.slot c h)) :
    ref.node = ref'.node := by
  have hname := halike.name
  rw [NodeRef.slot_name, NodeRef.slot_name] at hname
  exact variableName_inj hname

theorem forall₂_refs {as bs : List Chain}
    (halike : List.Forall₂ (fun a b => (a.line c g).Alike (b.line c h)) as bs) :
    List.Forall₂ (fun ref ref' => (ref.slot c g).Alike (ref'.slot c h))
      (as.flatMap Chain.refs) (bs.flatMap Chain.refs) := by
  refine List.rel_flatMap halike fun a b hline => .cons hline.start ?_
  have hhops := hline.hops
  rw [Chain.line, Chain.line, List.forall₂_map_left_iff,
    List.forall₂_map_right_iff] at hhops
  rw [List.forall₂_map_left_iff, List.forall₂_map_right_iff]
  exact hhops.imp fun _ _ hhop => hhop.node

/-- Graphs with alike lines are referred to alike, since either one declares a
node where it is first met. -/
theorem refs_eq {left left' : List RelationId}
    {final final' : OrderedSet NodeId} (hg : Drawn c g left final)
    (hh : Drawn c h left' final')
    (halike : List.Forall₂ (fun a b => (a.line c g).Alike (b.line c h))
      (chains g) (chains h)) :
    (chains g).flatMap Chain.refs = (chains h).flatMap Chain.refs := by
  refine hg.introduces.eq_of_nodes hh.introduces ?_
  rw [← List.forall₂_eq_eq_eq, List.forall₂_map_left_iff,
    List.forall₂_map_right_iff]
  exact (forall₂_refs halike).imp fun _ _ => NodeRef.node_eq

/-! ## Relations -/

/-- A link without direction that is read from the lower end. -/
theorem source_le_target {l : Link} (hnormal : l.normal = l)
    (hdirected : l.directed = false) :
    l.source ≤ l.target := by
  by_contra hlt
  have hswap : l.normal.source = l.target := by
    simp [Link.normal, hdirected, Int.not_le.1 hlt]
  rw [hnormal] at hswap
  exact hlt (le_of_eq hswap)

/-- Links between the same nodes with the same arrow have the same ends, if both
are read from the lower end. -/
theorem ends_eq {l m : Link} {a b : NodeId} (hl : l.other a = some b)
    (hm : m.other a = some b) (harrow : arrowFrom l a = arrowFrom m a)
    (hnl : l.normal = l) (hnm : m.normal = m) :
    l.source = m.source ∧ l.target = m.target ∧ l.directed = m.directed := by
  have hlends := Link.other_eq_some_iff.1 hl
  have hmends := Link.other_eq_some_iff.1 hm
  unfold arrowFrom at harrow
  cases hld : l.directed with
  | false =>
    have hmd : m.directed = false := by
      rw [hld] at harrow
      grind
    have hlle := source_le_target hnl hld
    have hmle := source_le_target hnm hmd
    grind
  | true =>
    have hmd : m.directed = true := by
      rw [hld] at harrow
      grind
    grind

/-- Whether two relations have the same number and the same ends; of their
traits nothing is said. -/
structure PlacedAlike (q r : Relation) : Prop where
  id : q.id = r.id
  source : q.link.source = r.link.source
  target : q.link.target = r.link.target
  directed : q.link.directed = r.link.directed

/-- Steps from the same node that are written alike take relations
placed alike. -/
theorem forall₂_relations
    (hg : ∀ r ∈ g.relations.toList, r.link.normal = r.link)
    (hh : ∀ r ∈ h.relations.toList, r.link.normal = r.link)
    {steps steps' : List Step}
    (hhops : List.Forall₂ (fun s t => (s.hop c g).Alike (t.hop c h))
      steps steps') :
    ∀ {node : NodeId}, Leads c g node steps → Leads c h node steps' →
      List.Forall₂ (fun s t => PlacedAlike s.relation t.relation ∧
        (relationSlot c s.relation).Alike (relationSlot c t.relation))
        steps steps' := by
  induction hhops with
  | nil =>
    intro _ _ _
    exact .nil
  | @cons s t rest rest' hhop _ ih =>
    intro node hleads hleads'
    cases hleads with
    | go passes leads =>
      cases hleads' with
      | go passes' leads' =>
        have hnext : s.node.node = t.node.node := NodeRef.node_eq hhop.node
        have harrow :
            arrowFrom s.relation.link node =
              arrowFrom t.relation.link node := by
          rw [← passes.arrow_eq, ← passes'.arrow_eq]
          exact hhop.arrow
        obtain ⟨hsource, htarget, hdirected⟩ :=
          ends_eq passes.ends (hnext ▸ passes'.ends) harrow
          (hg _ passes.relation_mem) (hh _ passes'.relation_mem)
        have hid : s.relation.id = t.relation.id :=
          variableName_inj hhop.relation.name
        exact .cons ⟨⟨hid, hsource, htarget, hdirected⟩, hhop.relation⟩
          (ih leads (hnext ▸ leads'))

theorem forall₂_flatMap_steps
    (hg : ∀ r ∈ g.relations.toList, r.link.normal = r.link)
    (hh : ∀ r ∈ h.relations.toList, r.link.normal = r.link) {as bs : List Chain}
    (halike : List.Forall₂ (fun a b => (a.line c g).Alike (b.line c h)) as bs)
    (hleads : ∀ chain ∈ as, Leads c g chain.start.node chain.steps)
    (hleads' : ∀ chain ∈ bs, Leads c h chain.start.node chain.steps) :
    List.Forall₂ (fun s t => PlacedAlike s.relation t.relation ∧
      (relationSlot c s.relation).Alike (relationSlot c t.relation))
      (as.flatMap Chain.steps) (bs.flatMap Chain.steps) := by
  induction halike with
  | nil => exact .nil
  | @cons a b as bs hline _ ih =>
    obtain ⟨hfirst, hrest⟩ := List.forall_mem_cons.1 hleads
    obtain ⟨hfirst', hrest'⟩ := List.forall_mem_cons.1 hleads'
    have hhops := hline.hops
    rw [Chain.line, Chain.line, List.forall₂_map_left_iff,
      List.forall₂_map_right_iff] at hhops
    rw [← NodeRef.node_eq hline.start] at hfirst'
    rw [List.flatMap_cons, List.flatMap_cons]
    exact List.rel_append (forall₂_relations hg hh hhops hfirst hfirst')
      (ih hrest hrest')

/-! ## Graphs -/

/-- The same elements are listed where the same relations have the same ends. -/
theorem listed_of_placed {m n : Node} (hm : m ∈ g.nodes.toList)
    (hn : n ∈ h.nodes.toList) (hid : m.id = n.id)
    (hplaced : ∀ q ∈ g.relations.toList, ∃ r ∈ h.relations.toList,
      PlacedAlike q r) :
    ∀ id ∈ m.relations.toList, id ∈ n.relations.toList := by
  intro id hlisted
  obtain ⟨q, hq, rfl, htouches⟩ := (g.consistent.listed_iff m hm id).1 hlisted
  obtain ⟨r, hr, hqr⟩ := hplaced q hq
  refine (h.consistent.listed_iff n hn q.id).2 ⟨r, hr, hqr.id.symm, ?_⟩
  rw [Link.touches, ← hqr.source, ← hqr.target, ← hid]
  exact htouches

theorem PlacedAlike.symm {q r : Relation} (hqr : PlacedAlike q r) :
    PlacedAlike r q :=
  ⟨hqr.id.symm, hqr.source.symm, hqr.target.symm, hqr.directed.symm⟩

/-- Whether the elements of two graphs correspond, by number, in place and in
what is written of them. -/
structure Corresponds (c : Compiler) (g h : Graph) : Prop where
  node_to : ∀ m ∈ g.nodes.toList, ∃ n ∈ h.nodes.toList, m.id = n.id ∧
    (declaredSlot c m).Alike (declaredSlot c n)
  node_from : ∀ n ∈ h.nodes.toList, ∃ m ∈ g.nodes.toList, m.id = n.id
  relation_to : ∀ q ∈ g.relations.toList, ∃ r ∈ h.relations.toList,
    PlacedAlike q r ∧
    (relationSlot c q).Alike (relationSlot c r)
  relation_from : ∀ r ∈ h.relations.toList, ∃ q ∈ g.relations.toList,
    PlacedAlike q r

/-- Connected graphs whose links are read from the lower end correspond if their
lines do. -/
theorem corresponds_of_lines (hg : g.isConnected = true)
    (hh : h.isConnected = true)
    (hng : ∀ r ∈ g.relations.toList, r.link.normal = r.link)
    (hnh : ∀ r ∈ h.relations.toList, r.link.normal = r.link)
    (hlines : List.Forall₂ (fun a b => (a.line c g).Alike (b.line c h))
      (chains g) (chains h)) :
    Corresponds c g h := by
  obtain ⟨left, final, hdg⟩ := exists_drawn c g
  obtain ⟨rfl, hall⟩ := hdg.of_isConnected hg
  obtain ⟨left', final', hdh⟩ := exists_drawn c h
  obtain ⟨rfl, hall'⟩ := hdh.of_isConnected hh
  -- nodes correspond reference by reference
  have hrefs := refs_eq hdg hdh hlines
  have hslots := forall₂_refs hlines
  rw [← hrefs, List.forall₂_same] at hslots
  have hids : ∀ id, id ∈ g.nodeIds ↔ id ∈ h.nodeIds := by
    intro id
    rw [← hdg.met_iff hall, ← hdh.met_iff hall', hrefs]
  -- and relations step by step
  have hrelations : List.Forall₂ (fun q r => PlacedAlike q r ∧
      (relationSlot c q).Alike (relationSlot c r))
      (((chains g).flatMap Chain.steps).map Step.relation)
      (((chains h).flatMap Chain.steps).map Step.relation) := by
    rw [List.forall₂_map_left_iff, List.forall₂_map_right_iff]
    exact forall₂_flatMap_steps hng hnh hlines hdg.leads hdh.leads
  constructor
  · intro m hm
    have hmid := Graph.mem_nodeIds.2 ⟨m, hm, rfl⟩
    obtain ⟨n, hn, hid⟩ := Graph.mem_nodeIds.1 ((hids m.id).1 hmid)
    have hslot := hslots _ (hdg.declaration_mem hall hmid)
    rw [slot_declaration hm, ← hid, slot_declaration hn] at hslot
    exact ⟨n, hn, hid.symm, hslot⟩
  · intro n hn
    exact Graph.mem_nodeIds.1 ((hids n.id).2 (Graph.mem_nodeIds.2 ⟨n, hn, rfl⟩))
  · intro q hq
    obtain ⟨r, hr, hqr⟩ :=
      exists_counterpart hrelations q (hdg.relations_perm.mem_iff.2 hq)
    exact ⟨r, hdh.relations_perm.mem_iff.1 hr, hqr⟩
  · intro r hr
    obtain ⟨q, hq, hqr⟩ :=
      exists_counterpart hrelations.flip r (hdh.relations_perm.mem_iff.2 hr)
    exact ⟨q, hdg.relations_perm.mem_iff.1 hq, hqr.1⟩

/-- Graphs that correspond are alike if the same properties have to
be missing. -/
theorem Corresponds.alike (hcorresponds : Corresponds c g h)
    (hcatalog : c.catalog = none) {policy : Policy}
    (hnull : nullChecks policy g = nullChecks policy h) : g.Alike h := by
  constructor
  · refine Keyed.rel_find? (fun m hm => ?_) hcorresponds.node_from
    obtain ⟨n, hn, hid, hslot⟩ := hcorresponds.node_to m hm
    refine ⟨n, hn, hid, hid, ?_, Keyed.ext_mem fun id => ⟨?_, ?_⟩⟩
    · apply (shownAlike_of_declaredSlot hcatalog hslot).alike
      intro name
      rw [null_mem_node_iff policy hm, null_mem_node_iff policy hn, hnull, hid]
    · refine listed_of_placed hm hn hid (fun q hq => ?_) id
      obtain ⟨r, hr, hqr, -⟩ := hcorresponds.relation_to q hq
      exact ⟨r, hr, hqr⟩
    · refine listed_of_placed hn hm hid.symm (fun r hr => ?_) id
      obtain ⟨q, hq, hqr⟩ := hcorresponds.relation_from r hr
      exact ⟨q, hq, hqr.symm⟩
  · refine Keyed.rel_find? (fun q hq => ?_) fun r hr => ?_
    · obtain ⟨r, hr, hqr, hslot⟩ := hcorresponds.relation_to q hq
      refine ⟨r, hr, hqr.id, hqr.id, hqr.source, hqr.target, hqr.directed, ?_⟩
      apply (shownAlike_of_relationSlot hcatalog hslot).alike
      intro name
      rw [null_mem_relation_iff policy hq, null_mem_relation_iff policy hr,
        hnull, hqr.id]
    · obtain ⟨q, hq, hqr⟩ := hcorresponds.relation_from r hr
      exact ⟨q, hq, hqr.id⟩

/-! ## A vertex alone -/

/-- One property, named by a word with a quote in it. -/
def oneDouble (x : Double) : Traits where
  properties := (∅ : Properties).insert "it's" (.float x)

/-- A vertex alone with a NaN is written without its key and without
its bits. -/
theorem compile_text_of_nan {key : String} {x : Double} {g : Graph}
    (hx : x.isNaN = true)
    (h : Drawing.graph ⟨[⟨key, oneDouble x⟩], []⟩ = .ok g) :
    (Compiler.compile {} g).text =
      "MATCH (n0 \x7b\x60it's\x60: 0.0/0.0\x7d)\n" ++
      Shape.projection ⟨[(0, "n0")], []⟩ := by
  have hof : ∀ {α : Type} (f : Graph → α) {v : α},
      (Drawing.graph ⟨[⟨key, oneDouble x⟩], []⟩).toOption.map f = some v →
      f g = v := by
    intro α f v hv
    rw [h] at hv
    exact Option.some.inj hv
  have hchains : chains g = [⟨.declaration 0, []⟩] := hof chains (by cbv)
  have hpredicates : predicates .breaking g = [] :=
    hof (predicates .breaking) (by cbv)
  have hshape : Shape.ofGraph {} g = ⟨[(0, "n0")], []⟩ :=
    hof (Shape.ofGraph {}) (by cbv)
  have hnode : g.node? 0 = some { id := 0, traits := oneDouble x } :=
    hof (Graph.node? · 0) (by cbv)
  have hslot : Compiler.nodeSlot {} { id := 0, traits := oneDouble x } =
      "n0 \x7b\x60it's\x60: 0.0/0.0\x7d" := by
    have hpresent :
        presentProperties (oneDouble x).properties = [("it's", .float x)] := rfl
    have hlabel : (oneDouble x).label = none := rfl
    have hvalue : literal (.float x) = "0.0/0.0" := by rw [literal, if_pos hx]
    simp only [Compiler.nodeSlot, Compiler.slot, propertyMap?, hpresent, hlabel,
      Option.filter_none, List.map_cons, List.map_nil, propertyEntry, hvalue]
    decide
  have hpattern :
      Compiler.patternText {} g = "(n0 \x7b\x60it's\x60: 0.0/0.0\x7d)" := by
    simp only [Compiler.patternText, hchains, List.map_cons, List.map_nil,
      Compiler.chainText, Compiler.nodeText, hnode, hslot]
    decide
  simp only [Compiler.compile, hpattern, hpredicates, hshape]
  rfl

/-! ## Drawings -/

/-- Drawings whose queries have one text have alike graphs: the text is cut into
its tokens again, and they give back everything but the bits of NaN. -/
theorem alike_of_compile_text_eq (o : Options) (ho : o.Accepted)
    {d₁ d₂ : Drawing} {g₁ g₂ : Graph} (h₁ : d₁.graph = .ok g₁)
    (h₂ : d₂.graph = .ok g₂)
    (htext : (Compiler.compile ⟨o, none⟩ g₁).text =
      (Compiler.compile ⟨o, none⟩ g₂).text) :
    g₁.Alike g₂ := by
  obtain ⟨hlines, hpredicates⟩ := alike_of_text_eq (c := ⟨o, none⟩) ho htext
  obtain ⟨-, -, -, -, hconnected₁⟩ := Drawing.graph_eq_ok h₁
  obtain ⟨-, -, -, -, hconnected₂⟩ := Drawing.graph_eq_ok h₂
  have hcorresponds :=
    corresponds_of_lines hconnected₁ hconnected₂ (Drawing.normal_link h₁)
    (Drawing.normal_link h₂) hlines
  have hnull : nullChecks o.policy g₁ = nullChecks o.policy g₂ :=
    congrArg (List.filterMap Predicate.nullCheck?) hpredicates
  exact hcorresponds.alike rfl hnull

/-- Two drawings that differ in the key and in the bits of a NaN. -/
theorem alike_of_compile_text_eq_nans : ∃ g₁ g₂,
    Drawing.graph ⟨[⟨"a", oneDouble ⟨0x7ff8000000000000⟩⟩], []⟩ = .ok g₁ ∧
      Drawing.graph ⟨[⟨"b", oneDouble ⟨0xfff0000000000001⟩⟩], []⟩ = .ok g₂ ∧
      Options.Accepted {} ∧
      (Compiler.compile {} g₁).text = (Compiler.compile {} g₂).text ∧
      g₁.Alike g₂ := by
  obtain ⟨g₁, h₁⟩ := Graph.exists_of_isOk
    (x := Drawing.graph ⟨[⟨"a", oneDouble ⟨0x7ff8000000000000⟩⟩], []⟩) (by cbv)
  obtain ⟨g₂, h₂⟩ := Graph.exists_of_isOk
    (x := Drawing.graph ⟨[⟨"b", oneDouble ⟨0xfff0000000000001⟩⟩], []⟩) (by cbv)
  have haccepted : Options.Accepted {} := ⟨by decide, by decide, by decide⟩
  have htext : (Compiler.compile {} g₁).text = (Compiler.compile {} g₂).text :=
    (compile_text_of_nan (by decide) h₁).trans
      (compile_text_of_nan (by decide) h₂).symm
  exact ⟨g₁, g₂, h₁, h₂, haccepted, htext,
    alike_of_compile_text_eq {} haccepted h₁ h₂ htext⟩

end DrawnPattern.Query
