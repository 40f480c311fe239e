import DrawnPattern.Proofs.Graph.Building
import DrawnPattern.Proofs.Graph.Reach
import DrawnPattern.Proofs.Query.Walk
set_option autoImplicit false

/-!
# The pattern covers the graph

The chains of a connected graph draw it exactly (`chains_cover`): every
relation is taken by one step, between its ends and with the arrow its
direction asks for; every node is declared where it is first met and only
mentioned afterwards; further chains start at nodes met before; and each
property is asked for once, inline if it has a value and by a null check if it
has none.  The text is spelled out here from the chains and the properties
alone, down to the words and line feeds of its conditions, so that nothing is
left to how the compiler prints.
-/

namespace DrawnPattern.Query

variable {c : Compiler} {g : Graph}

/-! ## Properties in the pattern -/

/-- A node or a relation of a query graph, as what a property is asked of. -/
inductive Element where
  | node (id : NodeId)
  | relation (id : RelationId)
  deriving DecidableEq

/-- A property with the element it is asked of. -/
abbrev Asked : Type := Element × String × Value

/-- Every property of a graph, nodes first, those that are null included. -/
def allProperties (g : Graph) : List Asked :=
  (g.nodes.toList.flatMap
    fun n => n.traits.properties.toList.map (Element.node n.id, ·)) ++
    g.relations.toList.flatMap fun r =>
      r.link.traits.properties.toList.map (Element.relation r.id, ·)

/-- What the declaration of a node asks inline. -/
def askedOfNode (g : Graph) (id : NodeId) : List Asked :=
  match g.node? id with
  | some n => (presentProperties n.traits.properties).map (Element.node id, ·)
  | none => []

/-- What a reference asks inline: a mention asks nothing. -/
def NodeRef.asked (g : Graph) : NodeRef → List Asked
  | declaration id => askedOfNode g id
  | mention _ => []

/-- What the relation of a step asks inline. -/
def Step.asked (s : Step) : List Asked :=
  (presentProperties s.relation.link.traits.properties).map
    (Element.relation s.relation.id, ·)

/-- What a chain asks inline, in text order. -/
def Chain.asked (g : Graph) (chain : Chain) : List Asked :=
  chain.start.asked g ++ chain.steps.flatMap fun s => s.asked ++ s.node.asked g

/-- Everything that the pattern of a graph asks inline, in text order. -/
def inlineProperties (g : Graph) : List Asked :=
  (chains g).flatMap (Chain.asked g)

/-- The element and the property that a predicate asks to be missing. -/
def Predicate.nullCheck? : Predicate → Option (Element × String)
  | nodeLacks node property => some (.node node, property)
  | relationLacks relation property => some (.relation relation, property)
  | nodesAscend .. => none
  | relationsAscend .. => none

/-- All null checks of a query, in the order in which their lines stand in
its text. -/
def nullChecks (policy : Policy) (g : Graph) : List (Element × String) :=
  (predicates policy g).filterMap Predicate.nullCheck?

/-! ## Conditions in the text -/

/-- The variable that a query binds to an element. -/
def Element.bound (o : Options) : Element → String
  | node id => o.nodeVariable id
  | relation id => o.relationVariable id

/-- A null check as it has to be written: the property is read off the variable
of its element, under its name as the query language spells names. -/
def nullCheckText (o : Options) (check : Element × String) : String :=
  check.1.bound o ++ "." ++ identifier check.2 ++ " IS NULL"

/-- The conditions that break symmetries, if the policy asks for them:
neighbouring members of a class ascend, and since two nodes may share an id,
nodes only weakly. -/
def orderTexts (o : Options) (g : Graph) : List String :=
  if o.policy = .breaking then
    (g.symmetry.nodeClasses.flatMap fun members =>
      (neighbouring members).map fun (a, b) =>
      "id(" ++ o.nodeVariable a ++ ") <= id(" ++ o.nodeVariable b ++ ")") ++
    g.symmetry.relationClasses.flatMap fun members =>
      (neighbouring members).map fun (a, b) =>
      "id(" ++ o.relationVariable a ++ ") < id(" ++ o.relationVariable b ++ ")"
  else []

/-- Conditions in lines of their own: the first behind `WHERE`, each further one
behind an indented `AND`; no line at all if there is no condition. -/
def conditionLines : List String → String
  | [] => ""
  | first :: others => "WHERE " ++ first ++ "\n" ++
    String.join (others.map fun other => "  AND " ++ other ++ "\n")

/-! ## What covering means -/

/-- Whether the text of a query draws its graph exactly: what is written, and
that it is made of every relation, node and property of the graph and of
nothing else. -/
structure Covers (c : Compiler) (g : Graph) : Prop where
  /-- the text is the pattern, a list of chains, each a node and what its steps
  add; then a line for each null check and each order; then the projection -/
  text : (c.compile g).text =
    "MATCH " ++ ", ".intercalate ((chains g).map fun chain =>
      c.nodeText g chain.start ++
        String.join (chain.steps.map (c.stepText g))) ++ "\n" ++
      conditionLines
        ((nullChecks c.options.policy g).map (nullCheckText c.options) ++
        orderTexts c.options g) ++ (Shape.ofGraph c.options g).projection
  /-- each relation is taken by one step of one chain -/
  relations_perm : (((chains g).flatMap Chain.steps).map Step.relation).Perm
    g.relations.toList
  /-- a step stands between the ends of its relation and is drawn as it
  is passed -/
  leads : ∀ chain ∈ chains g, Leads c g chain.start.node chain.steps
  /-- the nodes referred to are those of the graph -/
  met_iff : ∀ id, id ∈ ((chains g).flatMap Chain.refs).map NodeRef.node ↔
    id ∈ g.nodeIds
  /-- in text order, a node is declared at its first place and mentioned at
  the others -/
  ref_eq : ∀ before ref after,
    (chains g).flatMap Chain.refs = before ++ ref :: after →
    ref = if ref.node ∈ before.map NodeRef.node then .mention ref.node
    else .declaration ref.node
  /-- a declaration carries the label that is kept and the properties
  with a value -/
  declaration_text : ∀ n ∈ g.nodes.toList, c.nodeText g (.declaration n.id) =
    "(" ++ slotText (c.options.nodeVariable n.id)
    (n.traits.label.filter c.keepsNodeLabel)
      (presentProperties n.traits.properties) ++ ")"
  /-- a mention is the bare variable -/
  mention_text : ∀ id,
    c.nodeText g (.mention id) = "(" ++ c.options.nodeVariable id ++ ")"
  /-- a chain after the first starts at a node met before and takes a step -/
  starts : ∀ before chain after, chains g = before ++ chain :: after →
    before ≠ [] →
    chain.start.node ∈ (before.flatMap Chain.refs).map NodeRef.node ∧
    chain.steps ≠ []
  /-- a property with a value is asked for inline once, and no null
  check names it -/
  inline_once : ∀ p ∈ allProperties g, p.2.2.isNull = false →
    (inlineProperties g).count p = 1 ∧
    (p.1, p.2.1) ∉ nullChecks c.options.policy g
  /-- a property without a value has one null check, and is asked for
  inline nowhere -/
  null_once : ∀ p ∈ allProperties g, p.2.2.isNull = true →
    (nullChecks c.options.policy g).count (p.1, p.2.1) = 1 ∧
      ∀ value, (p.1, p.2.1, value) ∉ inlineProperties g
  /-- the null check of a property without a value stands in the text, on a line
  that starts with `WHERE` or with an indented `AND` -/
  null_line : ∀ p ∈ allProperties g, p.2.2.isNull = true → ∃ before lead after,
    lead ∈ ["WHERE ", "  AND "] ∧ (c.compile g).text =
      before ++ "\n" ++ lead ++ nullCheckText c.options (p.1, p.2.1) ++
      "\n" ++ after
  /-- nothing else is asked for inline -/
  inline_subset : ∀ p ∈ inlineProperties g, p ∈ allProperties g
  /-- nothing else is checked for null -/
  null_subset : ∀ q ∈ nullChecks c.options.policy g, ∃ p ∈ allProperties g,
    (p.1, p.2.1) = q

/-! ## Relations and nodes -/

/-- Relations taken one by one are the relations, as soon as their
numbers are. -/
theorem perm_relations_of_ids {l : List Relation}
    (hmem : ∀ r ∈ l, r ∈ g.relations.toList)
    (hids : (l.map Relation.id).Perm g.relationIds) :
    l.Perm g.relations.toList := by
  have hnodup : (l.map Relation.id).Nodup :=
    hids.nodup_iff.2 (Keyed.keys_nodup g.relations)
  refine (List.perm_ext_iff_of_nodup (List.Nodup.of_map _ hnodup)
    (Keyed.toList_nodup g.relations)).2 fun r => ⟨hmem r, fun hr => ?_⟩
  have hid : r.id ∈ l.map Relation.id := hids.mem_iff.2 (Keyed.key_mem_keys hr)
  obtain ⟨r', hr', hsame⟩ := List.mem_map.1 hid
  rw [← Keyed.eq_of_key_eq (hmem r' hr') hr hsame]
  exact hr'

/-- Steps that lead somewhere take relations of the graph between nodes
they meet. -/
theorem Leads.of_mem {node : NodeId} {steps : List Step}
    (h : Leads c g node steps) :
    ∀ s ∈ steps, s.relation ∈ g.relations.toList ∧
      ∀ end_, s.relation.link.touches end_ = true →
        end_ ∈ node :: steps.map (·.node.node) := by
  induction h with
  | stop node => simp
  | @go node step rest passes leads ih =>
    intro s hs
    rcases List.mem_cons.1 hs with rfl | hs
    · refine ⟨passes.relation_mem, fun end_ htouches => ?_⟩
      have hends := Link.other_eq_some_iff.1 passes.ends
      rw [Link.touches_iff] at htouches
      simp only [List.map_cons, List.mem_cons]
      grind
    · obtain ⟨hmem, hends⟩ := ih s hs
      refine ⟨hmem, fun end_ htouches => ?_⟩
      rw [List.map_cons]
      exact List.mem_cons_of_mem _ (hends end_ htouches)

/-- Everything that is known of the chains before connectedness is used: the
chains, the relations they leave, and the nodes they declare. -/
structure Drawn (c : Compiler) (g : Graph) (left : List RelationId)
    (final : OrderedSet NodeId) :
    Prop where
  ids_perm :
    g.relationIds.Perm
      (((chains g).flatMap Chain.steps).map (·.relation.id) ++ left)
  leads : ∀ chain ∈ chains g, Leads c g chain.start.node chain.steps
  introduces : Introduces [] ((chains g).flatMap Chain.refs)
  mem_final : ∀ a, a ∈ final.toList ↔
    a ∈ ((chains g).flatMap Chain.refs).map NodeRef.node
  starts : ∃ first rest, chains g = first :: rest ∧
    first.start.node = g.first.id ∧
    StartsMet (first.refs.map NodeRef.node) rest
  first_mem : g.first.id ∈ final.toList
  exhausted : ∀ node ∈ final.toList, nextRelation? g left node = none

theorem exists_drawn (c : Compiler) (g : Graph) :
    ∃ left final, Drawn c g left final := by
  let start := refer ∅ g.first.id
  let walked := walk g g.first.id g.relationIds start.2
  have hchains : chains g =
      ⟨start.1, walked.steps⟩ :: chainsFrom g walked.unused walked.declared :=
    rfl
  have hwalked : Walked c g g.first.id g.relationIds start.2 walked :=
    walked_walk ..
  obtain ⟨left, final, hrest⟩ :=
    exists_continued_chainsFrom c g walked.unused walked.declared
  have hstart : start.1.node = g.first.id := refer_node _ _
  have hdeclared : ∀ a, a ∈ start.2.toList ↔ a = g.first.id := by
    intro a
    rw [mem_refer]
    exact or_iff_left (List.not_mem_nil (a := a))
  -- what the first walk has met is what its chain refers to, so the chains
  -- after it start where the text has been
  have hmet : ∀ a, a ∈ walked.declared.toList ↔
      a ∈ (Chain.refs ⟨start.1, walked.steps⟩).map NodeRef.node := by
    intro a
    rw [hwalked.mem_declared, hdeclared]
    simp [Chain.refs, hstart, Function.comp_def]
  refine ⟨left, final, ?_, ?_, ?_, ?_,
    ⟨_, _, hchains, hstart, hrest.starts.congr hmet⟩, ?_, hrest.exhausted⟩
  · rw [hchains]
    simp only [List.flatMap_cons, List.map_append, List.append_assoc]
    exact hwalked.unused_perm.trans (hrest.unused_perm.append_left _)
  · intro chain hchain
    rw [hchains] at hchain
    rcases List.mem_cons.1 hchain with rfl | hchain
    · show Leads c g start.1.node walked.steps
      rw [hstart]
      exact hwalked.leads
    · exact hrest.leads chain hchain
  · rw [hchains, List.flatMap_cons]
    have hfirst : Introduces (∅ : OrderedSet NodeId).toList
        (Chain.refs ⟨start.1, walked.steps⟩) :=
      introduces_refer hwalked.introduces
    exact hfirst.append (hrest.introduces.congr hmet)
  · intro a
    rw [hrest.mem_final, hmet, hchains, List.flatMap_cons, List.map_append,
      List.mem_append]
  · rw [hrest.mem_final, hwalked.mem_declared, hdeclared]
    exact .inl (.inl rfl)

/-- What is adjacent to a node met is met: a relation at a node met is taken,
and so its other end is met too. -/
theorem Drawn.closed {left : List RelationId} {final : OrderedSet NodeId}
    (h : Drawn c g left final) : ∀ a ∈ final.toList, ∀ b ∈ g.adjacent a,
    b ∈ final.toList := by
  intro a ha b hb
  obtain ⟨r, hr, hother⟩ := Graph.mem_adjacent_iff.1 hb
  have hleft : r.id ∉ left :=
    nextRelation?_eq_none (h.exhausted a ha) hr
      (Link.other_isSome_iff.1 ⟨b, hother⟩)
  have htaken := h.ids_perm.mem_iff.1 (Keyed.key_mem_keys hr)
  obtain ⟨s, hs, hid⟩ :=
    List.mem_map.1 ((List.mem_append.1 htaken).resolve_right hleft)
  obtain ⟨chain, hchain, hs⟩ := List.mem_flatMap.1 hs
  obtain ⟨hmem, hends⟩ := (h.leads chain hchain).of_mem s hs
  rw [Keyed.eq_of_key_eq hmem hr hid] at hends
  have hb' := hends b (Link.touches_iff.2 (by
    rcases Link.other_eq_some_iff.1 hother with ⟨-, ht⟩ | ⟨hs, -⟩
    · exact .inr ht
    · exact .inl hs))
  rw [h.mem_final, List.map_flatMap, List.mem_flatMap]
  refine ⟨chain, hchain, ?_⟩
  simpa [Chain.refs, Function.comp_def] using hb'

/-- In a connected graph nothing is left and every node is met.  Only here does
connectedness come in. -/
theorem Drawn.of_isConnected {left : List RelationId}
    {final : OrderedSet NodeId} (h : Drawn c g left final)
    (hconnected : g.isConnected = true) :
    left = [] ∧ ∀ n ∈ g.nodes.toList, n.id ∈ final.toList := by
  have hall := Graph.forall_of_isConnected hconnected h.first_mem h.closed
  refine ⟨List.eq_nil_iff_forall_not_mem.2 fun id hid => ?_, hall⟩
  obtain ⟨r, hr, rfl⟩ :=
    Graph.mem_relationIds.1 (h.ids_perm.mem_iff.2 (List.mem_append_right _ hid))
  obtain ⟨n, hn, hsource⟩ := g.consistent.source_mem r hr
  exact nextRelation?_eq_none (h.exhausted n.id (hall n hn)) hr
    (Link.touches_iff.2 (.inl hsource.symm)) hid

theorem Drawn.relations_perm {final : OrderedSet NodeId}
    (h : Drawn c g [] final) :
    (((chains g).flatMap Chain.steps).map Step.relation).Perm
    g.relations.toList := by
  refine perm_relations_of_ids ?_ ?_
  · intro r hr
    obtain ⟨s, hs, rfl⟩ := List.mem_map.1 hr
    obtain ⟨chain, hchain, hs⟩ := List.mem_flatMap.1 hs
    exact ((h.leads chain hchain).of_mem s hs).1
  · have hids := h.ids_perm.symm
    rw [List.append_nil] at hids
    rw [List.map_map]
    exact hids

/-- Every start is met where it stands or before. -/
theorem Drawn.starts_met {left : List RelationId} {final : OrderedSet NodeId}
    (h : Drawn c g left final) (before : List Chain) (chain : Chain)
    (after : List Chain) (hsplit : chains g = before ++ chain :: after)
    (hne : before ≠ []) :
    chain.start.node ∈ (before.flatMap Chain.refs).map NodeRef.node ∧
    chain.steps ≠ [] := by
  obtain ⟨first, rest, hchains, -, hstarts⟩ := h.starts
  cases before with
  | nil => exact absurd rfl hne
  | cons head before =>
    rw [hchains, List.cons_append, List.cons.injEq] at hsplit
    obtain ⟨rfl, rfl⟩ := hsplit
    obtain ⟨hmem, hsteps⟩ := hstarts.start_mem
    refine ⟨?_, hsteps⟩
    rw [List.flatMap_cons, List.map_append]
    exact hmem

/-- Steps lead to nodes of the graph, and start at one if there is any step. -/
theorem Leads.node_mem {node : NodeId} {steps : List Step}
    (h : Leads c g node steps) :
    (steps ≠ [] → node ∈ g.nodeIds) ∧ ∀ s ∈ steps, s.node.node ∈ g.nodeIds := by
  induction h with
  | stop node => simp
  | @go node step rest passes leads ih =>
    have hmem : ∀ end_, step.relation.link.touches end_ = true →
        end_ ∈ g.nodeIds :=
      fun _ => Graph.mem_nodeIds_of_touches passes.relation_mem
    have hends := Link.other_eq_some_iff.1 passes.ends
    refine ⟨fun _ => hmem _ (Link.other_isSome_iff.1 ⟨_, passes.ends⟩),
      fun s hs => ?_⟩
    rcases List.mem_cons.1 hs with rfl | hs
    · exact hmem _ (Link.touches_iff.2 (by tauto))
    · exact ih.2 s hs

/-- Only nodes of the graph are referred to. -/
theorem Drawn.met_mem {left : List RelationId} {final : OrderedSet NodeId}
    (h : Drawn c g left final) : ∀ id ∈ final.toList, id ∈ g.nodeIds := by
  intro id hid
  rw [h.mem_final, List.map_flatMap, List.mem_flatMap] at hid
  obtain ⟨chain, hchain, hid⟩ := hid
  obtain ⟨hstart, hsteps⟩ := (h.leads chain hchain).node_mem
  rw [Chain.refs, List.map_cons, List.mem_cons, List.map_map] at hid
  rcases hid with rfl | hid
  · obtain ⟨before, after, hsplit⟩ := List.append_of_mem hchain
    cases before with
    | nil =>
      obtain ⟨first, rest, hchains, hfirst, -⟩ := h.starts
      rw [hchains, List.nil_append, List.cons.injEq] at hsplit
      rw [← hsplit.1, hfirst]
      exact Graph.mem_nodeIds.2 ⟨_, g.first_mem, rfl⟩
    | cons head before =>
      exact hstart (h.starts_met _ _ _ hsplit (List.cons_ne_nil head before)).2
  · obtain ⟨s, hs, rfl⟩ := List.mem_map.1 hid
    exact hsteps s hs

/-- In a graph that is all drawn, the nodes met are its nodes. -/
theorem Drawn.met_iff {left : List RelationId} {final : OrderedSet NodeId}
    (h : Drawn c g left final)
    (hall : ∀ n ∈ g.nodes.toList, n.id ∈ final.toList) (id : NodeId) :
    id ∈ ((chains g).flatMap Chain.refs).map NodeRef.node ↔ id ∈ g.nodeIds := by
  rw [← h.mem_final]
  refine ⟨h.met_mem id, fun hid => ?_⟩
  obtain ⟨n, hn, rfl⟩ := Graph.mem_nodeIds.1 hid
  exact hall n hn

/-- A reference is decided by what stands before it. -/
theorem Introduces.ref_eq {refs : List NodeRef} (h : Introduces [] refs)
    (before : List NodeRef) (ref : NodeRef) (after : List NodeRef)
    (hsplit : refs = before ++ ref :: after) :
    ref = if ref.node ∈ before.map NodeRef.node then .mention ref.node
      else .declaration ref.node := by
  rw [hsplit] at h
  have hiff := h.declaration_iff
  split
  · rename_i hmem
    exact NodeRef.eq_mention_of_ne fun heq => (hiff.1 heq).2 hmem
  · rename_i hnew
    exact hiff.2 ⟨List.not_mem_nil, hnew⟩

/-! ## Declarations -/

/-- The nodes that references declare. -/
def declaredIds (refs : List NodeRef) : List NodeId :=
  refs.filterMap fun
    | .declaration node => some node
    | .mention _ => none

/-- Each node referred to for the first time is declared once. -/
theorem Introduces.declaredIds {refs : List NodeRef} :
    ∀ {met : List NodeId}, Introduces met refs → (declaredIds refs).Nodup ∧
      ∀ id, id ∈ declaredIds refs ↔ id ∈ refs.map NodeRef.node ∧ id ∉ met := by
  induction refs with
  | nil => simp [Query.declaredIds]
  | cons ref rest ih =>
    rintro met ⟨href, hrest⟩
    obtain ⟨hnodup, hmem⟩ := ih hrest
    cases ref with
    | declaration node =>
      have hnew : node ∉ met := href.1 rfl
      have hcons : Query.declaredIds (.declaration node :: rest) = node ::
          Query.declaredIds rest := rfl
      rw [hcons]
      refine ⟨List.nodup_cons.2
        ⟨fun hin => ((hmem node).1 hin).2 List.mem_cons_self, hnodup⟩, ?_⟩
      intro id
      simp only [List.mem_cons, hmem, NodeRef.node, List.map_cons]
      by_cases hid : id = node
      · subst hid
        simp [hnew]
      · simp [hid]
    | mention node =>
      have hold : node ∈ met := by
        by_contra hnew
        exact absurd (href.2 hnew) (by simp)
      have hcons : Query.declaredIds (.mention node :: rest) =
          Query.declaredIds rest := rfl
      rw [hcons]
      refine ⟨hnodup, fun id => ?_⟩
      simp only [hmem, NodeRef.node, List.map_cons, List.mem_cons]
      by_cases hid : id = node
      · subst hid
        simp [hold]
      · simp [hid]

/-- Only declarations ask anything inline. -/
theorem flatMap_asked (refs : List NodeRef) :
    refs.flatMap (NodeRef.asked g) = (declaredIds refs).flatMap
    (askedOfNode g) := by
  induction refs with
  | nil => rfl
  | cons ref rest ih =>
    cases ref with
    | declaration node =>
      show askedOfNode g node ++ rest.flatMap (NodeRef.asked g) = _
      rw [ih]
      rfl
    | mention node => exact ih

/-! ## Properties -/

/-- The element and the name of a property. -/
def Asked.slot (p : Asked) : Element × String := (p.1, p.2.1)

/-- Every property of an element is listed under its own name. -/
theorem slots_nodup (g : Graph) : ((allProperties g).map Asked.slot).Nodup := by
  have hnames : ∀ (x : Element) (properties : Properties),
      (properties.toList.map fun p => Asked.slot (x, p)).Nodup := by
    intro x properties
    have hkeys : (properties.toList.map Prod.fst).Nodup :=
      Keyed.keys_nodup properties
    refine List.Nodup.of_map Prod.snd ?_
    rw [List.map_map]
    exact hkeys
  simp only [allProperties, List.map_append, List.map_flatMap, List.map_map,
    Function.comp_def]
  refine List.nodup_append.2 ⟨?_, ?_, ?_⟩
  · refine List.nodup_flatMap.2 ⟨fun n _ => hnames _ _, ?_⟩
    apply (Keyed.toList_nodup g.nodes).imp_of_mem
    intro m n hm hn hne q hm' hn'
    obtain ⟨p, -, rfl⟩ := List.mem_map.1 hm'
    obtain ⟨p', -, hp'⟩ := List.mem_map.1 hn'
    simp only [Asked.slot, Prod.mk.injEq, Element.node.injEq] at hp'
    exact hne (Keyed.eq_of_key_eq hm hn hp'.1.symm)
  · refine List.nodup_flatMap.2 ⟨fun r _ => hnames _ _, ?_⟩
    apply (Keyed.toList_nodup g.relations).imp_of_mem
    intro r s hr hs hne q hr' hs'
    obtain ⟨p, -, rfl⟩ := List.mem_map.1 hr'
    obtain ⟨p', -, hp'⟩ := List.mem_map.1 hs'
    simp only [Asked.slot, Prod.mk.injEq, Element.relation.injEq] at hp'
    exact hne (Keyed.eq_of_key_eq hr hs hp'.1.symm)
  · intro a ha b hb
    simp only [List.mem_flatMap, List.mem_map, Asked.slot] at ha hb
    obtain ⟨_, _, _, _, rfl⟩ := ha
    obtain ⟨_, _, _, _, rfl⟩ := hb
    simp

/-- What a chain asks is what its references and its relations ask. -/
theorem asked_perm (chain : Chain) :
    (chain.asked g).Perm (chain.refs.flatMap (NodeRef.asked g) ++
      chain.steps.flatMap Step.asked) := by
  have hsteps : (chain.steps.flatMap fun s => s.asked ++ s.node.asked g).Perm
      ((chain.steps.map Step.node).flatMap (NodeRef.asked g) ++
        chain.steps.flatMap Step.asked) := by
    rw [List.flatMap_map]
    exact (List.flatMap_append_perm chain.steps Step.asked
      fun s => s.node.asked g).symm.trans
      List.perm_append_comm
  rw [Chain.asked, Chain.refs, List.flatMap_cons, List.append_assoc]
  exact hsteps.append_left _

/-- Every node that is met has its declaration. -/
theorem Drawn.declaration_mem {left : List RelationId}
    {final : OrderedSet NodeId} (h : Drawn c g left final)
    (hall : ∀ n ∈ g.nodes.toList, n.id ∈ final.toList) {id : NodeId}
    (hid : id ∈ g.nodeIds) :
    .declaration id ∈ (chains g).flatMap Chain.refs := by
  have hdeclared :=
    (h.introduces.declaredIds.2 id).2 ⟨(h.met_iff hall id).2 hid,
      List.not_mem_nil⟩
  obtain ⟨ref, href, hsome⟩ := List.mem_filterMap.1 hdeclared
  cases ref with
  | declaration node =>
    cases hsome
    exact href
  | mention node => cases hsome

/-- The pattern asks inline for exactly the properties with a value, each once,
since each element is declared once. -/
theorem Drawn.inline_perm {final : OrderedSet NodeId} (h : Drawn c g [] final)
    (hall : ∀ n ∈ g.nodes.toList, n.id ∈ final.toList) :
    (inlineProperties g).Perm ((allProperties g).filter
      fun p => !p.2.2.isNull) := by
  have hids : (declaredIds ((chains g).flatMap Chain.refs)).Perm g.nodeIds := by
    obtain ⟨hnodup, hmem⟩ := h.introduces.declaredIds
    apply (List.perm_ext_iff_of_nodup hnodup (Keyed.keys_nodup g.nodes)).2
    intro id
    rw [hmem, h.met_iff hall]
    exact and_iff_left List.not_mem_nil
  have hnodes : (((chains g).flatMap Chain.refs).flatMap (NodeRef.asked g)).Perm
      (g.nodes.toList.flatMap fun n =>
        (presentProperties n.traits.properties).map
            (Element.node n.id, ·)) := by
    rw [flatMap_asked]
    refine (hids.flatMap_right _).trans ?_
    rw [Graph.nodeIds, Keyed.keys, List.flatMap_map]
    apply List.Perm.flatMap_left _
    intro n hn
    rw [askedOfNode, Graph.node?_id hn]
  have hrelations : (((chains g).flatMap Chain.steps).flatMap Step.asked).Perm
      (g.relations.toList.flatMap fun r =>
        (presentProperties r.link.traits.properties).map
            (Element.relation r.id, ·)) := by
    have hmap := h.relations_perm.flatMap_right fun r =>
      (presentProperties r.link.traits.properties).map
        (Element.relation r.id, ·)
    rw [List.flatMap_map] at hmap
    exact hmap
  have hchains : (inlineProperties g).Perm
      (((chains g).flatMap Chain.refs).flatMap (NodeRef.asked g) ++
        ((chains g).flatMap Chain.steps).flatMap Step.asked) := by
    rw [List.flatMap_assoc, List.flatMap_assoc]
    exact (List.Perm.flatMap_left _ fun chain _ => asked_perm chain).trans
      (List.flatMap_append_perm _ _ _).symm
  refine hchains.trans ((hnodes.append hrelations).trans (List.Perm.of_eq ?_))
  simp only [allProperties, List.filter_append, List.filter_flatMap,
    List.filter_map, presentProperties, Function.comp_def]

/-- An order is no null check. -/
theorem nullChecks_eq_lack (policy : Policy) (g : Graph) :
    nullChecks policy g =
    (lackPredicates g).filterMap Predicate.nullCheck? := by
  have horder : ∀ s : Symmetry,
      (orderPredicates s).filterMap Predicate.nullCheck? = [] := by
    intro s
    simp only [orderPredicates, List.filterMap_append, List.filterMap_flatMap,
      List.filterMap_map, Function.comp_def, Predicate.nullCheck?,
      List.append_eq_nil_iff, List.flatMap_eq_nil_iff]
    exact ⟨fun _ _ => List.filterMap_none _, fun _ _ => List.filterMap_none _⟩
  rw [nullChecks, predicates, List.filterMap_append]
  split
  · rw [horder, List.append_nil]
  · rw [List.filterMap_nil, List.append_nil]

/-- The null checks are the properties without a value, in the order of the
elements. -/
theorem nullChecks_eq (policy : Policy) (g : Graph) :
    nullChecks policy g = ((allProperties g).filter fun p => p.2.2.isNull).map
    Asked.slot := by
  rw [nullChecks_eq_lack]
  simp only [lackPredicates, nullNames, allProperties, List.filterMap_append,
    List.filterMap_flatMap, List.filterMap_map, List.filter_append,
    List.filter_flatMap, List.filter_map, List.map_append, List.map_flatMap,
    List.map_map, Function.comp_def, Predicate.nullCheck?, Asked.slot,
    List.filterMap_eq_map']

/-- Properties with the same element and the same name are the same. -/
theorem eq_of_slot_eq {p q : Asked} (hp : p ∈ allProperties g)
    (hq : q ∈ allProperties g) (hslot : p.slot = q.slot) : p = q :=
  List.inj_on_of_nodup_map (slots_nodup g) hp hq hslot

/-- A property with a value is asked for inline, and checked by nothing. -/
theorem Drawn.inline_once {final : OrderedSet NodeId} (h : Drawn c g [] final)
    (hall : ∀ n ∈ g.nodes.toList, n.id ∈ final.toList) (policy : Policy) :
    ∀ p ∈ allProperties g, p.2.2.isNull = false →
      (inlineProperties g).count p = 1 ∧ p.slot ∉ nullChecks policy g := by
  intro p hp hvalue
  have hperm := h.inline_perm hall
  refine ⟨?_, fun hcheck => ?_⟩
  · rw [hperm.count_eq]
    refine List.count_eq_one_of_mem
      ((List.Nodup.of_map _ (slots_nodup g)).filter _) ?_
    exact List.mem_filter.2 ⟨hp, by rw [hvalue]; rfl⟩
  · rw [nullChecks_eq, List.mem_map] at hcheck
    obtain ⟨q, hq, hslot⟩ := hcheck
    obtain ⟨hq, hnull⟩ := List.mem_filter.1 hq
    rw [eq_of_slot_eq hq hp hslot, hvalue] at hnull
    exact Bool.false_ne_true hnull

/-- A property without a value is checked for, and asked for inline
by nothing. -/
theorem Drawn.null_once {final : OrderedSet NodeId} (h : Drawn c g [] final)
    (hall : ∀ n ∈ g.nodes.toList, n.id ∈ final.toList) (policy : Policy) :
    ∀ p ∈ allProperties g, p.2.2.isNull = true →
      (nullChecks policy g).count p.slot = 1 ∧
      ∀ value, (p.1, p.2.1, value) ∉ inlineProperties g := by
  intro p hp hnull
  have hperm := h.inline_perm hall
  refine ⟨?_, fun value hvalue => ?_⟩
  · rw [nullChecks_eq]
    refine List.count_eq_one_of_mem ?_
      (List.mem_map_of_mem (List.mem_filter.2 ⟨hp, hnull⟩))
    exact (slots_nodup g).sublist (List.filter_sublist.map _)
  · obtain ⟨hq, hpresent⟩ := List.mem_filter.1 (hperm.mem_iff.1 hvalue)
    rw [eq_of_slot_eq hq hp rfl, hnull] at hpresent
    exact Bool.false_ne_true hpresent

/-! ## The text of the conditions -/

/-- The predicates of a query read as they have to be written: first the null
checks, then the order, if one is asked for. -/
theorem map_text_predicates (o : Options) (g : Graph) :
    (predicates o.policy g).map (Predicate.text o) =
      (nullChecks o.policy g).map (nullCheckText o) ++ orderTexts o g := by
  have hlack : (lackPredicates g).map (Predicate.text o) =
      ((lackPredicates g).filterMap Predicate.nullCheck?).map
      (nullCheckText o) := by
    simp only [lackPredicates, List.map_append, List.map_flatMap, List.map_map,
      List.filterMap_append, List.filterMap_flatMap, List.filterMap_map,
      Function.comp_def, Predicate.nullCheck?, List.filterMap_eq_map']
    rfl
  have horder : (orderPredicates g.symmetry).map (Predicate.text o) =
      (g.symmetry.nodeClasses.flatMap fun members =>
        (neighbouring members).map fun (a, b) =>
        "id(" ++ o.nodeVariable a ++ ") <= id(" ++ o.nodeVariable b ++ ")") ++
      g.symmetry.relationClasses.flatMap fun members =>
        (neighbouring members).map fun (a, b) =>
          "id(" ++ o.relationVariable a ++ ") < id(" ++
            o.relationVariable b ++ ")" := by
    simp only [orderPredicates, List.map_append, List.map_flatMap, List.map_map]
    rfl
  rw [nullChecks_eq_lack, predicates, List.map_append, hlack, orderTexts]
  split
  · rw [horder]
  · rw [List.map_nil]

theorem predicateLines_eq (o : Options) (ps : List Predicate) :
    predicateLines o ps = conditionLines (ps.map (Predicate.text o)) := by
  cases ps with
  | nil => rfl
  | cons p rest =>
    rw [predicateLines, List.map_cons, conditionLines, List.map_map]
    rfl

theorem compile_text_eq (c : Compiler) (g : Graph) : (c.compile g).text =
    "MATCH " ++ c.patternText g ++ "\n" ++
      conditionLines
      ((nullChecks c.options.policy g).map (nullCheckText c.options) ++
        orderTexts c.options g) ++ (Shape.ofGraph c.options g).projection := by
  rw [← map_text_predicates, ← predicateLines_eq]
  rfl

/-- Lines behind a line feed end with one. -/
theorem exists_line_feed_join (leads : List String) :
    ∃ before, "\n" ++ String.join (leads.map fun lead => lead ++ "\n") =
    before ++ "\n" := by
  rcases leads.eq_nil_or_concat with rfl | ⟨leads, last, rfl⟩
  · exact ⟨"", rfl⟩
  · refine ⟨"\n" ++ String.join (leads.map fun lead => lead ++ "\n") ++ last,
      ?_⟩
    simp [String.append_assoc]

/-- Every condition stands behind its lead, between two line feeds, so it is a
line of the text by itself. -/
theorem exists_line_of_mem {conditions : List String} {condition : String}
    (h : condition ∈ conditions) :
    ∃ before lead after, lead ∈ ["WHERE ", "  AND "] ∧
      "\n" ++ conditionLines conditions =
        before ++ "\n" ++ lead ++ condition ++ "\n" ++ after := by
  cases conditions with
  | nil => exact absurd h List.not_mem_nil
  | cons first others =>
    rcases List.mem_cons.1 h with rfl | h
    · refine ⟨"", "WHERE ",
        String.join (others.map fun other => "  AND " ++ other ++ "\n"),
        List.mem_cons_self, ?_⟩
      simp only [conditionLines, String.append_assoc, String.empty_append]
    · obtain ⟨earlier, later, rfl⟩ := List.append_of_mem h
      -- the line before is that of the first condition or of the last
      -- earlier one
      obtain ⟨before, hbefore⟩ :=
        exists_line_feed_join (("WHERE " ++ first) :: earlier.map fun other =>
          "  AND " ++ other)
      refine ⟨before, "  AND ",
        String.join (later.map fun other => "  AND " ++ other ++ "\n"),
        List.mem_cons_of_mem _ List.mem_cons_self, ?_⟩
      rw [← hbefore]
      simp only [conditionLines, List.map_append, List.map_cons, List.map_map,
        String.join_append, String.join_cons, Function.comp_def,
        String.append_assoc]

/-! ## Covering -/

/-- The query of a connected graph covers it, under all options and with any
catalog or none. -/
theorem chains_cover (c : Compiler) (g : Graph)
    (hconnected : g.isConnected = true) :
    Covers c g := by
  obtain ⟨left, final, hdrawn⟩ := exists_drawn c g
  obtain ⟨rfl, hall⟩ := hdrawn.of_isConnected hconnected
  have htext := compile_text_eq c g
  refine
    { text := htext
      relations_perm := hdrawn.relations_perm
      leads := hdrawn.leads
      met_iff := hdrawn.met_iff hall
      ref_eq := hdrawn.introduces.ref_eq
      declaration_text := fun n hn => ?_
      mention_text := fun id => rfl
      starts := hdrawn.starts_met
      inline_once := hdrawn.inline_once hall c.options.policy
      null_once := hdrawn.null_once hall c.options.policy
      null_line := fun p hp hnull => ?_
      inline_subset := fun p hp => ?_
      null_subset := fun q hq => ?_ }
  · rw [← slot_eq_slotText]
    simp only [Compiler.nodeText, Graph.node?_id hn, Compiler.nodeSlot]
  · have hcheck : p.slot ∈ nullChecks c.options.policy g := by
      rw [nullChecks_eq]
      exact List.mem_map_of_mem (List.mem_filter.2 ⟨hp, hnull⟩)
    obtain ⟨before, lead, after, hlead, hline⟩ := exists_line_of_mem
      (List.mem_append_left (orderTexts c.options g)
        (List.mem_map_of_mem (f := nullCheckText c.options) hcheck))
    refine ⟨"MATCH " ++ c.patternText g ++ before, lead,
      after ++ (Shape.ofGraph c.options g).projection, hlead, ?_⟩
    calc (c.compile g).text = "MATCH " ++ c.patternText g ++
          ("\n" ++ conditionLines
          ((nullChecks c.options.policy g).map (nullCheckText c.options) ++
            orderTexts c.options g)) ++
            (Shape.ofGraph c.options g).projection := by
          rw [htext]
          simp only [String.append_assoc]
      _ = _ := by
          rw [hline]
          simp only [String.append_assoc]
          rfl
  · exact List.mem_of_mem_filter ((hdrawn.inline_perm hall).mem_iff.1 hp)
  · rw [nullChecks_eq, List.mem_map] at hq
    obtain ⟨p, hp, rfl⟩ := hq
    exact ⟨p, List.mem_of_mem_filter hp, rfl⟩

/-- Two relations against each other, a loop, and a property that has to
be missing. -/
theorem chains_cover_opposites_and_loop :
    ∃ g, Graph.ofLists
        [{ id := -1,
           traits := ⟨some "Person", (∅ : Properties).insert "died" .null⟩ },
         { id := 4,
           traits := ⟨none, (∅ : Properties).insert "a b" (.string "x")⟩ }]
        [⟨2, ⟨-1, 4, true, { label := some "KNOWS" }⟩⟩, ⟨3, ⟨4, -1, true, {}⟩⟩,
          ⟨7, ⟨4, 4, false, {}⟩⟩] .required = .ok g ∧
      g.isConnected = true ∧ Covers {} g := by
  refine Exists.imp (fun g hg => ⟨hg, ?_⟩) (Graph.exists_of_isOk ?_)
  · have hconnected := Graph.isConnected_of_ofLists hg
    exact ⟨hconnected, chains_cover {} g hconnected⟩
  · decide

end DrawnPattern.Query
