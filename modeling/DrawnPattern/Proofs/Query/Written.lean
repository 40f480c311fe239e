import DrawnPattern.Proofs.Query.Condition
set_option autoImplicit false

/-!
# What the query of a graph writes

Every chain is written as the line of its references and steps
(`toList_chainText`), and the whole query as its lines, its predicates and the
projection (`written`).  What is proved of lines and slots is thereby proved of
the text.  So under accepted stems two queries with one text have alike lines,
one by one, and the same predicates (`alike_of_text_eq`).
-/

namespace DrawnPattern.Query

variable {c : Compiler} {g h : Graph}

/-! ## Lines -/

/-- What is written of a node where it is declared: its label unless that is
left out, and its properties with a value. -/
def declaredSlot (c : Compiler) (n : Node) : Slot where
  name := c.options.nodeVariable n.id
  label := n.traits.label.filter c.keepsNodeLabel
  asked := presentProperties n.traits.properties

/-- What is written where a node is only mentioned. -/
def mentionedSlot (c : Compiler) (id : NodeId) : Slot where
  name := c.options.nodeVariable id
  label := none
  asked := []

def NodeRef.slot (c : Compiler) (g : Graph) : NodeRef → Slot
  | declaration id =>
    match g.node? id with
    | some n => declaredSlot c n
    | none => mentionedSlot c id
  | mention id => mentionedSlot c id

/-- What is written of a relation: its type unless that is left out, and its
properties with a value. -/
def relationSlot (c : Compiler) (r : Relation) : Slot where
  name := c.options.relationVariable r.id
  label := r.link.traits.label.filter c.keepsRelationLabel
  asked := presentProperties r.link.traits.properties

def Step.hop (c : Compiler) (g : Graph) (s : Step) : Hop where
  arrow := s.arrow
  relation := relationSlot c s.relation
  node := s.node.slot c g

def Chain.line (c : Compiler) (g : Graph) (chain : Chain) : Line where
  start := chain.start.slot c g
  hops := chain.steps.map (Step.hop c g)

theorem NodeRef.slot_name (ref : NodeRef) :
    (ref.slot c g).name = c.options.nodeVariable ref.node := by
  cases ref with
  | mention id => rfl
  | declaration id =>
    cases hn : g.node? id with
    | none => simp only [slot, hn, mentionedSlot, node]
    | some n =>
      simp only [slot, hn, declaredSlot, node, (Graph.node?_eq_some_iff.1 hn).2]

theorem slot_declaration {n : Node} (hn : n ∈ g.nodes.toList) :
    (NodeRef.declaration n.id).slot c g = declaredSlot c n := by
  simp only [NodeRef.slot, Graph.node?_id hn]

/-! ## The pattern as text -/

theorem toList_parentheses (s : Slot) :
    ("(" ++ slotText s.name s.label s.asked ++ ")").toList = nodeChars s := by
  rw [String.toList_append, String.toList_append]
  rfl

theorem toList_nodeText (ref : NodeRef) :
    (c.nodeText g ref).toList = nodeChars (ref.slot c g) := by
  have hmention : ∀ id, ("(" ++ c.options.nodeVariable id ++ ")").toList =
      nodeChars (mentionedSlot c id) := by
    intro id
    rw [← toList_parentheses]
    simp [mentionedSlot, slotText]
  cases ref with
  | mention id => exact hmention id
  | declaration id =>
    cases hn : g.node? id with
    | none =>
      simp only [Compiler.nodeText, NodeRef.slot, hn]
      exact hmention id
    | some n =>
      simp only [Compiler.nodeText, NodeRef.slot, hn, Compiler.nodeSlot,
        slot_eq_slotText]
      exact toList_parentheses (declaredSlot c n)

theorem toList_stepText (s : Step) :
    (c.stepText g s).toList = (s.hop c g).chars := by
  have hslot : (c.relationSlot s.relation).toList =
      (relationSlot c s.relation).chars := by
    rw [Compiler.relationSlot, slot_eq_slotText]
    rfl
  obtain ⟨relation, arrow, node⟩ := s
  cases arrow <;>
    simp [Compiler.stepText, Step.hop, Hop.chars, Arrow.opening, Arrow.closing,
      toList_nodeText, hslot]

/-- A chain is written as its line. -/
theorem toList_chainText (chain : Chain) :
    (c.chainText g chain).toList = (chain.line c g).chars := by
  rw [Compiler.chainText, String.toList_append, String.toList_join,
    toList_nodeText, List.flatMap_map]
  simp only [toList_stepText]
  rw [Line.chars, Chain.line, List.flatMap_map]

theorem toList_patternText : (c.patternText g).toList =
    [',', ' '].intercalate
    (((chains g).map (Chain.line c g)).map Line.chars) := by
  rw [Compiler.patternText, String.toList_intercalate, List.map_map,
    List.map_map]
  simp only [Function.comp_def, toList_chainText]
  rfl

/-! ## Proper lines -/

theorem presentProperties_present (properties : Properties) :
    ∀ entry ∈ presentProperties properties, entry.2.isNull = false := by
  intro entry hentry
  simpa using (List.mem_filter.1 hentry).2

theorem proper_slot (ho : c.options.Accepted) (ref : NodeRef) :
    (ref.slot c g).Proper where
  name_word := by
    rw [NodeRef.slot_name]
    exact ho.nodeVariable_word _
  asked_present := by
    cases ref with
    | mention id => exact fun _ hentry => absurd hentry List.not_mem_nil
    | declaration id =>
      cases hn : g.node? id with
      | none =>
        simp only [NodeRef.slot, hn]
        exact fun _ hentry => absurd hentry List.not_mem_nil
      | some n =>
        simp only [NodeRef.slot, hn]
        exact presentProperties_present _

theorem proper_line (ho : c.options.Accepted) (chain : Chain) :
    (chain.line c g).Proper where
  start := proper_slot ho _
  hops := by
    intro hop hhop
    obtain ⟨s, -, rfl⟩ := List.mem_map.1 hhop
    exact ⟨⟨ho.relationVariable_word _, presentProperties_present _⟩,
      proper_slot ho _⟩

/-! ## The whole query -/

theorem chains_ne_nil (g : Graph) : chains g ≠ [] := List.cons_ne_nil _ _

theorem toList_projection (s : Shape) :
    ∃ t, s.projection.toList = 'W' :: 'I' :: t := by
  have hwith : "WITH collect([".toList = 'W' :: 'I' ::
      "TH collect([".toList := by decide
  unfold Shape.projection
  simp only [String.toList_append, List.append_assoc, hwith, List.cons_append]
  exact ⟨_, rfl⟩

/-- Whether the text of a query is made of the lines of its chains, the lines of
its predicates, and the projection to its shape, character by character and of
nothing else. -/
def Written (c : Compiler) (g : Graph) : Prop :=
  (c.compile g).text.toList =
    ['M', 'A', 'T', 'C', 'H', ' '] ++
      ([',', ' '].intercalate
        (((chains g).map (Chain.line c g)).map Line.chars) ++
        '\n' :: (linesChars c.options (predicates c.options.policy g) ++
          (c.compile g).shape.projection.toList))

theorem written (c : Compiler) (g : Graph) : Written c g := by
  simp only [Written, Compiler.compile, String.toList_append,
    toList_patternText, toList_predicateLines, List.append_assoc]
  rfl

/-- Queries with one text have alike lines, one by one, and the same
predicates. -/
theorem alike_of_text_eq (ho : c.options.Accepted)
    (htext : (c.compile g).text = (c.compile h).text) :
    List.Forall₂ (fun a b => (a.line c g).Alike (b.line c h)) (chains g)
    (chains h) ∧
      predicates c.options.policy g = predicates c.options.policy h := by
  have hg := written c g
  rw [Written, htext, written c h] at hg
  have hproper : ∀ k : Graph, (chains k).map (Chain.line c k) ≠ [] ∧
      ∀ l ∈ (chains k).map (Chain.line c k), l.Proper := by
    intro k
    refine ⟨fun hnil => chains_ne_nil k (List.map_eq_nil_iff.1 hnil),
      fun l hl => ?_⟩
    obtain ⟨chain, -, rfl⟩ := List.mem_map.1 hl
    exact proper_line ho chain
  obtain ⟨hlines, htail⟩ :=
    cut_lines (hproper g) (hproper h) (.cons List.mem_cons_self)
    (.cons List.mem_cons_self) (List.append_cancel_left hg).symm
  obtain ⟨hpredicates, -⟩ :=
    cut_linesChars ho trivial trivial (toList_projection _)
    (toList_projection _) (List.cons.inj htail).2
  rw [List.forall₂_map_left_iff, List.forall₂_map_right_iff] at hlines
  exact ⟨hlines, hpredicates⟩

end DrawnPattern.Query
