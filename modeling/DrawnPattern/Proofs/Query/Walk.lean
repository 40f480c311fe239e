import DrawnPattern.Proofs.Graph.Incidence
import DrawnPattern.Query.Compiler
import Mathlib.Data.List.Perm.Basic
set_option autoImplicit false

/-!
# Walks and chains

What one walk does to the relations left and the nodes declared (`Walked`), and
from it what the chains that follow do (`Continued`): they take relations away
one by one, pass each from one end to the other, declare nodes where they are
first met, and stop where no declared node has a relation left.
-/

namespace DrawnPattern.Query

variable {c : Compiler} {g : Graph}

/-! ## References in text order -/

/-- The node that is referred to. -/
def NodeRef.node : NodeRef → NodeId
  | declaration node => node
  | mention node => node

/-- The references of a chain in text order: its start, then the node at the end
of each step. -/
def Chain.refs (chain : Chain) : List NodeRef :=
  chain.start :: chain.steps.map Step.node

/-- Whether nodes are declared where they are first met and mentioned
afterwards, given what was met before. -/
def Introduces (met : List NodeId) : List NodeRef → Prop
  | [] => True
  | ref :: rest =>
    (ref = .declaration ref.node ↔ ref.node ∉ met) ∧
      Introduces (ref.node :: met) rest

/-- Only the nodes met before matter, not how they are listed. -/
theorem Introduces.congr {refs : List NodeRef} :
    ∀ {met met' : List NodeId}, (∀ a, a ∈ met ↔ a ∈ met') →
      Introduces met refs → Introduces met' refs := by
  induction refs with
  | nil =>
    intro _ _ _ _
    trivial
  | cons ref rest ih =>
    intro met met' hsame h
    refine ⟨by rw [← hsame]; exact h.1, ih (fun a => ?_) h.2⟩
    rw [List.mem_cons, List.mem_cons, hsame]

theorem Introduces.append {refs refs' : List NodeRef} :
    ∀ {met : List NodeId}, Introduces met refs →
    Introduces (met ++ refs.map NodeRef.node) refs' →
      Introduces met (refs ++ refs') := by
  induction refs with
  | nil =>
    intro met _ h'
    simpa using h'
  | cons ref rest ih =>
    intro met h h'
    refine ⟨h.1, ih h.2 (h'.congr fun a => ?_)⟩
    simp only [List.map_cons, List.mem_append, List.mem_cons]
    tauto

/-- Read at any place: a reference declares iff its node was not met before, by
an earlier reference or from the beginning. -/
theorem Introduces.declaration_iff {before after : List NodeRef}
    {ref : NodeRef} :
    ∀ {met : List NodeId}, Introduces met (before ++ ref :: after) →
      (ref = .declaration ref.node ↔ ref.node ∉ met ∧
        ref.node ∉ before.map NodeRef.node) := by
  induction before with
  | nil =>
    intro met h
    simpa using h.1
  | cons earlier before ih =>
    intro met h
    rw [ih h.2]
    simp only [List.map_cons, List.mem_cons]
    tauto

theorem NodeRef.eq_mention_of_ne {ref : NodeRef}
    (h : ref ≠ .declaration ref.node) :
    ref = .mention ref.node := by
  cases ref with
  | declaration node => exact absurd rfl h
  | mention node => rfl

/-! ## Referring -/

theorem refer_node (declared : OrderedSet NodeId) (node : NodeId) :
    (refer declared node).1.node = node := by
  unfold refer
  split <;> rfl

theorem contains_iff_mem {declared : OrderedSet NodeId} {node : NodeId} :
    declared.contains node = true ↔ node ∈ declared.toList := by
  rw [Keyed.contains_iff]
  simp

theorem refer_eq_declaration_iff {declared : OrderedSet NodeId}
    {node : NodeId} :
    (refer declared node).1 = .declaration node ↔ node ∉ declared.toList := by
  rw [← contains_iff_mem]
  unfold refer
  split <;> simp_all

theorem mem_refer {declared : OrderedSet NodeId} {node a : NodeId} :
    a ∈ (refer declared node).2.toList ↔ a = node ∨ a ∈ declared.toList := by
  unfold refer
  split
  · rename_i hcontains
    rw [contains_iff_mem] at hcontains
    constructor
    · exact .inr
    · rintro (rfl | ha)
      · exact hcontains
      · exact ha
  · exact OrderedSet.mem_put_iff

/-- A reference and the nodes declared after it fit together. -/
theorem introduces_refer {declared : OrderedSet NodeId} {node : NodeId}
    {refs : List NodeRef} (h : Introduces (refer declared node).2.toList refs) :
    Introduces declared.toList ((refer declared node).1 :: refs) := by
  refine ⟨?_, h.congr fun a => ?_⟩
  · rw [refer_node]
    exact refer_eq_declaration_iff
  · rw [mem_refer, refer_node, List.mem_cons]

/-! ## Passing relations -/

/-- A variable, the label that is kept, and the properties asked for
between braces. -/
def slotText (name : String) (label : Option String)
    (asked : List (String × Value)) : String :=
  name ++
    (match label with
      | some label => ":" ++ identifier label
      | none => "") ++
    if asked = [] then ""
    else
      " \x7b" ++
        ", ".intercalate (asked.map fun entry =>
          identifier entry.1 ++ ": " ++ literal entry.2) ++ "\x7d"

theorem slot_eq_slotText (name : String) (label : Option String)
    (properties : Properties) :
    Compiler.slot name label properties =
    slotText name label (presentProperties properties) := by
  have hentry : (fun entry : String × Value => identifier entry.1 ++ ": " ++
      literal entry.2) =
      propertyEntry := rfl
  unfold Compiler.slot slotText propertyMap?
  rw [hentry]
  have hbrace : ∀ map : String, " " ++ ("\x7b" ++ map) = " \x7b" ++ map :=
    fun map => (@String.append_assoc " " "\x7b" map).symm
  cases label <;> cases presentProperties properties <;>
    simp [String.append_assoc, hbrace]

/-- The text of a link that is passed from one of its ends: without a head if it
has no direction, else with a head at its target. -/
def linkText (l : Link) (before : NodeId) (slot : String) : String :=
  if l.directed = false then "-[" ++ slot ++ "]-"
  else if l.source = before then "-[" ++ slot ++ "]->"
  else "<-[" ++ slot ++ "]-"

/-- Whether a step goes along a relation of the graph from one of its ends to
the other and is drawn that way. -/
structure Passes (c : Compiler) (g : Graph) (before : NodeId) (step : Step) :
    Prop where
  relation_mem : step.relation ∈ g.relations.toList
  ends : step.relation.link.other before = some step.node.node
  drawn : c.stepText g step =
    linkText step.relation.link before
      (slotText (c.options.relationVariable step.relation.id)
        (step.relation.link.traits.label.filter c.keepsRelationLabel)
        (presentProperties step.relation.link.traits.properties)) ++
      c.nodeText g step.node

/-- Whether steps lead on from a node, each from where the one before
it ended. -/
inductive Leads (c : Compiler) (g : Graph) : NodeId → List Step → Prop
  | stop (node : NodeId) : Leads c g node []
  | go {node : NodeId} {step : Step} {rest : List Step}
    (passes : Passes c g node step)
      (leads : Leads c g step.node.node rest) : Leads c g node (step :: rest)

theorem nextRelation?_eq_some {unused : List RelationId} {node : NodeId}
    {r : Relation} (h : nextRelation? g unused node = some r) :
    r ∈ g.relations.toList ∧ r.link.touches node = true ∧ r.id ∈ unused := by
  obtain ⟨hr, htouches⟩ :=
    Graph.mem_incident_iff.1 (List.mem_of_find?_eq_some h)
  exact ⟨hr, htouches, by simpa using List.find?_some h⟩

theorem nextRelation?_eq_none {unused : List RelationId} {node : NodeId}
    (h : nextRelation? g unused node = none) {r : Relation}
    (hr : r ∈ g.relations.toList) (htouches : r.link.touches node = true) :
    r.id ∉ unused := by
  have hnone :=
    List.find?_eq_none.1 h r (Graph.mem_incident_iff.2 ⟨hr, htouches⟩)
  simpa using hnone

/-- A relation taken at one of its ends leads to the other, and is drawn as it
is passed. -/
theorem passes_of_other {r : Relation} {node next : NodeId} {ref : NodeRef}
    (hr : r ∈ g.relations.toList) (hnext : r.link.other node = some next)
    (href : ref.node = next) :
    Passes c g node ⟨r, arrowFrom r.link node, ref⟩ where
  relation_mem := hr
  ends := by rw [href]; exact hnext
  drawn := by
    rw [← slot_eq_slotText]
    unfold Compiler.stepText Compiler.relationSlot linkText arrowFrom
    cases hdirected : r.link.directed with
    | false => simp
    | true =>
      by_cases hsource : r.link.source = node
      · simp [hsource]
      · simp [hsource]

/-- The arrow shows in the text of a step. -/
theorem arrow_eq_of_stepText_eq {r : Relation} {a b : Arrow} {ref : NodeRef}
    (h : c.stepText g ⟨r, a, ref⟩ = c.stepText g ⟨r, b, ref⟩) : a = b := by
  replace h := congrArg String.toList h
  simp only [Compiler.stepText, String.toList_append] at h
  cases a <;> cases b <;> simp_all

theorem Passes.arrow_eq {before : NodeId} {step : Step}
    (h : Passes c g before step) :
    step.arrow = arrowFrom step.relation.link before :=
  arrow_eq_of_stepText_eq
    (h.drawn.trans
      (passes_of_other (c := c) h.relation_mem h.ends rfl).drawn.symm)

/-! ## One walk -/

/-- What a walk from a node leaves behind: the relations it did not take, and
the nodes declared before it or met by it. -/
structure Walked (c : Compiler) (g : Graph) (node : NodeId)
    (unused : List RelationId) (declared : OrderedSet NodeId)
    (w : Walk) : Prop where
  unused_perm : unused.Perm (w.steps.map (·.relation.id) ++ w.unused)
  leads : Leads c g node w.steps
  introduces : Introduces declared.toList (w.steps.map Step.node)
  mem_declared : ∀ a, a ∈ w.declared.toList ↔ a ∈ declared.toList ∨
    a ∈ w.steps.map (·.node.node)

theorem walked_walk (c : Compiler) (g : Graph) (node : NodeId)
    (unused : List RelationId) (declared : OrderedSet NodeId) :
    Walked c g node unused declared (walk g node unused declared) := by
  fun_induction walk g node unused declared with
  | case1 node unused declared h =>
    exact ⟨List.Perm.refl _, .stop node, trivial, by simp⟩
  | case2 node unused declared r h next ref declared' hrefer rest ih =>
    obtain ⟨hr, htouches, hunused⟩ := nextRelation?_eq_some h
    obtain ⟨across, hacross⟩ := Link.other_isSome_iff.2 htouches
    have hnext : next = across := by simp [next, hacross]
    have href : ref.node = next := by
      have hnode := refer_node declared next
      rw [hrefer] at hnode
      exact hnode
    refine ⟨?_,
      .go (passes_of_other hr hacross (href.trans hnext)) (href ▸ ih.leads),
      ?_, ?_⟩
    · exact (List.perm_cons_erase hunused).trans (ih.unused_perm.cons r.id)
    · have hintroduces : Introduces (refer declared next).2.toList
          (rest.steps.map Step.node) := by
        rw [hrefer]
        exact ih.introduces
      have hall := introduces_refer hintroduces
      rw [hrefer] at hall
      exact hall
    · intro a
      have hmem : a ∈ (refer declared next).2.toList ↔
          a = next ∨ a ∈ declared.toList := mem_refer
      rw [hrefer] at hmem
      rw [ih.mem_declared, hmem, List.map_cons, List.mem_cons, href]
      tauto

/-! ## All further chains -/

/-- Whether chains start where something was met before and take a step
at least. -/
def StartsMet (met : List NodeId) : List Chain → Prop
  | [] => True
  | chain :: rest =>
    chain.start.node ∈ met ∧ chain.steps ≠ [] ∧
      StartsMet (met ++ chain.refs.map NodeRef.node) rest

theorem StartsMet.congr {chains : List Chain} :
    ∀ {met met' : List NodeId}, (∀ a, a ∈ met ↔ a ∈ met') →
      StartsMet met chains → StartsMet met' chains := by
  induction chains with
  | nil =>
    intro _ _ _ _
    trivial
  | cons chain rest ih =>
    intro met met' hsame h
    refine ⟨(hsame _).1 h.1, h.2.1, ih (fun a => ?_) h.2.2⟩
    rw [List.mem_append, List.mem_append, hsame]

/-- Read at any chain: its start was met before, in an earlier chain or from the
beginning. -/
theorem StartsMet.start_mem {before after : List Chain} {chain : Chain} :
    ∀ {met : List NodeId}, StartsMet met (before ++ chain :: after) →
      chain.start.node ∈ met ++ (before.flatMap Chain.refs).map NodeRef.node ∧
      chain.steps ≠ [] := by
  induction before with
  | nil =>
    intro met h
    exact ⟨by simpa using h.1, h.2.1⟩
  | cons earlier before ih =>
    intro met h
    obtain ⟨hmem, hsteps⟩ := ih h.2.2
    refine ⟨?_, hsteps⟩
    simpa only [List.flatMap_cons, List.map_append,
      List.append_assoc] using hmem

/-- What the chains that start at declared nodes do: they leave the relations
`left` and end with the nodes `final` declared. -/
structure Continued (c : Compiler) (g : Graph) (unused : List RelationId)
    (declared : OrderedSet NodeId) (chains : List Chain)
    (left : List RelationId) (final : OrderedSet NodeId) : Prop where
  unused_perm :
    unused.Perm ((chains.flatMap Chain.steps).map (·.relation.id) ++ left)
  leads : ∀ chain ∈ chains, Leads c g chain.start.node chain.steps
  introduces : Introduces declared.toList (chains.flatMap Chain.refs)
  mem_final : ∀ a, a ∈ final.toList ↔
    a ∈ declared.toList ∨ a ∈ (chains.flatMap Chain.refs).map NodeRef.node
  starts : StartsMet declared.toList chains
  exhausted : ∀ node ∈ final.toList, nextRelation? g left node = none

theorem exists_continued_chainsFrom (c : Compiler) (g : Graph)
    (unused : List RelationId) (declared : OrderedSet NodeId) :
    ∃ left final,
    Continued c g unused declared (chainsFrom g unused declared)
      left final := by
  fun_induction chainsFrom g unused declared with
  | case1 unused declared h =>
    refine ⟨unused, declared, List.Perm.refl _,
      by simp, trivial, by simp, trivial, ?_⟩
    intro node hnode
    simpa using List.find?_eq_none.1 h node hnode
  | case2 unused declared node h walked ih =>
    obtain ⟨left, final, hrest⟩ := ih
    have hwalked : Walked c g node unused declared walked :=
      walked_walk c g node unused declared
    have hnode : node ∈ declared.toList := List.mem_of_find?_eq_some h
    have hsteps : walked.steps ≠ [] := by
      intro hnil
      have hlength := hwalked.unused_perm.length_eq
      have hnext : (nextRelation? g unused node).isSome = true := by
        simpa using List.find?_some h
      have hless := walk_unused_length_lt declared hnext
      rw [hnil, List.map_nil, List.nil_append] at hlength
      exact absurd hlength.symm (Nat.ne_of_lt hless)
    -- the start is no news, so what was met is what the steps have met
    have hmet : ∀ a, a ∈ walked.declared.toList ↔
        a ∈ declared.toList ++ (Chain.refs ⟨.mention node, walked.steps⟩).map
        NodeRef.node := by
      intro a
      rw [hwalked.mem_declared]
      simp only [Chain.refs, NodeRef.node, List.map_cons, List.map_map,
        List.mem_append, List.mem_cons, Function.comp_def]
      constructor
      · tauto
      · rintro (ha | rfl | ha)
        · exact .inl ha
        · exact .inl hnode
        · exact .inr ha
    refine ⟨left, final, ?_, ?_, ?_, ?_, ?_, hrest.exhausted⟩
    · simp only [List.flatMap_cons, List.map_append, List.append_assoc]
      exact hwalked.unused_perm.trans (hrest.unused_perm.append_left _)
    · intro chain hchain
      rcases List.mem_cons.1 hchain with rfl | hchain
      · exact hwalked.leads
      · exact hrest.leads chain hchain
    · have hfirst :
          Introduces declared.toList
            (Chain.refs ⟨.mention node, walked.steps⟩) := by
        refine ⟨by simp [NodeRef.node, hnode],
          hwalked.introduces.congr fun a => ?_⟩
        simp only [NodeRef.node, List.mem_cons]
        constructor
        · exact .inr
        · rintro (rfl | ha)
          · exact hnode
          · exact ha
      exact hfirst.append (hrest.introduces.congr hmet)
    · intro a
      rw [hrest.mem_final, hmet a]
      simp only [List.flatMap_cons, List.map_append, List.mem_append]
      tauto
    · exact ⟨hnode, hsteps, hrest.starts.congr hmet⟩

end DrawnPattern.Query
