import DrawnPattern.Failure
import DrawnPattern.Proofs.Graph.Drawing
import DrawnPattern.Proofs.Order
import DrawnPattern.Query.Compiler
set_option autoImplicit false

/-!
# Drawing again

A drawing may be drawn again with its edges in another order, with edges
that have no direction taken from the other end, and under other keys
(`Drawing.Redrawn`).  Neither shows in what comes out
(`Drawing.sameOutcome_of_redrawn`): the graph is the same, and with it
every query, or the fault is of the same kind.  Only the keys that a fault
names may differ.
-/

namespace DrawnPattern

/-! ## Redrawn drawings -/

def Vertex.rename (f : String → String) (v : Vertex) : Vertex :=
  { v with key := f v.key }

def Edge.rename (f : String → String) (e : Edge) : Edge :=
  { e with source := f e.source, target := f e.target }

/-- The edge drawn from its other end. -/
def Edge.reversed (e : Edge) : Edge :=
  { e with source := e.target, target := e.source }

/-- Whether an edge is the other one with its keys renamed, perhaps drawn from
the other end if it has no direction. -/
def Edge.Redrawn (f : String → String) (e e' : Edge) : Prop :=
  e' = e.rename f ∨ (e.directed = false ∧ e' = e.reversed.rename f)

namespace Drawing

/-- All keys that occur, those of vertices and those that edges name, which need
not be vertices. -/
def keys (d : Drawing) : List String :=
  d.vertices.map Vertex.key ++ d.edges.flatMap fun e => [e.source, e.target]

/-- Whether a drawing shows the vertices of another one in their order and its
edges in any order, with keys renamed one to one. -/
structure Redrawn (f : String → String) (d d' : Drawing) : Prop where
  injective : ∀ a ∈ d.keys, ∀ b ∈ d.keys, f a = f b → a = b
  vertices : d'.vertices = d.vertices.map (Vertex.rename f)
  edges : ∃ edges, List.Forall₂ (Edge.Redrawn f) d.edges edges ∧
    edges.Perm d'.edges

/-- Whether two drawings come out the same: as one graph or with faults of
one kind. -/
structure SameOutcome (d d' : Drawing) : Prop where
  graph_iff : ∀ g, d.graph = .ok g ↔ d'.graph = .ok g
  compile_eq : ∀ (c : Query.Compiler) (g g' : Graph), d.graph = .ok g →
    d'.graph = .ok g' →
    c.compile g = c.compile g'
  code_eq : ∀ fault fault', d.graph = .error fault → d'.graph = .error fault' →
    (Failure.graph fault).code = (Failure.graph fault').code
  disconnected_iff : ∀ start unreached total,
    d.graph = .error (.disconnected start unreached total) ↔
      d'.graph = .error (.disconnected start unreached total)

/-! ## Keys -/

variable {f : String → String} {vertices : List Vertex}

/-- Repeated keys are found under any names that tell the keys apart. -/
theorem repeatedKey?_go_rename {earlier : List String}
    (hinj : ∀ a ∈ earlier ++ vertices.map Vertex.key,
      ∀ b ∈ earlier ++ vertices.map Vertex.key,
      f a = f b → a = b) :
    repeatedKey?.go (earlier.map f) (vertices.map (Vertex.rename f)) =
      (repeatedKey?.go earlier vertices).map f := by
  induction vertices generalizing earlier with
  | nil => rfl
  | cons v rest ih =>
    have hcontains :
        (earlier.map f).contains (f v.key) = earlier.contains v.key := by
      rw [Bool.eq_iff_iff, List.contains_iff_mem, List.contains_iff_mem,
        List.mem_map]
      constructor
      · rintro ⟨a, ha, heq⟩
        rw [← hinj a (by simp [ha]) v.key (by simp) heq]
        exact ha
      · intro hv
        exact ⟨v.key, hv, rfl⟩
    simp only [List.map_cons, repeatedKey?.go, Vertex.rename, hcontains]
    split
    · rfl
    · have hmem : ∀ a ∈ (v.key :: earlier) ++ rest.map Vertex.key,
          a ∈ earlier ++ (v :: rest).map Vertex.key := by
        intro a ha
        simp only [List.cons_append, List.mem_cons, List.mem_append,
          List.map_cons] at ha ⊢
        tauto
      exact ih fun a ha b hb => hinj a (hmem a ha) b (hmem b hb)

theorem repeatedKey?_rename
    (hinj : ∀ a ∈ vertices.map Vertex.key, ∀ b ∈ vertices.map Vertex.key,
      f a = f b → a = b) :
    repeatedKey? (vertices.map (Vertex.rename f)) =
        (repeatedKey? vertices).map f :=
  @repeatedKey?_go_rename f vertices [] hinj

theorem indexOf?_rename {key : String}
    (hinj : ∀ v ∈ vertices, f v.key = f key → v.key = key) :
    indexOf? (vertices.map (Vertex.rename f)) (f key) =
    indexOf? vertices key := by
  unfold indexOf?
  rw [List.findIdx?_map]
  congr 1
  induction vertices with
  | nil => rfl
  | cons v rest ih =>
    have hkey : (f v.key == f key) = (v.key == key) := by
      rw [Bool.eq_iff_iff, beq_iff_eq, beq_iff_eq]
      exact ⟨hinj v List.mem_cons_self, congrArg f⟩
    rw [List.findIdx?_cons, List.findIdx?_cons, ih fun w hw =>
      hinj w (List.mem_cons_of_mem _ hw)]
    simp only [Function.comp_apply, Vertex.rename, hkey]

/-! ## Edges -/

variable {d d' : Drawing}

/-- An edge drawn again stands for the same link, since positions stay and the
end it was drawn from is forgotten. -/
theorem place_eq_ok_iff_of_redrawn (h : Redrawn f d d') {e e' : Edge}
    (he : e ∈ d.edges) (hredrawn : e.Redrawn f e') {l : Link} :
    place d.vertices e = .ok l ↔ place d'.vertices e' = .ok l := by
  have hindex : ∀ key ∈ [e.source, e.target],
      indexOf? d'.vertices (f key) = indexOf? d.vertices key := by
    intro key hkey
    rw [h.vertices]
    refine indexOf?_rename fun v hv => h.injective _ ?_ _ ?_
    · exact List.mem_append_left _ (List.mem_map_of_mem hv)
    · exact List.mem_append_right _ (List.mem_flatMap.2 ⟨e, he, hkey⟩)
  have hsource := hindex e.source (by simp)
  have htarget := hindex e.target (by simp)
  rw [place_eq_ok_iff, place_eq_ok_iff]
  rcases hredrawn with rfl | ⟨hundirected, rfl⟩
  · simp only [Edge.rename, hsource, htarget]
  · have hnormal : ∀ s t, Link.normal ⟨s, t, e.directed, e.traits⟩ =
        Link.normal ⟨t, s, e.directed, e.traits⟩ := fun s t =>
      Link.normal_eq_of_sameEnds rfl rfl (.inr ⟨hundirected, rfl, rfl⟩)
    simp only [Edge.rename, Edge.reversed, hsource, htarget]
    constructor
    · rintro ⟨s, t, hs, ht, rfl⟩
      exact ⟨t, s, ht, hs, hnormal t s⟩
    · rintro ⟨t, s, ht, hs, rfl⟩
      exact ⟨s, t, hs, ht, hnormal s t⟩

/-- Both drawings have links, those of one in another order than those of the
other, or an edge of each names a key that no vertex has. -/
theorem exists_links_of_redrawn (h : Redrawn f d d') :
    (∃ links links', d.edges.mapM (place d.vertices) = .ok links ∧
      d'.edges.mapM (place d'.vertices) = .ok links' ∧ links'.Perm links) ∨
    ∃ gap gap', d.edges.mapM (place d.vertices) = .error (.incomplete gap) ∧
      d'.edges.mapM (place d'.vertices) = .error (.incomplete gap') := by
  obtain ⟨edges, hredrawn, hperm⟩ := h.edges
  have hsame : ∀ {links}, d.edges.mapM (place d.vertices) = .ok links ↔
      edges.mapM (place d'.vertices) = .ok links := by
    refine mapM_eq_ok_iff_of_forall₂ ?_
    have hmem :=
      (List.forall₂_and_left d.edges edges).2 ⟨fun _ he => he, hredrawn⟩
    exact hmem.imp fun e e' he _ => place_eq_ok_iff_of_redrawn h he.1 he.2
  have hgap : ∀ {drawing : Drawing} {fault},
      drawing.edges.mapM (place drawing.vertices) = .error fault →
      ∃ gap, fault = .incomplete gap := by
    intro drawing fault hfault
    obtain ⟨e, -, hplace⟩ := exists_of_mapM_eq_error hfault
    exact exists_gap_of_place_eq_error hplace
  cases hlinks : d.edges.mapM (place d.vertices) with
  | ok links =>
    obtain ⟨links', hlinks', hsorted⟩ :=
      exists_perm_of_mapM_eq_ok hperm.symm (hsame.1 hlinks)
    exact .inl ⟨links, links', rfl, hlinks', hsorted⟩
  | error fault =>
    obtain ⟨gap, rfl⟩ := hgap hlinks
    cases hlinks' : d'.edges.mapM (place d'.vertices) with
    | ok links' =>
      obtain ⟨links, hmid, -⟩ := exists_perm_of_mapM_eq_ok hperm hlinks'
      rw [hsame.2 hmid] at hlinks
      cases hlinks
    | error fault' =>
      obtain ⟨gap', rfl⟩ := hgap hlinks'
      exact .inr ⟨gap, gap', rfl, rfl⟩

/-! ## Outcomes -/

theorem numberedNodes_rename (f : String → String) (vertices : List Vertex) :
    numberedNodes (vertices.map (Vertex.rename f)) =
    numberedNodes vertices := by
  apply List.ext_getElem
  · simp [numberedNodes]
  · intro i _ _
    simp [numberedNodes, Vertex.rename]

theorem canonical_eq_of_perm {links links' : List Link}
    (h : links'.Perm links) :
    canonical links' = canonical links :=
  mergeSort_isLE_eq_of_perm h

/-- Drawings that show the same are read to the same, except for the keys that
are named where a reference does not resolve. -/
theorem graph_eq_or_incomplete_of_redrawn (h : Redrawn f d d') :
    d.graph = d'.graph ∨
      ∃ gap gap', d.graph = .error (.incomplete gap) ∧
      d'.graph = .error (.incomplete gap') := by
  have hempty : d'.vertices.isEmpty = d.vertices.isEmpty := by
    rw [h.vertices, List.isEmpty_map]
  have hrepeated :
      repeatedKey? d'.vertices = (repeatedKey? d.vertices).map f := by
    rw [h.vertices]
    refine repeatedKey?_rename fun a ha b hb => ?_
    exact h.injective a (List.mem_append_left _ ha) b
      (List.mem_append_left _ hb)
  unfold graph
  rw [hempty, hrepeated]
  split
  · exact .inl rfl
  · cases repeatedKey? d.vertices with
    | some key => exact .inr ⟨_, _, rfl, rfl⟩
    | none =>
      rcases exists_links_of_redrawn h with
        ⟨links, links', hlinks, hlinks', hperm⟩ | ⟨gap, gap', hgap, hgap'⟩
      · refine .inl ?_
        simp only [hlinks, hlinks', Option.map_none, bind, Except.bind]
        rw [h.vertices, numberedNodes_rename, canonical_eq_of_perm hperm]
      · refine .inr ⟨gap, gap', ?_, ?_⟩
        · rw [hgap]
          rfl
        · simp only [hgap', Option.map_none]
          rfl

/-- Drawing again does not show in what comes out: neither the order of the
edges nor the end they were drawn from nor the choice of keys. -/
theorem sameOutcome_of_redrawn (f : String → String) (d d' : Drawing)
    (h : Redrawn f d d') :
    SameOutcome d d' := by
  rcases graph_eq_or_incomplete_of_redrawn h with
    hsame | ⟨gap, gap', hgap, hgap'⟩
  · refine ⟨fun g => by
      rw [hsame], fun c g g' hg hg' => ?_,
        fun fault fault' hfault hfault' => ?_,
      fun _ _ _ => by rw [hsame]⟩
    · rw [hsame, hg'] at hg
      cases hg
      rfl
    · rw [hsame, hfault'] at hfault
      cases hfault
      rfl
  · refine ⟨fun g => ?_, fun c g g' hg _ => ?_,
      fun fault fault' hfault hfault' => ?_, fun start unreached total => ?_⟩
    · simp [hgap, hgap']
    · rw [hgap] at hg
      cases hg
    · rw [hgap] at hfault
      rw [hgap'] at hfault'
      cases hfault
      cases hfault'
      rfl
    · simp [hgap, hgap']

/-- Parallel edges with two zeros and a NaN, drawn in another order, one of them
from the other end, under other keys. -/
theorem sameOutcome_of_redrawn_zeros_and_nan :
    let one (bits : UInt64) : Traits :=
      ⟨none, (∅ : Properties).insert "w" (.float ⟨bits⟩)⟩
    let d : Drawing :=
      ⟨[⟨"a", {}⟩, ⟨"b", {}⟩], [⟨"a", "b", true, {}⟩, ⟨"b", "a", false, one 0⟩,
        ⟨"a", "b", false, one 0x8000000000000000⟩,
        ⟨"a", "b", false, one 0x7ff8000000000001⟩]⟩
    let d' : Drawing :=
      ⟨[⟨"b", {}⟩, ⟨"", {}⟩], [⟨"", "b", false, one 0x7ff8000000000001⟩,
        ⟨"b", "", false, one 0x8000000000000000⟩, ⟨"b", "", false, one 0⟩,
        ⟨"b", "", true, {}⟩]⟩
    let f : String → String := fun key => if key = "a" then "b" else ""
    Redrawn f d d' ∧ SameOutcome d d' := by
  intro one d d' f
  have hredrawn : Redrawn f d d' := by
    refine ⟨by decide, rfl, d'.edges.reverse, ?_, List.reverse_perm _⟩
    exact .cons (.inl rfl)
      (.cons (.inr ⟨rfl, rfl⟩)
        (.cons (.inl rfl) (.cons (.inr ⟨rfl, rfl⟩) .nil)))
  exact ⟨hredrawn, sameOutcome_of_redrawn f d d' hredrawn⟩

end Drawing

end DrawnPattern
