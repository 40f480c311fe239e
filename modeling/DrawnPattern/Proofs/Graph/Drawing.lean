import DrawnPattern.Proofs.Failing
import DrawnPattern.Proofs.Graph.Building
import DrawnPattern.Proofs.Graph.Link
import Mathlib.Algebra.Order.Ring.Int
set_option autoImplicit false

/-!
# Graphs of drawings

The graph of a drawing has its vertices as nodes, in drawing order, and its
links as relations, in canonical order; it is connected (`Drawing.graph_eq_ok`),
and all its links are read from the lower end (`Drawing.normal_link`).
-/

namespace DrawnPattern.Drawing

/-! ## Edges -/

section

variable {vertices : List Vertex}

theorem place_eq_ok_iff {e : Edge} {l : Link} :
    place vertices e = .ok l ↔
    ∃ source target, indexOf? vertices e.source = some source ∧
      indexOf? vertices e.target = some target ∧
      Link.normal ⟨source, target, e.directed, e.traits⟩ = l := by
  have hresolve : ∀ key index, resolve vertices key = .ok index ↔
      indexOf? vertices key = some index := by
    intro key index
    unfold resolve
    split <;> simp_all
  simp only [place, bind_eq_ok_iff, hresolve]
  constructor
  · rintro ⟨source, hsource, target, htarget, ⟨⟩⟩
    exact ⟨source, target, hsource, htarget, rfl⟩
  · rintro ⟨source, target, hsource, htarget, rfl⟩
    exact ⟨source, hsource, target, htarget, rfl⟩

/-- An edge that cannot be placed names a key that no vertex has. -/
theorem exists_gap_of_place_eq_error {e : Edge} {fault : GraphFault}
    (h : place vertices e = .error fault) : ∃ gap, fault = .incomplete gap := by
  unfold place resolve at h
  cases hsource : indexOf? vertices e.source with
  | none =>
    rw [hsource] at h
    cases h
    exact ⟨_, rfl⟩
  | some source =>
    cases htarget : indexOf? vertices e.target with
    | none =>
      rw [hsource, htarget] at h
      cases h
      exact ⟨_, rfl⟩
    | some target =>
      rw [hsource, htarget] at h
      cases h

end

/-! ## Graphs -/

theorem numberedNodes_ascending (vertices : List Vertex) :
    (numberedNodes vertices).Pairwise fun m n => compare m.id n.id = .lt := by
  rw [List.pairwise_iff_getElem]
  intro i j hi hj hij
  simp only [numberedNodes, List.getElem_mapIdx, compare_lt_iff_lt]
  exact_mod_cast hij

theorem numberedRelations_ascending (links : List Link) :
    (numberedRelations links).Pairwise fun q r => compare q.id r.id = .lt := by
  rw [List.pairwise_iff_getElem]
  intro i j hi hj hij
  simp only [numberedRelations, List.getElem_mapIdx, compare_lt_iff_lt]
  exact_mod_cast hij

theorem nodup_of_ascending {l : List Int}
    (h : l.Pairwise fun a b => compare a b = .lt) : l.Nodup :=
  h.imp fun hlt heq =>
    absurd hlt (by rw [compare_lt_iff_lt, heq]; exact lt_irrefl _)

theorem map_link_numberedRelations (links : List Link) :
    (numberedRelations links).map Relation.link = links := by
  apply List.ext_getElem
  · simp [numberedRelations]
  · intro i _ _
    simp [numberedRelations]

/-- The numbered vertices and links in a builder, before anything is checked. -/
def gathered (vertices : List Vertex) (links : List Link) : Graph.Builder :=
  ⟨.ofList (numberedNodes vertices), .ofList (numberedRelations links), none⟩

theorem nodes_gathered (vertices : List Vertex) (links : List Link) :
    (gathered vertices links).nodes.toList = numberedNodes vertices :=
  Keyed.toList_ofList (numberedNodes_ascending vertices)

theorem relations_gathered (vertices : List Vertex) (links : List Link) :
    (gathered vertices links).relations.toList = numberedRelations links :=
  Keyed.toList_ofList (numberedRelations_ascending links)

/-- Numbered nodes and relations are gathered as they are. -/
theorem foldl_numbered (vertices : List Vertex) (links : List Link) :
    (numberedRelations links).foldl Graph.Builder.addRelation
        ((numberedNodes vertices).foldl Graph.Builder.addNode {}) =
        gathered vertices links := by
  rw [Graph.Builder.foldl_addNode
      (nodup_of_ascending
        (List.pairwise_map.2 (numberedNodes_ascending vertices)))
        fun _ _ => rfl,
    Graph.Builder.foldl_addRelation
      (nodup_of_ascending
        (List.pairwise_map.2 (numberedRelations_ascending links)))
        fun _ _ => rfl]
  rfl

/-- What the graph of a drawing consists of: its numbered vertices with what
touches them, and its links in canonical order. -/
theorem graph_eq_ok {d : Drawing} {g : Graph} (h : d.graph = .ok g) :
    ∃ links, d.edges.mapM (place d.vertices) = .ok links ∧
      g.relations.toList = numberedRelations (canonical links) ∧
      g.nodes = Graph.Builder.attached (.ofList (numberedNodes d.vertices))
      g.relations ∧
      g.isConnected = true := by
  unfold graph at h
  split at h
  · cases h
  · split at h
    · cases h
    · obtain ⟨links, hlinks, hofLists⟩ := bind_eq_ok_iff.1 h
      obtain ⟨hn, hr⟩ := Graph.Builder.eq_of_build hofLists
      rw [foldl_numbered] at hn hr
      refine ⟨links, hlinks, ?_, ?_, Graph.isConnected_of_ofLists hofLists⟩
      · rw [hr, relations_gathered]
      · rw [hn, hr]
        rfl

/-- The links in canonical order are those of the edges. -/
theorem mem_map_link_iff {vertices : List Vertex} {edges : List Edge}
    {links : List Link} {l : Link}
    (hlinks : edges.mapM (place vertices) = .ok links) :
    l ∈ (numberedRelations (canonical links)).map Relation.link ↔
      ∃ e ∈ edges, place vertices e = .ok l := by
  rw [map_link_numberedRelations, canonical, (List.mergeSort_perm _ _).mem_iff,
    mem_iff_of_mapM_eq_ok hlinks]

/-- A drawn edge becomes a link that is read from the lower end, if it has no
direction. -/
theorem normal_of_place {vertices : List Vertex} {e : Edge} {l : Link}
    (h : place vertices e = .ok l) : l.normal = l := by
  obtain ⟨source, target, -, -, rfl⟩ := place_eq_ok_iff.1 h
  exact Link.normal_normal _

/-- All links of a drawing are read from the lower end. -/
theorem normal_link {d : Drawing} {g : Graph} (h : d.graph = .ok g) :
    ∀ r ∈ g.relations.toList, r.link.normal = r.link := by
  obtain ⟨links, hlinks, hrelations, -⟩ := graph_eq_ok h
  rw [hrelations]
  intro r hr
  obtain ⟨e, -, hplace⟩ := (mem_map_link_iff hlinks).1 (List.mem_map_of_mem hr)
  exact normal_of_place hplace

end DrawnPattern.Drawing
