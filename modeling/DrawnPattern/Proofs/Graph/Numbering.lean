import DrawnPattern.Proofs.Graph.Drawing
import DrawnPattern.Proofs.Graph.Reach
import DrawnPattern.Proofs.Order
set_option autoImplicit false

/-!
# What a drawing comes to

A drawing has a graph iff it has a vertex, its keys are distinct, its edges end
at vertices and paths of edges join all of these (`Drawing.Outcome`).  The graph
then numbers the vertices as they were listed and the edges in canonical order,
with no edge lost, doubled or turned (`Drawing.Numbers`).  Otherwise the fault
is the first of: no vertex, a key that is repeated or unknown, vertices that no
path joins to the first.
-/

namespace DrawnPattern.Drawing

/-! ## Keys and paths -/

/-- The keys of the vertices, in drawing order. -/
def vertexKeys (d : Drawing) : List String := d.vertices.map Vertex.key

/-- Whether the keys can be told apart and edges end at vertices, which is what
makes keys and positions the same thing. -/
structure Complete (d : Drawing) : Prop where
  distinct : d.vertexKeys.Nodup
  ends : ∀ e ∈ d.edges, e.source ∈ d.vertexKeys ∧ e.target ∈ d.vertexKeys

/-- Whether an edge joins two keys, whatever its direction. -/
def Joined (d : Drawing) (a b : String) : Prop :=
  ∃ e ∈ d.edges, (e.source = a ∧ e.target = b) ∨ (e.source = b ∧ e.target = a)

/-- Whether a path of edges leads from one key to another. -/
def Path (d : Drawing) : String → String → Prop :=
  Relation.ReflTransGen d.Joined

/-- Whether paths join all vertices, as the keys tell it; no number
occurs in it. -/
def Connected (d : Drawing) : Prop :=
  ∀ a ∈ d.vertexKeys, ∀ b ∈ d.vertexKeys, d.Path a b

open Classical in
/-- How many vertices no path joins to the first one: the number that stands in
the fault of a drawing that falls into pieces. -/
noncomputable def apart (d : Drawing) : Nat :=
  d.vertices.countP fun v => ∀ first ∈ d.vertices.head?, ¬d.Path first.key v.key

/-! ## Numbers -/

/-- Whether a link is an edge between the positions of its ends.  It is
exchanged only if the edge has no direction and was drawn from the higher
position. -/
structure Draws (d : Drawing) (e : Edge) (l : Link) : Prop where
  directed_eq : l.directed = e.directed
  traits_eq : l.traits = e.traits
  ends : ∃ source target : Nat, d.vertexKeys[source]? = some e.source ∧
    d.vertexKeys[target]? = some e.target ∧
      (l.source, l.target) = if e.directed = false ∧ target < source
        then ((target : Int), (source : Int))
          else ((source : Int), (target : Int))

/-- Whether a graph numbers the vertices of a drawing in order and its edges in
canonical order. -/
structure Numbers (d : Drawing) (g : Graph) : Prop where
  nodes_eq : (g.nodes.toList.map fun n => (n.id, n.traits)) =
    d.vertices.mapIdx fun index v => ((index : Int), v.traits)
  relationIds_eq : g.relationIds = (List.range d.edges.length).map Int.ofNat
  /-- the relations are the edges in another order -/
  draws : ∃ edges, edges.Perm d.edges ∧
    List.Forall₂ (fun e r => d.Draws e r.link) edges g.relations.toList
  ascending : g.relations.toList.Pairwise fun q r =>
    (q.link.order r.link).isLE = true
  lower_first : ∀ r ∈ g.relations.toList, r.link.directed = false →
    r.link.source ≤ r.link.target

/-- What a drawing comes to: a graph or the first of three faults, each told by
the vertices and the edges alone. -/
structure Outcome (d : Drawing) : Prop where
  ok_iff : (∃ g, d.graph = .ok g) ↔ d.vertices ≠ [] ∧ d.Complete ∧ d.Connected
  numbers : ∀ g, d.graph = .ok g → d.Numbers g
  empty_iff : d.graph = .error .empty ↔ d.vertices = []
  incomplete_iff : (∃ gap, d.graph = .error (.incomplete gap)) ↔
    d.vertices ≠ [] ∧ ¬d.Complete
  disconnected_iff : ∀ start unreached total,
    d.graph = .error (.disconnected start unreached total) ↔
      d.vertices ≠ [] ∧ d.Complete ∧ ¬d.Connected ∧
        start = 0 ∧ unreached = d.apart ∧ total = d.vertices.length

/-! ## Looking up keys -/

variable {d : Drawing} {g : Graph} {vertices : List Vertex} {links : List Link}

theorem repeatedKey?_go_eq_none_iff {earlier : List String} :
    repeatedKey?.go earlier vertices = none ↔
      (vertices.map Vertex.key).Nodup ∧ ∀ v ∈ vertices, v.key ∉ earlier := by
  induction vertices generalizing earlier with
  | nil => simp [repeatedKey?.go]
  | cons v rest ih =>
    rw [repeatedKey?.go]
    split
    · rename_i htaken
      refine iff_of_false (Option.some_ne_none _) fun h => ?_
      exact h.2 v List.mem_cons_self (List.contains_iff_mem.1 htaken)
    · rename_i hfree
      rw [List.contains_iff_mem] at hfree
      rw [ih]
      simp only [List.map_cons, List.nodup_cons, List.mem_map, List.mem_cons,
        forall_eq_or_imp]
      grind

/-- No key is repeated iff they are distinct. -/
theorem repeatedKey?_eq_none_iff :
    repeatedKey? vertices = none ↔ (vertices.map Vertex.key).Nodup := by
  rw [repeatedKey?, repeatedKey?_go_eq_none_iff]
  simp

theorem getElem?_of_indexOf? {key : String} {index : NodeId}
    (h : indexOf? vertices key = some index) :
    ∃ i : Nat, index = i ∧ (vertices.map Vertex.key)[i]? = some key := by
  obtain ⟨i, hfind, rfl⟩ := Option.map_eq_some_iff.1 h
  obtain ⟨hi, hkey, -⟩ := List.findIdx?_eq_some_iff_getElem.1 hfind
  refine ⟨i, rfl, ?_⟩
  rw [List.getElem?_map, List.getElem?_eq_getElem hi]
  exact congrArg some (beq_iff_eq.1 hkey)

theorem exists_indexOf?_iff {key : String} :
    (∃ index, indexOf? vertices key = some index) ↔
    key ∈ vertices.map Vertex.key := by
  rw [← Option.isSome_iff_exists, indexOf?, Option.isSome_map,
    List.findIdx?_isSome]
  simp

/-- An edge is placed iff its ends are vertices. -/
theorem exists_place_iff {e : Edge} : (∃ l, place vertices e = .ok l) ↔
    e.source ∈ vertices.map Vertex.key ∧
    e.target ∈ vertices.map Vertex.key := by
  simp only [place_eq_ok_iff, ← exists_indexOf?_iff]
  constructor
  · rintro ⟨l, source, target, hsource, htarget, -⟩
    exact ⟨⟨source, hsource⟩, target, htarget⟩
  · rintro ⟨⟨source, hsource⟩, target, htarget⟩
    exact ⟨_, source, target, hsource, htarget, rfl⟩

/-- What is placed is the edge between the positions of its ends. -/
theorem draws_of_place {e : Edge} {l : Link} (h : place d.vertices e = .ok l) :
    d.Draws e l := by
  obtain ⟨_, _, hs, ht, rfl⟩ := place_eq_ok_iff.1 h
  obtain ⟨source, rfl, hsource⟩ := getElem?_of_indexOf? hs
  obtain ⟨target, rfl, htarget⟩ := getElem?_of_indexOf? ht
  refine ⟨Link.normal_directed _, Link.normal_traits _, source, target, hsource,
    htarget, ?_⟩
  unfold Link.normal
  by_cases hexchanged : e.directed = false ∧ target < source
  · have htest : (!e.directed && decide ((target : Int) < source)) = true := by
      simp [hexchanged.1, hexchanged.2]
    rw [if_pos htest, if_pos hexchanged]
  · have htest : ¬(!e.directed && decide ((target : Int) < source)) = true := by
      simpa using hexchanged
    rw [if_neg htest, if_neg hexchanged]

/-- The ends of a drawn link are its positions, one way or the other. -/
theorem Draws.sides {e : Edge} {l : Link} (h : d.Draws e l) :
    ∃ source target : Nat, d.vertexKeys[source]? = some e.source ∧
      d.vertexKeys[target]? = some e.target ∧
        ((l.source = source ∧ l.target = target) ∨
          (l.source = target ∧ l.target = source)) := by
  obtain ⟨source, target, hsource, htarget, hends⟩ := h.ends
  refine ⟨source, target, hsource, htarget, ?_⟩
  split at hends
  · exact .inr (Prod.mk.inj hends)
  · exact .inl (Prod.mk.inj hends)

theorem Draws.source_le_target {e : Edge} {l : Link} (h : d.Draws e l)
    (hundirected : l.directed = false) : l.source ≤ l.target := by
  obtain ⟨source, target, -, -, hends⟩ := h.ends
  rw [h.directed_eq] at hundirected
  split at hends
  · rename_i hexchanged
    obtain ⟨hsource, htarget⟩ := Prod.mk.inj hends
    rw [hsource, htarget]
    exact Int.ofNat_le.2 (Nat.le_of_lt hexchanged.2)
  · rename_i hkept
    obtain ⟨hsource, htarget⟩ := Prod.mk.inj hends
    rw [hsource, htarget]
    exact Int.ofNat_le.2 (Nat.le_of_not_lt fun hlt => hkept ⟨hundirected, hlt⟩)

/-! ## Numbering -/

theorem map_numberedNodes (vertices : List Vertex) :
    ((numberedNodes vertices).map fun n => (n.id, n.traits)) =
      vertices.mapIdx fun index v => ((index : Int), v.traits) := by
  apply List.ext_getElem
  · simp [numberedNodes]
  · intro i _ _
    simp [numberedNodes]

theorem map_id_numberedRelations (links : List Link) :
    (numberedRelations links).map Relation.id =
    (List.range links.length).map Int.ofNat := by
  apply List.ext_getElem
  · simp [numberedRelations]
  · intro i _ _
    simp [numberedRelations]

/-- Attachment keeps the numbers and traits of all nodes. -/
theorem map_attached (nodes : NodeTable) (relations : RelationTable) :
    ((Graph.Builder.attached nodes relations).toList.map
      fun n => (n.id, n.traits)) =
      nodes.toList.map fun n => (n.id, n.traits) := by
  show (nodes.toList.map (Graph.Builder.attachTo relations.toList)).map _ = _
  rw [List.map_map]
  refine List.map_congr_left fun n _ => ?_
  exact Prod.ext (Graph.Builder.attachTo_id _ n)
    (Graph.Builder.attachTo_traits _ n)

/-- The relations are the placed edges in another order, so each relation stands
for an edge and each edge for a relation. -/
theorem exists_placed (hlinks : d.edges.mapM (place d.vertices) = .ok links)
    (hrelations : g.relations.toList = numberedRelations (canonical links)) :
    ∃ edges, edges.Perm d.edges ∧
      List.Forall₂ (fun e r => place d.vertices e = .ok r.link) edges
      g.relations.toList := by
  obtain ⟨edges, hplaced, hperm⟩ := List.perm_comp_forall₂
    (List.mergeSort_perm links _) (mapM_eq_ok_iff.1 hlinks).flip
  refine ⟨edges, hperm, ?_⟩
  rw [← List.forall₂_map_right_iff (R := fun e l => place d.vertices e = .ok l)
      (f := Relation.link), hrelations, map_link_numberedRelations]
  exact hplaced.flip

/-- Tables with the vertices and the links of the edges number the drawing. -/
theorem numbers_of_tables (hlinks : d.edges.mapM (place d.vertices) = .ok links)
    (hrelations : g.relations.toList = numberedRelations (canonical links))
    (hnodes : g.nodes =
      Graph.Builder.attached (.ofList (numberedNodes d.vertices)) g.relations) :
    d.Numbers g := by
  have hdraws : ∃ edges, edges.Perm d.edges ∧
      List.Forall₂ (fun e r => d.Draws e r.link) edges g.relations.toList := by
    obtain ⟨edges, hperm, hplaced⟩ := exists_placed hlinks hrelations
    exact ⟨edges, hperm, hplaced.imp fun _ _ => draws_of_place⟩
  refine ⟨?_, ?_, hdraws, ?_, ?_⟩
  · rw [hnodes, map_attached, Keyed.toList_ofList (numberedNodes_ascending _),
      map_numberedNodes]
  · have hlength : (canonical links).length = d.edges.length :=
      (List.length_mergeSort _).trans (mapM_eq_ok_iff.1 hlinks).length_eq.symm
    rw [Graph.relationIds, Keyed.keys, hrelations,
      map_id_numberedRelations, hlength]
  · rw [← List.pairwise_map (f := Relation.link)
      (R := fun l m => (l.order m).isLE = true), hrelations,
      map_link_numberedRelations]
    exact pairwise_mergeSort_isLE links
  · rw [hrelations]
    intro r hr
    obtain ⟨e, -, hplace⟩ :=
      (mem_map_link_iff hlinks).1 (List.mem_map_of_mem hr)
    exact (draws_of_place hplace).source_le_target

theorem numbers_of_graph (h : d.graph = .ok g) : d.Numbers g := by
  obtain ⟨links, hlinks, hrelations, hnodes, -⟩ := graph_eq_ok h
  exact numbers_of_tables hlinks hrelations hnodes

/-- The relations are drawn from edges, and every edge is drawn. -/
theorem Numbers.counterparts (hnumbers : d.Numbers g) :
    (∀ e ∈ d.edges, ∃ r ∈ g.relations.toList, d.Draws e r.link) ∧
      ∀ r ∈ g.relations.toList, ∃ e ∈ d.edges, d.Draws e r.link := by
  obtain ⟨edges, hperm, hdraws⟩ := hnumbers.draws
  obtain ⟨hdrawn, hfrom⟩ := exists_mem_of_forall₂ hdraws
  constructor
  · exact fun e he => hdrawn e (hperm.mem_iff.2 he)
  · intro r hr
    obtain ⟨e, he, hdraws⟩ := hfrom r hr
    exact ⟨e, hperm.mem_iff.1 he, hdraws⟩

theorem Numbers.nodeIds_eq (hnumbers : d.Numbers g) :
    g.nodeIds = d.vertices.zipIdx.map fun p => (p.2 : Int) := by
  have hids := congrArg (List.map Prod.fst) hnumbers.nodes_eq
  rw [List.map_map] at hids
  refine Eq.trans hids ?_
  apply List.ext_getElem
  · simp
  · intro i _ _
    simp

/-- A number is that of a node iff it is the position of a vertex. -/
theorem Numbers.mem_nodeIds_iff (hnumbers : d.Numbers g) {id : NodeId} :
    id ∈ g.nodeIds ↔
    ∃ (i : Nat) (key : String), d.vertexKeys[i]? = some key ∧ id = i := by
  rw [hnumbers.nodeIds_eq, List.mem_map]
  constructor
  · rintro ⟨⟨v, i⟩, hv, rfl⟩
    refine ⟨i, v.key, ?_, rfl⟩
    rw [vertexKeys, List.getElem?_map, List.mem_zipIdx_iff_getElem?.1 hv]
    rfl
  · rintro ⟨i, key, hkey, rfl⟩
    rw [vertexKeys, List.getElem?_map] at hkey
    obtain ⟨v, hv, -⟩ := Option.map_eq_some_iff.1 hkey
    exact ⟨(v, i), List.mem_zipIdx_iff_getElem?.2 hv, rfl⟩

theorem Numbers.first_id (hnumbers : d.Numbers g) : g.first.id = 0 := by
  have hhead : g.nodeIds.head? = some g.first.id := by
    rw [Graph.nodeIds, Keyed.keys, List.head?_map,
      List.head?_eq_some_head g.consistent.nonempty]
    rfl
  rw [hnumbers.nodeIds_eq] at hhead
  cases hvertices : d.vertices with
  | nil => simp [hvertices] at hhead
  | cons v rest => simpa [hvertices] using hhead.symm

theorem Numbers.size_eq (hnumbers : d.Numbers g) :
    g.nodes.size = d.vertices.length := by
  have hlength := congrArg List.length hnumbers.nodeIds_eq
  rw [Graph.nodeIds, Keyed.keys, List.length_map, List.length_map,
    List.length_zipIdx] at hlength
  exact hlength

/-- A position of a vertex is the number of a node. -/
theorem exists_numberedNode {key : String} {i : Nat}
    (h : (vertices.map Vertex.key)[i]? = some key) :
    ∃ n ∈ numberedNodes vertices, n.id = (i : Int) := by
  obtain ⟨hi, -⟩ := List.getElem?_eq_some_iff.1 h
  rw [List.length_map] at hi
  exact ⟨_, List.mem_mapIdx.2 ⟨i, hi, rfl⟩, rfl⟩

/-- Numbered vertices and links make a graph. -/
theorem exists_assemble_gathered (hne : d.vertices ≠ [])
    (hlinks : d.edges.mapM (place d.vertices) = .ok links) :
    ∃ g, (gathered d.vertices (canonical links)).assemble = .ok g := by
  apply Graph.Builder.exists_assemble
  · rw [nodes_gathered]
    simpa [numberedNodes] using hne
  · rfl
  · rw [nodes_gathered, relations_gathered]
    intro r hr
    obtain ⟨e, -, hplace⟩ :=
      (mem_map_link_iff hlinks).1 (List.mem_map_of_mem hr)
    obtain ⟨source, target, hsource, htarget, hsides⟩ :=
      (draws_of_place hplace).sides
    rcases hsides with ⟨hs, ht⟩ | ⟨hs, ht⟩
    · rw [hs, ht]
      exact ⟨exists_numberedNode hsource, exists_numberedNode htarget⟩
    · rw [hs, ht]
      exact ⟨exists_numberedNode htarget, exists_numberedNode hsource⟩
  · rw [nodes_gathered]
    intro n hn
    obtain ⟨i, hi, rfl⟩ := List.mem_mapIdx.1 hn
    rfl

/-- A complete drawing is numbered, and only connectedness is left to decide,
since no reference in it is broken. -/
theorem exists_graph_eq (hne : d.vertices ≠ []) (h : d.Complete) :
    ∃ g, d.Numbers g ∧ d.graph = if g.isConnected then .ok g
      else .error (.disconnected g.first.id g.unreached g.nodes.size) := by
  obtain ⟨links, hlinks⟩ := exists_mapM_eq_ok_iff.2 fun e he =>
    exists_place_iff.2 (h.ends e he)
  obtain ⟨g, hg⟩ := exists_assemble_gathered hne hlinks
  obtain ⟨hnodes, hrelations⟩ := Graph.Builder.eq_of_assemble hg
  have hnumbers : d.Numbers g := by
    apply numbers_of_tables hlinks
    · rw [hrelations, relations_gathered]
    · rw [hnodes, hrelations]
      rfl
  refine ⟨g, hnumbers, ?_⟩
  have hfresh : repeatedKey? d.vertices = none :=
    repeatedKey?_eq_none_iff.2 h.distinct
  have hfilled : d.vertices.isEmpty = false := by simpa using hne
  rw [graph, hfilled, hfresh, hlinks]
  show Graph.ofLists (numberedNodes d.vertices)
    (numberedRelations (canonical links)) .required = _
  rw [Graph.ofLists, foldl_numbered, Graph.Builder.build, hg]

/-- A drawing with keys that are repeated or unknown is incomplete. -/
theorem exists_gap_of_not_complete (hne : d.vertices ≠ []) (h : ¬d.Complete) :
    ∃ gap, d.graph = .error (.incomplete gap) := by
  have hfilled : d.vertices.isEmpty = false := by simpa using hne
  cases hrepeated : repeatedKey? d.vertices with
  | some key =>
    exact ⟨.repeatedVertex key, by rw [graph, hfilled, hrepeated]; rfl⟩
  | none =>
    cases hlinks : d.edges.mapM (place d.vertices) with
    | ok links =>
      have hplaced := exists_mapM_eq_ok_iff.1 ⟨links, hlinks⟩
      exact absurd ⟨repeatedKey?_eq_none_iff.1 hrepeated,
        fun e he => exists_place_iff.1 (hplaced e he)⟩ h
    | error fault =>
      obtain ⟨e, -, hplace⟩ := exists_of_mapM_eq_error hlinks
      obtain ⟨gap, rfl⟩ := exists_gap_of_place_eq_error hplace
      exact ⟨gap, by rw [graph, hfilled, hrepeated, hlinks]; rfl⟩

/-! ## Paths -/

theorem Joined.symm {a b : String} (h : d.Joined a b) : d.Joined b a := by
  obtain ⟨e, he, hends⟩ := h
  exact ⟨e, he, hends.symm⟩

/-- What edges join are vertices. -/
theorem Joined.mem_vertexKeys (h : d.Complete) {a b : String}
    (hjoined : d.Joined a b) :
    a ∈ d.vertexKeys := by
  obtain ⟨e, he, ⟨rfl, -⟩ | ⟨-, rfl⟩⟩ := hjoined
  · exact (h.ends e he).1
  · exact (h.ends e he).2

instance (d : Drawing) : Std.Symm d.Joined := ⟨fun _ _ => Joined.symm⟩

/-- Paths lead back. -/
theorem Path.symm {a b : String} (h : d.Path a b) : d.Path b a :=
  Relation.ReflTransGen.stdSymm.symm a b h

/-- Vertices are connected iff paths lead to all of them from the first, as
paths lead back and on. -/
theorem connected_iff {first : String} (hfirst : first ∈ d.vertexKeys) :
    d.Connected ↔ ∀ key ∈ d.vertexKeys, d.Path first key := by
  constructor
  · exact fun h key hkey => h first hfirst key hkey
  · exact fun h a ha b hb => (h a ha).symm.trans (h b hb)

/-- Positions are told apart by their keys. -/
theorem Complete.eq_iff (h : d.Complete) {i j : Nat} {a b : String}
    (ha : d.vertexKeys[i]? = some a) (hb : d.vertexKeys[j]? = some b) :
    (i : Int) = j ↔ a = b := by
  obtain ⟨hi, -⟩ := List.getElem?_eq_some_iff.1 ha
  rw [Int.ofNat_inj, ← List.getElem?_inj hi h.distinct, ha, hb,
    Option.some.injEq]

/-- A drawn link joins two positions iff the edge joins their keys. -/
theorem Draws.joins_iff (h : d.Complete) {e : Edge} {l : Link}
    (hdraws : d.Draws e l) {i j : Nat} {a b : String}
    (ha : d.vertexKeys[i]? = some a) (hb : d.vertexKeys[j]? = some b) :
    l.other i = some (j : Int) ↔
      (e.source = a ∧ e.target = b) ∨ (e.source = b ∧ e.target = a) := by
  obtain ⟨source, target, hsource, htarget, hsides⟩ := hdraws.sides
  rw [Link.other_eq_some_iff, ← h.eq_iff hsource ha, ← h.eq_iff htarget hb,
    ← h.eq_iff hsource hb, ← h.eq_iff htarget ha]
  rcases hsides with ⟨hs, ht⟩ | ⟨hs, ht⟩
  · rw [hs, ht]
  · rw [hs, ht]
    tauto

section

variable (h : d.Complete) (hnumbers : d.Numbers g)

include h hnumbers

/-- Numbers are adjacent iff an edge joins the keys at their positions. -/
theorem mem_adjacent_iff_joined {i j : Nat} {a b : String}
    (ha : d.vertexKeys[i]? = some a) (hb : d.vertexKeys[j]? = some b) :
    (j : Int) ∈ g.adjacent i ↔ d.Joined a b := by
  obtain ⟨hdrawn, hfrom⟩ := hnumbers.counterparts
  rw [Graph.mem_adjacent_iff]
  constructor
  · rintro ⟨r, hr, hother⟩
    obtain ⟨e, he, hdraws⟩ := hfrom r hr
    exact ⟨e, he, (hdraws.joins_iff h ha hb).1 hother⟩
  · rintro ⟨e, he, hjoins⟩
    obtain ⟨r, hr, hdraws⟩ := hdrawn e he
    exact ⟨r, hr, (hdraws.joins_iff h ha hb).2 hjoins⟩

/-- A number is reached iff a path leads from the first key to the key at its
position. -/
theorem mem_reached_iff_path {i : Nat} {first key : String}
    (hfirst : d.vertexKeys[0]? = some first)
    (hkey : d.vertexKeys[i]? = some key) :
    (i : Int) ∈ g.reached ↔ d.Path first key := by
  rw [Graph.mem_reached_iff, hnumbers.first_id]
  constructor
  · intro hreached
    have hposition : ∀ id,
        Relation.ReflTransGen (fun a b => b ∈ g.adjacent a) 0 id →
        ∃ (j : Nat) (key : String), d.vertexKeys[j]? = some key ∧ id = j ∧
        d.Path first key := by
      intro id hpath
      induction hpath with
      | refl => exact ⟨0, first, hfirst, rfl, .refl⟩
      | tail _ hb ih =>
        obtain ⟨j, key, hkey, rfl, hpath⟩ := ih
        obtain ⟨k, key', hkey', rfl⟩ :=
          hnumbers.mem_nodeIds_iff.1 (Graph.mem_nodeIds_of_mem_adjacent hb)
        have hjoined := (mem_adjacent_iff_joined h hnumbers hkey hkey').1 hb
        exact ⟨k, key', hkey', rfl, hpath.tail hjoined⟩
    obtain ⟨j, key', hkey', hij, hpath⟩ := hposition _ hreached
    rw [(h.eq_iff hkey hkey').1 hij]
    exact hpath
  · intro hpath
    induction hpath generalizing i with
    | refl =>
      rw [(h.eq_iff hkey hfirst).2 rfl]
      exact .refl
    | tail _ hjoined ih =>
      obtain ⟨j, hmid⟩ := List.mem_iff_getElem?.1 (hjoined.mem_vertexKeys h)
      exact (ih hmid).tail
        ((mem_adjacent_iff_joined h hnumbers hmid hkey).2 hjoined)

/-- The graph is connected iff the drawing is, since paths of keys are paths of
positions. -/
theorem isConnected_iff_connected {first : String}
    (hfirst : d.vertexKeys[0]? = some first) : g.isConnected = true ↔
    d.Connected := by
  have hreached :=
    fun {i : Nat} {key : String} (hkey : d.vertexKeys[i]? = some key) =>
      mem_reached_iff_path h hnumbers hfirst hkey
  rw [connected_iff (List.mem_iff_getElem?.2 ⟨0, hfirst⟩)]
  constructor
  · intro hconnected key hkey
    obtain ⟨i, hi⟩ := List.mem_iff_getElem?.1 hkey
    refine (hreached hi).1 (Graph.mem_reached_of_isConnected hconnected ?_)
    exact hnumbers.mem_nodeIds_iff.2 ⟨i, key, hi, rfl⟩
  · intro hpaths
    refine Graph.isConnected_of_forall fun id hid => ?_
    obtain ⟨i, key, hkey, rfl⟩ := hnumbers.mem_nodeIds_iff.1 hid
    exact (hreached hkey).2 (hpaths key (List.mem_iff_getElem?.2 ⟨i, hkey⟩))

/-- What the graph leaves unreached are the vertices apart from the first. -/
theorem unreached_eq_apart {first : String}
    (hfirst : d.vertexKeys[0]? = some first) : g.unreached = d.apart := by
  classical
  have hapart : d.apart = (d.vertices.zipIdx.map Prod.fst).countP
      fun v => decide (¬d.Path first v.key) := by
    rw [vertexKeys, List.getElem?_map, ← List.head?_eq_getElem?] at hfirst
    obtain ⟨w, hw, rfl⟩ := Option.map_eq_some_iff.1 hfirst
    simp only [List.zipIdx_map_fst, apart, hw, Option.mem_some_iff, forall_eq']
  rw [Graph.unreached_eq_countP, hnumbers.nodeIds_eq, hapart, List.countP_map,
    List.countP_map]
  refine List.countP_congr fun p hp => ?_
  obtain ⟨v, i⟩ := p
  have hkey : d.vertexKeys[i]? = some v.key := by
    rw [vertexKeys, List.getElem?_map, List.mem_zipIdx_iff_getElem?.1 hp]
    rfl
  have hreached := mem_reached_iff_path h hnumbers hfirst hkey
  simp [hreached]

end

/-! ## The outcome -/

/-- A complete drawing comes to its numbers if it is connected, and else to the
vertices that are apart. -/
theorem graph_of_complete (hne : d.vertices ≠ []) (h : d.Complete) :
    ∃ g, d.Numbers g ∧ (d.Connected → d.graph = .ok g) ∧
      (¬d.Connected →
        d.graph = .error (.disconnected 0 d.apart d.vertices.length)) := by
  obtain ⟨g, hnumbers, hgraph⟩ := exists_graph_eq hne h
  obtain ⟨first, hfirst⟩ : ∃ first, d.vertexKeys[0]? = some first := by
    obtain ⟨v, rest, hvertices⟩ := List.exists_cons_of_ne_nil hne
    exact ⟨v.key, by rw [vertexKeys, hvertices]; rfl⟩
  have hiff := isConnected_iff_connected h hnumbers hfirst
  refine ⟨g, hnumbers, fun hconnected => ?_, fun hapart => ?_⟩
  · rw [hgraph, if_pos (hiff.2 hconnected)]
  · rw [hgraph, if_neg fun hconnected => hapart (hiff.1 hconnected),
      hnumbers.first_id, unreached_eq_apart h hnumbers hfirst, hnumbers.size_eq]

/-- Every drawing comes to its graph or to the fault that it calls for, and no
drawing comes to two of them. -/
theorem outcome_of_drawing (d : Drawing) : d.Outcome := by
  by_cases hempty : d.vertices = []
  · have hgraph : d.graph = .error .empty := by
      rw [graph, hempty]
      rfl
    constructor <;> simp [hgraph, hempty]
  by_cases hcomplete : d.Complete
  · obtain ⟨g, hnumbers, hconnected, hapart⟩ :=
      graph_of_complete hempty hcomplete
    by_cases h : d.Connected
    · constructor <;> simp [hconnected h, hempty, hcomplete, h, hnumbers]
    · constructor <;> simp [hapart h, hempty, hcomplete, h, eq_comm]
  · obtain ⟨gap, hgraph⟩ := exists_gap_of_not_complete hempty hcomplete
    constructor <;> simp [hgraph, hempty, hcomplete]

end DrawnPattern.Drawing
