import DrawnPattern.Proofs.Graph.Numbering
import DrawnPattern.Proofs.Graph.Redrawing
import DrawnPattern.Proofs.Symmetry.Exactness
import Mathlib.Data.List.Chain
set_option autoImplicit false

/-!
# Signatures

The signature of a relation is what it is compared by: its ends under a
renaming, the lower one first if there is no direction, its direction and its
traits.  Signatures compare as the renamed links do (`Signature.order_of`), and
the symmetries of a graph are decided by them (`DecidedBySignatures`).

The relations of a drawn graph are numbered by the place of their links among
the links of all edges.  So signatures ascend with the numbers, a class of
parallel relations is a run of consecutive numbers, and two signatures tie iff
the edges do that the relations are drawn for (`Drawing.ordersAgree`).
-/

namespace DrawnPattern

namespace Symmetry

/-- What relations are compared by: their ends, read from the lower one if there
is no direction, and their traits. -/
structure Signature where
  source : NodeId
  target : NodeId
  directed : Bool
  label : Option String
  properties : Properties

namespace Signature

/-- The signature of a relation whose ends are renamed. -/
def of (r : Relation) (f : NodeId → NodeId) : Signature :=
  let source := f r.link.source
  let target := f r.link.target
  let exchanged := !r.link.directed && decide (target < source)
  { source := if exchanged then target else source
    target := if exchanged then source else target
    directed := r.link.directed
    label := r.link.traits.label
    properties := r.link.traits.properties }

/-- By the ends, undirected before directed, no label before any label, then by
properties. -/
def order (s t : Signature) : Ordering :=
  ((((compare s.source t.source).then (compare s.target t.target)).then
    (compare s.directed t.directed)).then (compare s.label t.label)).then
      (Properties.order s.properties t.properties)

/-- What a link is compared by as it is read. -/
def ofLink (l : Link) : Signature :=
  ⟨l.source, l.target, l.directed, l.traits.label, l.traits.properties⟩

theorem order_ofLink (l m : Link) :
    (ofLink l).order (ofLink m) = l.order m := by
  simp only [order, Ordering.then_assoc]
  rfl

/-- The signature is that of the renamed link, read from the lower end. -/
theorem of_eq_ofLink (r : Relation) (f : NodeId → NodeId) :
    of r f = ofLink (r.link.rename f).normal := by
  unfold of ofLink Link.normal Link.rename
  grind

theorem order_of (q r : Relation) (f h : NodeId → NodeId) :
    (of q f).order (of r h) = (q.link.rename f).normal.order
    (r.link.rename h).normal := by
  rw [of_eq_ofLink, of_eq_ofLink, order_ofLink]

/-- Lists of signatures, each sorted, whether they tie place by place. -/
def tieInOrder (signatures others : List Signature) : Bool :=
  let sorted := fun l : List Signature => l.mergeSort fun s t =>
    (s.order t).isLE
  ((sorted signatures).zip (sorted others)).all fun pair =>
    pair.1.order pair.2 == .eq

theorem tieInOrder_map_ofLink (links others : List Link) :
    tieInOrder (links.map ofLink) (others.map ofLink) =
    Symmetry.tieInOrder links others := by
  have hsorted : ∀ l : List Link,
      (l.map ofLink).mergeSort (fun s t => (s.order t).isLE) =
      (l.mergeSort fun a b => (a.order b).isLE).map ofLink := fun l =>
    (List.map_mergeSort fun a _ b _ => by rw [order_ofLink]).symm
  simp only [tieInOrder, Symmetry.tieInOrder, hsorted, List.zip_map,
    List.all_map, Function.comp_def, Prod.map_fst, Prod.map_snd, order_ofLink]

end Signature

/-- Whether the symmetries of a graph are decided by signatures: relations are
parallel iff their signatures tie, and an exchange of two nodes keeps the links
iff the signatures at the two, sorted, tie before and after it. -/
structure DecidedBySignatures (g : Graph) : Prop where
  parallel_iff_tie : ∀ q r : Relation,
    parallel q r = true ↔ (Signature.of q id).order (Signature.of r id) = .eq
  exchangeKeepsLinks_eq : ∀ a b : NodeId, exchangeKeepsLinks g a b =
    let around := g.relations.toList.filter fun r =>
      r.link.touches a || r.link.touches b
    Signature.tieInOrder (around.map fun r => Signature.of r id)
      (around.map fun r => Signature.of r (exchange a b))

theorem decidedBySignatures (g : Graph) : DecidedBySignatures g where
  parallel_iff_tie q r := by
    rw [parallel_iff, Signature.order_of, Link.rename_id, Link.rename_id,
      Std.LawfulEqCmp.compare_eq_iff_eq]
  exchangeKeepsLinks_eq a b := by
    have hlinks : ∀ f : NodeId → NodeId, ((g.relations.toList.filter fun r =>
        r.link.touches a || r.link.touches b).map fun r => Signature.of r f) =
          ((linksAt g a b).map fun l => (l.rename f).normal).map
          Signature.ofLink := by
      intro f
      rw [linksAt, List.filter_map, List.map_map, List.map_map]
      exact List.map_congr_left fun r _ => Signature.of_eq_ofLink r f
    simp only [hlinks, Signature.tieInOrder_map_ofLink]
    exact exchangeKeepsLinks_eq_sorted g a b

/-! ## Runs -/

/-- An ascending list that leaves out nothing between its members lists
consecutive numbers. -/
theorem isChain_succ_of_ascending {l : List Int}
    (hascending : l.Pairwise (· < ·))
    (hbetween : ∀ a ∈ l, ∀ b ∈ l, ∀ c, a < c → c < b → c ∈ l) :
    l.IsChain fun a b => b = a + 1 := by
  induction l with
  | nil => exact .nil
  | cons a rest ih =>
    obtain ⟨hfirst, hrest⟩ := List.pairwise_cons.1 hascending
    have hchain := ih hrest fun x hx y hy c hxc hcy => by
      have hmem :=
        hbetween x (List.mem_cons_of_mem _ hx) y
          (List.mem_cons_of_mem _ hy) c hxc hcy
      exact (List.mem_cons.1 hmem).resolve_left ((hfirst x hx).trans hxc).ne'
    cases rest with
    | nil => exact .singleton a
    | cons b others =>
      refine List.isChain_cons_cons.2 ⟨?_, hchain⟩
      have hab := hfirst b List.mem_cons_self
      by_contra hgap
      have hnext : a + 1 ∈ a :: b :: others :=
        hbetween a List.mem_cons_self b (by simp) (a + 1) (by omega) (by omega)
      -- the successor would have to come after `b`
      have hlater : a + 1 ∈ others := by
        rcases List.mem_cons.1 hnext with heq | hnext
        · omega
        · exact (List.mem_cons.1 hnext).resolve_left fun heq => hgap heq.symm
      have := (List.pairwise_cons.1 hrest).1 (a + 1) hlater
      omega

end Symmetry

namespace Drawing

open Symmetry

variable {d : Drawing} {g : Graph} {members : List RelationId}
  {a b c : RelationId}

/-! ## Relations in canonical order -/

/-- Relations with higher numbers have links that are not below, since the
numbers were given in this order. -/
theorem Numbers.isLE_of_id_le (h : d.Numbers g) {q r : Relation}
    (hq : q ∈ g.relations.toList) (hr : r ∈ g.relations.toList)
    (hle : q.id ≤ r.id) : (q.link.order r.link).isLE = true := by
  rcases hle.lt_or_eq with hlt | heq
  · exact Keyed.rel_of_key_lt h.ascending hq hr (compare_lt_iff_lt.2 hlt)
  · rw [Keyed.eq_of_key_eq hq hr heq]
    exact Std.ReflCmp.isLE_rfl

/-- The numbers of relations are those below the number of edges. -/
theorem Numbers.mem_relationIds_iff (h : d.Numbers g) :
    a ∈ g.relationIds ↔ 0 ≤ a ∧ a < d.edges.length := by
  rw [h.relationIds_eq, List.mem_map]
  constructor
  · rintro ⟨i, hi, rfl⟩
    exact ⟨Int.natCast_nonneg i, Int.ofNat_lt.2 (List.mem_range.1 hi)⟩
  · rintro ⟨hnonneg, hlt⟩
    exact ⟨a.toNat, List.mem_range.2 ((Int.toNat_lt hnonneg).2 hlt),
      Int.toNat_of_nonneg hnonneg⟩

/-- What is numbered between parallel relations is parallel to them, as it
cannot be below the one or above the other. -/
theorem mem_relationClass_of_between (h : d.graph = .ok g)
    (hmembers : members ∈ g.symmetry.relationClasses) (ha : a ∈ members)
    (hb : b ∈ members) (hac : a < c) (hcb : c < b) : c ∈ members := by
  have hnumbers := numbers_of_graph h
  obtain ⟨p, hp, r, hr, rfl, rfl, hlinks⟩ :=
    exists_parallel hmembers ha hb (hac.trans hcb).ne
  rw [normal_link h p hp, normal_link h r hr] at hlinks
  obtain ⟨q, hq, rfl⟩ : ∃ q ∈ g.relations.toList, q.id = c := by
    have hlow :=
      (hnumbers.mem_relationIds_iff.1 (Graph.mem_relationIds.2 ⟨p, hp, rfl⟩)).1
    have hhigh :=
      (hnumbers.mem_relationIds_iff.1 (Graph.mem_relationIds.2 ⟨r, hr, rfl⟩)).2
    exact Graph.mem_relationIds.1 (hnumbers.mem_relationIds_iff.2
      ⟨hlow.trans hac.le, hcb.trans hhigh⟩)
  have hpq := hnumbers.isLE_of_id_le hp hq hac.le
  have hqp := hnumbers.isLE_of_id_le hq hr hcb.le
  rw [← hlinks] at hqp
  have hsame : p.link = q.link :=
    Std.LawfulEqCmp.eq_of_compare (Std.OrientedCmp.isLE_antisymm hpq hqp)
  obtain ⟨others, hothers, hpo, hqo⟩ :=
    (relations_together_iff hp hq hac.ne).2 (congrArg Link.normal hsame)
  rw [eq_of_mem_of_mem (nodup_flatten_map_classes parallel g.relations) hmembers
    hothers ha hpo]
  exact hqo

/-! ## Edges in canonical order -/

section

variable {vertices : List Vertex} {e f : Edge} {l m : Link}

/-- How two edges compare by the links placed for them; a fault if one of them
has no place. -/
def placedOrder (vertices : List Vertex) (e f : Edge) :
    Except GraphFault Ordering := do
  let l ← place vertices e
  let m ← place vertices f
  pure (l.order m)

theorem placedOrder_eq (he : place vertices e = .ok l)
    (hf : place vertices f = .ok m) :
    placedOrder vertices e f = .ok (l.order m) := by
  rw [placedOrder, he, hf]
  rfl

/-- Positions are those of one key each. -/
theorem key_eq_of_indexOf? {key key' : String} {index : NodeId}
    (h : indexOf? vertices key = some index)
    (h' : indexOf? vertices key' = some index) :
    key = key' := by
  obtain ⟨i, rfl, hkey⟩ := getElem?_of_indexOf? h
  obtain ⟨j, hij, hkey'⟩ := getElem?_of_indexOf? h'
  rw [Int.ofNat_inj.1 hij] at hkey
  exact Option.some.inj (hkey.symm.trans hkey')

/-- Two edges are placed alike iff one is the other, perhaps drawn from the
other end. -/
theorem eq_iff_redrawn (he : place vertices e = .ok l)
    (hf : place vertices f = .ok m) :
    l = m ↔ e.Redrawn id f := by
  obtain ⟨s, t, hs, ht, rfl⟩ := place_eq_ok_iff.1 he
  obtain ⟨s', t', hs', ht', rfl⟩ := place_eq_ok_iff.1 hf
  obtain ⟨source, target, directed, traits⟩ := e
  obtain ⟨source', target', directed', traits'⟩ := f
  rw [Link.normal_eq_iff]
  constructor
  · rintro ⟨rfl, rfl, ⟨rfl, rfl⟩ | ⟨hundirected, rfl, rfl⟩⟩
    · obtain rfl := key_eq_of_indexOf? hs hs'
      obtain rfl := key_eq_of_indexOf? ht ht'
      exact .inl rfl
    · obtain rfl := key_eq_of_indexOf? hs ht'
      obtain rfl := key_eq_of_indexOf? ht hs'
      exact .inr ⟨hundirected, rfl⟩
  · rintro (hsame | ⟨hundirected, hreversed⟩)
    · obtain ⟨rfl, rfl, rfl, rfl⟩ := Edge.mk.inj hsame
      exact ⟨rfl, rfl, .inl ⟨Option.some.inj (hs.symm.trans hs'),
        Option.some.inj (ht.symm.trans ht')⟩⟩
    · obtain ⟨rfl, rfl, rfl, rfl⟩ := Edge.mk.inj hreversed
      exact ⟨rfl, rfl, .inr ⟨hundirected, Option.some.inj (hs.symm.trans ht'),
        Option.some.inj (ht.symm.trans hs')⟩⟩

end

/-! ## Agreement -/

/-- Whether two relations, drawn for two edges, compare by their signatures as
the edges do. -/
structure ComparedAlike (d : Drawing) (e f : Edge) (q r : Relation) : Prop where
  order_eq : placedOrder d.vertices e f =
    .ok ((Signature.of q id).order (Signature.of r id))
  tie_iff : (Signature.of q id).order (Signature.of r id) = .eq ↔
    placedOrder d.vertices e f = .ok .eq
  /-- ties are between edges that are the same, or the same from the
  other end -/
  tie_iff_redrawn : (Signature.of q id).order (Signature.of r id) = .eq ↔
    e.Redrawn id f

/-- Whether the signatures of a graph agree with the canonical order of the
drawn edges. -/
structure OrdersAgree (d : Drawing) (g : Graph) : Prop where
  /-- each edge is placed once, as a relation -/
  placed : ∃ edges, edges.Perm d.edges ∧
    List.Forall₂ (fun e r => place d.vertices e = .ok r.link) edges
    g.relations.toList
  ascending : ∀ q ∈ g.relations.toList, ∀ r ∈ g.relations.toList, q.id ≤ r.id →
    ((Signature.of q id).order (Signature.of r id)).isLE = true
  compared : ∀ q ∈ g.relations.toList, ∀ r ∈ g.relations.toList, ∀ e f : Edge,
    place d.vertices e = .ok q.link → place d.vertices f = .ok r.link →
    ComparedAlike d e f q r
  decided : DecidedBySignatures g
  /-- each class is a run of consecutive numbers -/
  runs : ∀ members ∈ g.symmetry.relationClasses,
    members.IsChain fun a b => b = a + 1

theorem comparedAlike {e f : Edge} {q r : Relation}
    (he : place d.vertices e = .ok q.link)
    (hf : place d.vertices f = .ok r.link) : ComparedAlike d e f q r := by
  have hsignatures : (Signature.of q id).order (Signature.of r id) =
      q.link.order r.link := by
    rw [Signature.order_of, Link.rename_id, Link.rename_id, normal_of_place he,
      normal_of_place hf]
  have hplaced := placedOrder_eq he hf
  refine ⟨by rw [hplaced, hsignatures], ?_, ?_⟩
  · rw [hsignatures, hplaced, Except.ok.injEq]
  · rw [hsignatures, Std.LawfulEqCmp.compare_eq_iff_eq, eq_iff_redrawn he hf]

/-- Signatures ascend with the numbers of the relations and tie iff the drawn
edges do, so that classes are runs of neighbouring numbers. -/
theorem ordersAgree (h : d.graph = .ok g) : OrdersAgree d g where
  placed := by
    obtain ⟨links, hlinks, hrelations, -⟩ := graph_eq_ok h
    exact exists_placed hlinks hrelations
  ascending q hq r hr hle := by
    rw [Signature.order_of, Link.rename_id, Link.rename_id, normal_link h q hq,
      normal_link h r hr]
    exact (numbers_of_graph h).isLE_of_id_le hq hr hle
  compared _ _ _ _ _ _ := comparedAlike
  decided := decidedBySignatures g
  runs _ hmembers := by
    refine isChain_succ_of_ascending
      (ascending_of_mem_relationClasses hmembers) ?_
    exact fun _ ha _ hb _ hac hcb =>
      mem_relationClass_of_between h hmembers ha hb hac hcb

/-- Undirected edges with a NaN from either end and labelled loops,
each twice. -/
theorem ordersAgree_nans_and_loops :
    let nan : Traits :=
      ⟨none, (∅ : Properties).insert "w" (.float ⟨0x7ff8000000000001⟩)⟩
    let d : Drawing :=
      ⟨[⟨"a", {}⟩, ⟨"b", {}⟩], [⟨"b", "a", false, {}⟩, ⟨"b", "a", false, nan⟩,
        ⟨"a", "b", false, nan⟩, ⟨"a", "b", true, {}⟩,
        ⟨"b", "b", true, ⟨some "", ∅⟩⟩, ⟨"b", "b", true, ⟨some "", ∅⟩⟩]⟩
    ∃ g, d.graph = .ok g ∧ g.symmetry.relationClasses = [[1, 2], [4, 5]] ∧
        OrdersAgree d g := by
  intro nan d
  let links : List Link :=
    [⟨0, 1, false, {}⟩, ⟨0, 1, false, nan⟩, ⟨0, 1, false, nan⟩,
      ⟨0, 1, true, {}⟩, ⟨1, 1, true, ⟨some "", ∅⟩⟩, ⟨1, 1, true, ⟨some "", ∅⟩⟩]
  have hsorted : canonical links = links :=
    List.mergeSort_of_pairwise (by decide +kernel)
  have hgraph : d.graph =
      Graph.ofLists (numberedNodes d.vertices) (numberedRelations links)
      .required := by
    show Graph.ofLists (numberedNodes d.vertices)
      (numberedRelations (canonical links)) .required = _
    rw [hsorted]
  obtain ⟨g, hg⟩ :=
    Graph.exists_of_isOk (x := d.graph) (by rw [hgraph]; decide +kernel)
  have hclasses : (d.graph.toOption.map fun g => g.symmetry.relationClasses) =
      some [[1, 2], [4, 5]] := by
    rw [hgraph]
    decide +kernel
  rw [hg] at hclasses
  exact ⟨g, hg, Option.some.inj hclasses, ordersAgree hg⟩

end Drawing

end DrawnPattern
