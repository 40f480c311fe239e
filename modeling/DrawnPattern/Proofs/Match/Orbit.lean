import DrawnPattern.Proofs.Graph.Building
import DrawnPattern.Proofs.Graph.Incidence
import DrawnPattern.Proofs.Match.Breaking
set_option autoImplicit false

/-!
# One match of an orbit

Two assignments are of one orbit when nodes changing places within their
classes, and relations following them, turn one into the other
(`Assignment.OneOrbit`).  What a query that breaks symmetries accepts of an
orbit binds the same nodes (`WithinClasses.place_eq`), since ids that ascend in
every class before and after the change are the same ids.  The relations are the
same as well unless interchangeable nodes share an image: their ids tie, so no
predicate tells which relations follow which of them.  Accepted matches of an
orbit therefore agree iff the relations at such nodes have nothing to change
places with (`Matches.accepted_once_iff`).
-/

namespace DrawnPattern

open Symmetry

variable {g : Graph} {s : Store} {fit : Fit} {e : Assignment}
  {f : NodeId → NodeId} {σ : RelationId → RelationId}

/-! ## Orbits -/

/-- Whether nodes change places within their classes and relations follow them:
each relation goes to one with the same direction and the same traits that joins
the changed ends. -/
structure WithinClasses (g : Graph) (f : NodeId → NodeId)
    (σ : RelationId → RelationId) : Prop where
  nodes_perm : (g.nodeIds.map f).Perm g.nodeIds
  moves : ∀ id ∈ g.nodeIds,
    f id = id ∨ ∃ members ∈ g.symmetry.nodeClasses,
    id ∈ members ∧ f id ∈ members
  relations_perm : (g.relationIds.map σ).Perm g.relationIds
  link : ∀ r ∈ g.relations.toList, ∃ t ∈ g.relations.toList,
    t.id = σ r.id ∧ t.link.normal = (r.link.rename f).normal

namespace Assignment

/-- Whether two assignments bind the same elements to the nodes and relations
of a graph. -/
structure Agrees (e e' : Assignment) (g : Graph) : Prop where
  node : ∀ id ∈ g.nodeIds, e.node id = e'.node id
  relation : ∀ id ∈ g.relationIds, e.relation id = e'.relation id

/-- Whether one assignment is another one after changes within the classes,
which is what a symmetry of the graph makes of it. -/
def OneOrbit (e e' : Assignment) (g : Graph) : Prop :=
  ∃ f σ, WithinClasses g f σ ∧ (e.relabel f σ).Agrees e' g

/-- Whether the bound ids are in the order that is asked for where symmetries
are broken. -/
def Accepted (e : Assignment) (g : Graph) : Prop :=
  ∀ p ∈ Query.predicates .breaking g, p.Ordered e

/-- Whether the relations at nodes of a class that share an image have nothing
to change places with: they have no direction and join just those nodes. -/
def TiesIdle (e : Assignment) (g : Graph) : Prop :=
  ∀ members ∈ g.symmetry.nodeClasses, ∀ a ∈ members, ∀ b ∈ members, a ≠ b →
    e.place a = e.place b →
    ∀ r ∈ g.relations.toList, r.link.touches a = true →
      r.link.directed = false ∧ r.link.touches b = true

/-- The ids ascend in every class, not only between neighbours, since to ascend
is transitive. -/
theorem accepted_iff_pairwise : e.Accepted g ↔
    (∀ members ∈ g.symmetry.nodeClasses,
      members.Pairwise fun a b => e.place a ≤ e.place b) ∧
      ∀ members ∈ g.symmetry.relationClasses,
        members.Pairwise fun a b => e.relationId a < e.relationId b := by
  have hnodes (members : List NodeId) :
      _ ↔ ∀ pair ∈ Query.neighbouring members, _ :=
    Query.pairwise_iff_neighbouring (R := fun a b => e.place a ≤ e.place b)
      fun _ _ _ => le_trans
  have hrelations (members : List RelationId) :
      _ ↔ ∀ pair ∈ Query.neighbouring members, _ :=
    Query.pairwise_iff_neighbouring (R := fun a b =>
      e.relationId a < e.relationId b)
      fun _ _ _ => lt_trans
  simp only [Accepted, forall_predicates_breaking_ordered_iff,
    hnodes, hrelations]

/-- What is accepted depends on the nodes and relations of the graph only. -/
theorem Agrees.accepted {e' : Assignment} (h : e.Agrees e' g)
    (he' : e'.Accepted g) :
    e.Accepted g := by
  rw [accepted_iff_pairwise] at he' ⊢
  refine ⟨fun members hmembers => ?_, fun members hmembers => ?_⟩
  · have hin := mem_nodeIds_of_mem_nodeClasses hmembers
    refine (he'.1 members hmembers).imp_of_mem fun {a b} ha hb hab => ?_
    rw [place, place, h.node a (hin a ha), h.node b (hin b hb)]
    exact hab
  · have hin := mem_relationIds_of_mem_relationClasses hmembers
    refine (he'.2 members hmembers).imp_of_mem fun {a b} ha hb hab => ?_
    rw [relationId, relationId, h.relation a (hin a ha),
      h.relation b (hin b hb)]
    exact hab

end Assignment

/-! ## Changes that keep the order -/

/-- Changes within classes leave values alone that ascend in every class before
and after. -/
theorem value_eq_of_moves {ids : List Int} {classes : List (List Int)}
    {f value : Int → Int} (hperm : (ids.map f).Perm ids) (hids : ids.Nodup)
    (hclasses : classes.flatten.Nodup)
    (hin : ∀ members ∈ classes, ∀ a ∈ members, a ∈ ids)
    (hmoves : ∀ id ∈ ids, f id = id ∨ ∃ members ∈ classes, id ∈ members ∧
      f id ∈ members)
    (hbefore : ∀ members ∈ classes, members.Pairwise fun a b =>
      value a ≤ value b)
    (hafter : ∀ members ∈ classes,
      members.Pairwise fun a b => value (f a) ≤ value (f b)) :
    ∀ id ∈ ids, value (f id) = value id := by
  intro id hid
  rcases hmoves id hid with hstays | ⟨members, hmembers, hmem, -⟩
  · rw [hstays]
  · have hinj := List.inj_on_of_nodup_map (hperm.nodup_iff.2 hids)
    -- a class changes within itself
    have hwithin : ∀ a ∈ members, f a ∈ members := by
      intro a ha
      rcases hmoves a (hin members hmembers a ha) with
        hstays | ⟨others, hothers, ha', hfa⟩
      · rw [hstays]
        exact ha
      · rw [eq_of_mem_of_mem hclasses hmembers hothers ha ha']
        exact hfa
    have hnodup : (members.map f).Nodup :=
      ((List.nodup_flatten.1 hclasses).1 members hmembers).map_on
        fun a ha b hb =>
          hinj (hin members hmembers a ha) (hin members hmembers b hb)
    have hchanged : (members.map f).Perm members := by
      refine (List.subperm_of_subset hnodup fun b hb => ?_).perm_of_length_le
        (by simp)
      obtain ⟨a, ha, rfl⟩ := List.mem_map.1 hb
      exact hwithin a ha
    -- the values are listed in ascending order both times
    have hvalues : members.map (fun a => value (f a)) = members.map value := by
      refine List.Perm.eq_of_pairwise (fun a b _ _ => le_antisymm)
        (List.pairwise_map.2 (hafter members hmembers))
        (List.pairwise_map.2 (hbefore members hmembers)) ?_
      have hmap := hchanged.map value
      rw [List.map_map] at hmap
      exact hmap
    exact List.map_inj_left.1 hvalues id hmem

/-- Accepted assignments of an orbit bind the same nodes: ids that ascend in a
class are determined by which they are. -/
theorem WithinClasses.place_eq (h : WithinClasses g f σ) (he : e.Accepted g)
    (he' : (e.relabel f σ).Accepted g) :
    ∀ id ∈ g.nodeIds, e.place (f id) = e.place id :=
  value_eq_of_moves h.nodes_perm (Keyed.keys_nodup g.nodes)
    (nodup_flatten_map_classes _ _)
    (fun _ => mem_nodeIds_of_mem_nodeClasses) h.moves
    (Assignment.accepted_iff_pairwise.1 he).1
    (Assignment.accepted_iff_pairwise.1 he').1

/-- Where all links keep their form, relations change within their classes. -/
theorem WithinClasses.relation_moves (h : WithinClasses g f σ)
    (hlinks : ∀ r ∈ g.relations.toList,
      (r.link.rename f).normal = r.link.normal) :
    ∀ id ∈ g.relationIds,
      σ id = id ∨ ∃ members ∈ g.symmetry.relationClasses, id ∈ members ∧
      σ id ∈ members := by
  intro id hid
  obtain ⟨r, hr, rfl⟩ := Graph.mem_relationIds.1 hid
  obtain ⟨t, ht, htid, hnormal⟩ := h.link r hr
  rw [hlinks r hr] at hnormal
  by_cases hsame : σ r.id = r.id
  · exact .inl hsame
  · rw [← htid] at hsame ⊢
    exact .inr ((relations_together_iff hr ht (Ne.symm hsame)).2 hnormal.symm)

/-- Where all links keep their form, accepted assignments of an orbit bind the
same relations. -/
theorem WithinClasses.relationId_eq (h : WithinClasses g f σ)
    (hlinks : ∀ r ∈ g.relations.toList,
      (r.link.rename f).normal = r.link.normal)
    (he : e.Accepted g) (he' : (e.relabel f σ).Accepted g) :
    ∀ id ∈ g.relationIds, e.relationId (σ id) = e.relationId id :=
  value_eq_of_moves h.relations_perm (Keyed.keys_nodup g.relations)
    (nodup_flatten_map_classes _ _)
    (fun _ => mem_relationIds_of_mem_relationClasses) (h.relation_moves hlinks)
    (fun members hmembers =>
      ((Assignment.accepted_iff_pairwise.1 he).2 members hmembers).imp le_of_lt)
    (fun members hmembers =>
      ((Assignment.accepted_iff_pairwise.1 he').2 members hmembers).imp
      le_of_lt)

/-! ## Shared images -/

/-- Where ties are idle, changes that keep the images keep every link: an end
moves only to a node with the same image, so the link joins the two without
direction, and both move. -/
theorem WithinClasses.normal_rename_eq (h : WithinClasses g f σ)
    (hties : e.TiesIdle g)
    (hplace : ∀ id ∈ g.nodeIds, e.place (f id) = e.place id) :
    ∀ r ∈ g.relations.toList, (r.link.rename f).normal = r.link.normal := by
  intro r hr
  have hinj :=
    List.inj_on_of_nodup_map
      (h.nodes_perm.nodup_iff.2 (Keyed.keys_nodup g.nodes))
  have hmem : ∀ a, r.link.touches a = true → a ∈ g.nodeIds := fun _ =>
    Graph.mem_nodeIds_of_touches hr
  -- an end that moves goes to the other end
  have hmoved : ∀ a, r.link.touches a = true → f a ≠ a →
      r.link.directed = false ∧ r.link.touches (f a) = true := by
    intro a ha hne
    rcases h.moves a (hmem a ha) with hstays | ⟨members, hmembers, ham, hfam⟩
    · exact absurd hstays hne
    · exact hties members hmembers a ham (f a) hfam (Ne.symm hne)
        (hplace a (hmem a ha)).symm r hr ha
  have hsource : r.link.touches r.link.source = true :=
    Link.touches_iff.2 (.inl rfl)
  have htarget : r.link.touches r.link.target = true :=
    Link.touches_iff.2 (.inr rfl)
  have hsame : f r.link.source = f r.link.target →
      r.link.source = r.link.target :=
    hinj (hmem _ hsource) (hmem _ htarget)
  by_cases hs : f r.link.source = r.link.source
  · by_cases ht : f r.link.target = r.link.target
    · rw [Link.rename_eq_self hs ht]
    · rcases Link.touches_iff.1 (hmoved _ htarget ht).2 with hto | hto
      · exact absurd (hsame (hs.trans hto) ▸ hs) ht
      · exact absurd hto.symm ht
  · obtain ⟨hundirected, hto⟩ := hmoved _ hsource hs
    have hst : f r.link.source = r.link.target :=
      ((Link.touches_iff.1 hto).resolve_left fun heq => hs heq.symm).symm
    have ht : f r.link.target ≠ r.link.target := fun heq =>
      hs (hst.trans (hsame (hst.trans heq.symm)).symm)
    have hts : f r.link.target = r.link.source :=
      ((Link.touches_iff.1 (hmoved _ htarget ht).2).resolve_right
        fun heq => ht heq.symm).symm
    exact Link.normal_eq_iff.2 ⟨rfl, rfl, .inr ⟨hundirected, hst, hts⟩⟩

/-- A link at one of two nodes keeps its form in their exchange only if it joins
the two without direction. -/
theorem joins_of_normal_rename_exchange_eq {l : Link} {a b : NodeId}
    (hne : a ≠ b) (ha : l.touches a = true)
    (h : (l.rename (exchange a b)).normal = l.normal) :
    l.directed = false ∧ l.touches b = true := by
  obtain ⟨-, -, hends⟩ := Link.normal_eq_iff.1 h
  simp only [Link.SameEnds, Link.rename] at hends
  rw [Link.touches_iff] at ha ⊢
  rcases ha with rfl | rfl
  · rw [exchange_left] at hends
    rcases hends with ⟨hstays, -⟩ | ⟨hundirected, hgoes, -⟩
    · exact absurd hstays.symm hne
    · exact ⟨hundirected, .inr hgoes.symm⟩
  · rw [exchange_left] at hends
    rcases hends with ⟨-, hstays⟩ | ⟨hundirected, -, hgoes⟩
    · exact absurd hstays.symm hne
    · exact ⟨hundirected, .inl hgoes.symm⟩

/-- Changes within the classes are relabellings, since members of a class can
stand for each other. -/
theorem WithinClasses.relabels (h : WithinClasses g f σ) : Relabels g f σ where
  nodes_perm := h.nodes_perm
  relations_perm := h.relations_perm
  traits n hn := by
    rcases h.moves n.id (Keyed.key_mem_keys hn) with
      hstays | ⟨members, hmembers, hnm, hfm⟩
    · exact ⟨n, hn, hstays.symm, .inl rfl⟩
    · by_cases hsame : f n.id = n.id
      · exact ⟨n, hn, hsame.symm, .inl rfl⟩
      · obtain ⟨m, hm, n', hn', hmid, hnid, hinter⟩ :=
          exists_interchangeable hmembers hfm hnm hsame
        rw [Keyed.eq_of_key_eq hn' hn hnid] at hinter
        exact ⟨m, hm, hmid, .inr (interchangeable_iff.1 hinter).1⟩
  link := h.link

/-- Exchanging two members of a class is a change within the classes. -/
theorem Relabels.withinClasses_exchange {members : List NodeId} {a b : NodeId}
    (h : Relabels g (exchange a b) σ)
    (hmembers : members ∈ g.symmetry.nodeClasses) (ha : a ∈ members)
    (hb : b ∈ members) : WithinClasses g (exchange a b) σ where
  nodes_perm := h.nodes_perm
  relations_perm := h.relations_perm
  link := h.link
  moves id _ := by
    by_cases hida : id = a
    · rw [hida, exchange_left]
      exact .inr ⟨members, hmembers, ha, hb⟩
    · by_cases hidb : id = b
      · rw [hidb, exchange_right]
        exact .inr ⟨members, hmembers, hb, ha⟩
      · exact .inl (exchange_of_ne hida hidb)

namespace Assignment

/-- Accepted embeddings of an orbit bind the same nodes; with idle ties,
they agree. -/
theorem Embeds.agrees_of_withinClasses (h : e.Embeds g s) (he : e.Accepted g)
    (hw : WithinClasses g f σ) (he' : (e.relabel f σ).Accepted g) :
    (∀ id ∈ g.nodeIds, e.node (f id) = e.node id) ∧
      (e.TiesIdle g → ∀ id ∈ g.relationIds,
        e.relation (σ id) = e.relation id) := by
  have hplace := hw.place_eq he he'
  have hembeds := h.relabel hw.relabels
  refine ⟨fun id hid => ?_, fun hties id hid => ?_⟩
  · obtain ⟨n, hn, rfl⟩ := Graph.mem_nodeIds.1 hid
    exact Keyed.eq_of_key_eq (hembeds.node_mem n hn) (h.node_mem n hn)
      (hplace n.id hid)
  · obtain ⟨r, hr, rfl⟩ := Graph.mem_relationIds.1 hid
    have hrelation := hw.relationId_eq (hw.normal_rename_eq hties hplace) he he'
    exact Keyed.eq_of_key_eq (hembeds.relation_mem r hr) (h.relation_mem r hr)
      (hrelation r.id hid)

/-- Exchanging nodes that share an image leaves all images alone. -/
theorem place_exchange {a b : NodeId} (htie : e.place a = e.place b)
    (id : NodeId) :
    e.place (exchange a b id) = e.place id := by
  unfold exchange
  split_ifs with hid hid'
  · rw [hid, htie]
  · rw [hid', htie]
  · rfl

/-- Where a tie is not idle, the orbit has another accepted assignment: the tied
nodes change places, and then the relations are put in order. -/
theorem Embeds.exists_other (h : e.Embeds g s) (he : e.Accepted g)
    (hties : ¬e.TiesIdle g) :
    ∃ f σ, WithinClasses g f σ ∧ (e.relabel f σ).Accepted g ∧
    ¬(e.relabel f σ).Agrees e g := by
  simp only [TiesIdle, not_forall] at hties
  obtain ⟨members, hmembers, a, ha, b, hb, hne, htie, r, hr, htouches, hbusy⟩ :=
    hties
  obtain ⟨m, hm, n, hn, rfl, rfl, hinter⟩ :=
    exists_interchangeable hmembers ha hb hne
  obtain ⟨σ, hre⟩ := exists_relabels_exchange hm hn hinter
  obtain ⟨τ, hτ, hordered⟩ :=
    exists_relabels_relations_ascending (h.relabel hre)
  have hboth : Relabels g (exchange m.id n.id) (σ ∘ τ) := hre.comp hτ
  refine ⟨_, _, hboth.withinClasses_exchange hmembers ha hb, ?_,
    fun hagrees => ?_⟩
  · rw [Accepted, forall_predicates_breaking_ordered_iff] at he ⊢
    refine ⟨fun others hothers pair hpair => ?_, hordered⟩
    have hascends := he.1 others hothers pair hpair
    rw [← place_exchange htie pair.1, ← place_exchange htie pair.2] at hascends
    exact hascends
  · -- a relation at the first node is bound as before, so it keeps its form
    obtain ⟨t, ht, htid, hnormal⟩ := hboth.link r hr
    have hrelation := hagrees.relation r.id (Keyed.key_mem_keys hr)
    have hid : t.id = r.id :=
      h.relation_inj t ht r hr (by rw [htid]; exact hrelation)
    rw [Keyed.eq_of_key_eq ht hr hid] at hnormal
    exact hbusy (joins_of_normal_rename_exchange_eq hne htouches hnormal.symm)

/-! ## A hub -/

open Node (attach)

/-- A node with two neighbours, which are interchangeable and may be bound to
one stored node. -/
structure Hub (g : Graph) : Prop where
  built : Graph.ofLists [{ id := 0 }, { id := 1 }, { id := 2 }]
    [⟨0, ⟨0, 2, false, {}⟩⟩, ⟨1, ⟨1, 2, false, {}⟩⟩] .required = .ok g
  nodes : g.nodes.toList =
    [attach { id := 0 } 0, attach { id := 1 } 1,
      attach (attach { id := 2 } 0) 1]
  relations : g.relations.toList = [⟨0, ⟨0, 2, false, {}⟩⟩,
    ⟨1, ⟨1, 2, false, {}⟩⟩]
  nodeClasses : g.symmetry.nodeClasses = [[0, 1]]
  relationClasses : g.symmetry.relationClasses = []

theorem exists_hub : ∃ g, Hub g := by
  let symmetric (g : Graph) : Bool :=
    g.symmetry.nodeClasses = [[0, 1]] ∧ g.symmetry.relationClasses = []
  obtain ⟨g, hg, hsymmetric⟩ := Graph.exists_of_any (x := Graph.ofLists
    [{ id := 0 }, { id := 1 }, { id := 2 }]
    [⟨0, ⟨0, 2, false, {}⟩⟩, ⟨1, ⟨1, 2, false, {}⟩⟩] .required) (P := symmetric)
    (by decide)
  obtain ⟨hnodes, hrelations⟩ := Graph.Builder.eq_of_build hg
  obtain ⟨hnodeClasses, hrelationClasses⟩ := of_decide_eq_true hsymmetric
  refine ⟨g, hg, ?_, ?_, hnodeClasses, hrelationClasses⟩
  · rw [hnodes]
    decide
  · rw [hrelations]
    decide

/-- Three stored nodes; two relationships lead from the first to the second, one
from the third to the second. -/
def hubStore : Store where
  nodes := ⟨[{ id := 1 }, { id := 2 }, { id := 3 }], by decide⟩
  relationships :=
    ⟨[⟨10, 1, 2, "KNOWS", ∅⟩, ⟨11, 1, 2, "KNOWS", ∅⟩, ⟨12, 3, 2, "KNOWS", ∅⟩],
      by decide⟩
  ends_stored := by decide

/-- The hub bound to the second node and its neighbours to the first and
the third. -/
def spread : Assignment where
  node id := if id = 0 then { id := 1 } else if id = 1 then { id := 3 }
    else { id := 2 }
  relation id :=
    if id = 0 then ⟨10, 1, 2, "KNOWS", ∅⟩ else ⟨12, 3, 2, "KNOWS", ∅⟩

/-- The hub bound to the second node and both neighbours to the first. -/
def folded : Assignment where
  node id := if id = 2 then { id := 2 } else { id := 1 }
  relation id :=
    if id = 0 then ⟨10, 1, 2, "KNOWS", ∅⟩ else ⟨11, 1, 2, "KNOWS", ∅⟩

/-- As `folded`, the relationships the other way round. -/
def refolded : Assignment where
  node id := if id = 2 then { id := 2 } else { id := 1 }
  relation id :=
    if id = 0 then ⟨11, 1, 2, "KNOWS", ∅⟩ else ⟨10, 1, 2, "KNOWS", ∅⟩

theorem Hub.matches (h : Hub g) : ∀ e ∈ [spread, folded, refolded],
    e.Matches .stored g hubStore := by
  have hplain : (∀ n ∈ g.nodes.toList, n.traits = {}) ∧
      ∀ r ∈ g.relations.toList, r.link.traits = {} := by
    rw [h.nodes, h.relations]
    decide
  intro e he
  refine ⟨⟨?_, ?_, ?_, ?_⟩, fun n hn => ?_, fun r hr => ?_⟩
  · rw [h.nodes]
    revert e
    decide
  · rw [h.relations]
    revert e
    decide
  · rw [h.relations]
    revert e
    decide
  · rw [h.relations]
    unfold Link.Spans
    revert e
    decide
  · rw [hplain.1 n hn]
    exact ⟨by simp, fun entry hentry => absurd hentry List.not_mem_nil⟩
  · rw [hplain.2 r hr]
    exact ⟨by simp, fun entry hentry => absurd hentry List.not_mem_nil⟩

/-! ## What is accepted of an orbit -/

/-- The accepted matches of an orbit bind the same nodes, and they are one match
iff the ties of that match are idle.  So an orbit may be reported more than
once, where relations at tied nodes can change places. -/
theorem Matches.accepted_once_iff (h : e.Matches fit g s) (he : e.Accepted g) :
    (∀ e' : Assignment, e'.Matches fit g s → e'.Accepted g → e.OneOrbit e' g →
      ∀ id ∈ g.nodeIds, e'.node id = e.node id) ∧
    ((∀ e' : Assignment, e'.Matches fit g s → e'.Accepted g → e.OneOrbit e' g →
      e'.Agrees e g) ↔
      e.TiesIdle g) := by
  have hnodes : ∀ e' : Assignment, e'.Matches fit g s → e'.Accepted g →
      e.OneOrbit e' g →
      ∀ id ∈ g.nodeIds, e'.node id = e.node id := by
    rintro e' - he' ⟨f, σ, hw, hagrees⟩ id hid
    rw [← hagrees.node id hid]
    exact (h.embeds.agrees_of_withinClasses he hw (hagrees.accepted he')).1
      id hid
  refine ⟨hnodes, fun honce => ?_, fun hties => ?_⟩
  · by_contra hties
    obtain ⟨f, σ, hw, he', hother⟩ := h.embeds.exists_other he hties
    exact hother (honce _ (h.relabel hw.relabels) he' ⟨f, σ, hw, fun _ _ => rfl,
      fun _ _ => rfl⟩)
  · intro e' hmatches he' horbit
    refine ⟨hnodes e' hmatches he' horbit, fun id hid => ?_⟩
    obtain ⟨f, σ, hw, hagrees⟩ := horbit
    rw [← hagrees.relation id hid]
    exact (h.embeds.agrees_of_withinClasses he hw (hagrees.accepted he')).2
      hties id hid

/-- Spread out, the hub has no ties. -/
theorem accepted_once_iff_spread : ∃ g, Hub g ∧
    spread.Matches .stored g hubStore ∧ spread.Accepted g ∧
    ∀ e' : Assignment, e'.Matches .stored g hubStore → e'.Accepted g →
    spread.OneOrbit e' g →
      e'.Agrees spread g := by
  obtain ⟨g, h⟩ := exists_hub
  have hmatches := h.matches spread (by simp)
  have haccepted : spread.Accepted g := by
    rw [accepted_iff_pairwise, h.nodeClasses, h.relationClasses]
    decide
  have hties : spread.TiesIdle g := by
    unfold TiesIdle
    rw [h.nodeClasses, h.relations]
    decide
  exact ⟨g, h, hmatches, haccepted,
    (hmatches.accepted_once_iff haccepted).2.2 hties⟩

/-- Folded onto one node, the neighbours of the hub tie: two different matches
of one orbit are accepted. -/
theorem folded_refolded_accepted : ∃ g, Hub g ∧
    (folded.Matches .stored g hubStore ∧ folded.Accepted g) ∧
    (refolded.Matches .stored g hubStore ∧ refolded.Accepted g) ∧
    folded.OneOrbit refolded g ∧ ¬folded.Agrees refolded g := by
  obtain ⟨g, h⟩ := exists_hub
  have haccepted : ∀ e ∈ [folded, refolded], e.Accepted g := by
    intro e he
    rw [accepted_iff_pairwise, h.nodeClasses, h.relationClasses]
    revert e
    decide
  have hnodeIds : g.nodeIds = [0, 1, 2] := by
    rw [Graph.nodeIds, Keyed.keys, h.nodes]
    rfl
  have hrelationIds : g.relationIds = [0, 1] := by
    rw [Graph.relationIds, Keyed.keys, h.relations]
    rfl
  have hwithin : WithinClasses g (exchange 0 1) (exchange 0 1) := by
    refine ⟨?_, ?_, ?_, ?_⟩
    · rw [hnodeIds]
      decide
    · rw [hnodeIds, h.nodeClasses]
      decide
    · rw [hrelationIds]
      decide
    · rw [h.relations]
      decide
  have horbit : folded.OneOrbit refolded g := by
    refine ⟨_, _, hwithin, ?_, ?_⟩
    · rw [hnodeIds]
      decide
    · rw [hrelationIds]
      decide
  refine ⟨g, h, ⟨h.matches folded (by simp), haccepted folded (by simp)⟩,
    ⟨h.matches refolded (by simp), haccepted refolded (by simp)⟩, horbit,
    fun hagrees => ?_⟩
  have hrelation := hagrees.relation 0
  rw [hrelationIds] at hrelation
  exact absurd (hrelation (by decide)) (by decide)

end Assignment

end DrawnPattern
