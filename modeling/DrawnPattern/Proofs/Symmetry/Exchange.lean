import DrawnPattern.Proofs.Agreement
import DrawnPattern.Proofs.Graph.Link
import DrawnPattern.Proofs.Symmetry.Classes
import Mathlib.Data.List.Perm.Basic
import Mathlib.Logic.Function.Basic
set_option autoImplicit false

/-!
# Exchanging nodes

A renaming keeps the links of a graph when it maps them onto themselves, each as
often as before.  Such renamings compose (`KeepsLinks.comp`), so being
interchangeable is transitive on distinct nodes (`interchangeable_trans`), and
each drags a renaming of the relations along (`KeepsLinks.exists_relations`).
-/

namespace DrawnPattern.Symmetry

open scoped List

variable {g : Graph} {a b c : NodeId}

/-! ## The exchange of two nodes -/

@[simp] theorem exchange_left (a b : NodeId) : exchange a b a = b := by
  simp [exchange]

@[simp] theorem exchange_right (a b : NodeId) : exchange a b b = a := by
  unfold exchange
  split <;> simp_all

theorem exchange_of_ne {node : NodeId} (ha : node ≠ a) (hb : node ≠ b) :
    exchange a b node = node := by
  simp [exchange, ha, hb]

@[simp] theorem exchange_exchange (a b node : NodeId) :
    exchange a b (exchange a b node) = node := by
  by_cases ha : node = a
  · subst ha
    simp
  · by_cases hb : node = b
    · subst hb
      simp
    · rw [exchange_of_ne ha hb, exchange_of_ne ha hb]

theorem exchange_comm (a b : NodeId) : exchange a b = exchange b a := by
  funext node
  by_cases ha : node = a
  · subst ha
    simp
  · by_cases hb : node = b
    · subst hb
      simp
    · rw [exchange_of_ne ha hb, exchange_of_ne hb ha]

theorem exchange_injective (a b : NodeId) : Function.Injective (exchange a b) :=
  Function.LeftInverse.injective (exchange_exchange a b)

/-- Exchanging two nodes by way of a third, from which it follows that to be
interchangeable is transitive. -/
theorem exchange_conj (hab : a ≠ b) (hac : a ≠ c) (hbc : b ≠ c) :
    exchange a c = exchange b a ∘ exchange b c ∘ exchange b a := by
  funext node
  simp only [Function.comp_apply]
  by_cases ha : node = a
  · subst ha
    rw [exchange_right, exchange_left, exchange_left,
      exchange_of_ne hbc.symm hac.symm]
  · by_cases hb : node = b
    · subst hb
      rw [exchange_of_ne hab.symm hbc, exchange_left, exchange_of_ne hab hac,
        exchange_right]
    · by_cases hc : node = c
      · subst hc
        rw [exchange_right, exchange_of_ne hb ha, exchange_right, exchange_left]
      · rw [exchange_of_ne ha hc, exchange_of_ne hb ha, exchange_of_ne hb hc,
          exchange_of_ne hb ha]

/-- An exchange within a list permutes it. -/
theorem map_exchange_perm {l : List NodeId} (hl : l.Nodup) (ha : a ∈ l)
    (hb : b ∈ l) :
    (l.map (exchange a b)).Perm l := by
  have hstays : ∀ node ∈ l, exchange a b node ∈ l := by
    intro node hnode
    unfold exchange
    split
    · exact hb
    · split
      · exact ha
      · exact hnode
  apply (List.perm_ext_iff_of_nodup (hl.map (exchange_injective a b)) hl).2
  intro node
  rw [List.mem_map]
  constructor
  · rintro ⟨other, hother, rfl⟩
    exact hstays other hother
  · intro hnode
    exact ⟨exchange a b node, hstays node hnode, exchange_exchange a b node⟩

/-! ## Renamings that keep the links -/

/-- The links of a graph in the order of their relations, parallel ones each
for itself. -/
def links (g : Graph) : List Link := g.relations.toList.map Relation.link

/-- Whether a renaming of the nodes maps the links onto themselves, each as
often as before. -/
def KeepsLinks (g : Graph) (f : NodeId → NodeId) : Prop :=
  ((links g).map Link.normal).Perm ((links g).map fun l => (l.rename f).normal)

/-- Renamings that keep the links compose. -/
theorem KeepsLinks.comp {f h : NodeId → NodeId} (hf : KeepsLinks g f)
    (hh : KeepsLinks g h) :
    KeepsLinks g (h ∘ f) := by
  have hboth : ((links g).map fun l => (l.rename h).normal).Perm
      ((links g).map fun l => (l.rename (h ∘ f)).normal) := by
    have hmap := hf.map fun l => (l.rename h).normal
    simpa only [List.map_map, Function.comp_def, Link.normal_rename_normal,
      Link.rename_rename]
      using hmap
  exact hh.trans hboth

/-- A link at neither of two nodes stays when they are exchanged. -/
theorem rename_exchange_of_not_touches {l : Link} (ha : l.touches a = false)
    (hb : l.touches b = false) : l.rename (exchange a b) = l := by
  simp only [Link.touches, Bool.or_eq_false_iff, beq_eq_false_iff_ne] at ha hb
  exact Link.rename_eq_self (exchange_of_ne ha.1 hb.1)
    (exchange_of_ne ha.2 hb.2)

/-- It is enough to look at the links at the two nodes, since all others stay as
they are. -/
theorem exchangeKeepsLinks_iff : exchangeKeepsLinks g a b = true ↔
    KeepsLinks g (exchange a b) := by
  let renamed : Link → Link := fun l => (l.rename (exchange a b)).normal
  let touched : Link → Bool := fun l => l.touches a || l.touches b
  let others := (links g).filter fun l => !touched l
  have hsplit : ((links g).filter touched ++ others).Perm (links g) :=
    List.filter_append_perm touched (links g)
  have hothers : others.map renamed = others.map Link.normal := by
    apply List.map_congr_left
    intro l hl
    have huntouched : touched l = false := by
      simpa using (List.mem_filter.1 hl).2
    simp only [touched, Bool.or_eq_false_iff] at huntouched
    exact congrArg Link.normal
      (rename_exchange_of_not_touches huntouched.1 huntouched.2)
  have hbefore := hsplit.map Link.normal
  have hafter := hsplit.map renamed
  rw [List.map_append] at hbefore hafter
  rw [hothers] at hafter
  rw [exchangeKeepsLinks, List.isPerm_iff, KeepsLinks]
  constructor
  · intro h
    exact hbefore.symm.trans ((h.append_right _).trans hafter)
  · intro h
    exact (List.perm_append_right_iff (others.map Link.normal)).1
      (hbefore.trans (h.trans hafter.symm))

/-! ## Interchangeable nodes -/

theorem interchangeable_iff {m n : Node} :
    interchangeable g m n = true ↔
      m.traits.same n.traits = true ∧ KeepsLinks g (exchange m.id n.id) := by
  rw [interchangeable, Bool.and_eq_true, exchangeKeepsLinks_iff]

theorem interchangeable_symm {m n : Node} (h : interchangeable g m n = true) :
    interchangeable g n m = true := by
  rw [interchangeable_iff] at h ⊢
  rw [exchange_comm]
  exact ⟨Traits.same_symm h.1, h.2⟩

theorem interchangeable_trans {m n k : Node}
    (hmn : interchangeable g m n = true) (hnk : interchangeable g n k = true)
    (hne : m.id ≠ k.id) : interchangeable g m k = true := by
  rw [interchangeable_iff] at hmn hnk ⊢
  refine ⟨Traits.same_trans hmn.1 hnk.1, ?_⟩
  by_cases hmn' : m.id = n.id
  · rw [hmn']
    exact hnk.2
  · by_cases hnk' : n.id = k.id
    · rw [← hnk']
      exact hmn.2
    · -- exchange the outer two by way of the middle one
      have hmn2 := hmn.2
      rw [exchange_comm] at hmn2
      rw [exchange_conj hmn' hne hnk']
      exact (hmn2.comp hnk.2).comp hmn2

/-! ## Relations dragged along -/

/-- Items with distinct keys that are paired with values give a function of
the keys. -/
theorem exists_of_forall₂ {α β κ : Type} [DecidableEq κ] [Nonempty β]
    {key : α → κ} {R : α → β → Prop} {items : List α} {values : List β}
    (h : List.Forall₂ R items values) (hnodup : (items.map key).Nodup) :
    ∃ f : κ → β, (∀ a ∈ items, R a (f (key a))) ∧
    items.map (fun a => f (key a)) = values := by
  induction h with
  | nil => exact ⟨fun _ => Classical.ofNonempty, by simp, rfl⟩
  | @cons a v items values hR _ ih =>
    obtain ⟨hnew, hrest⟩ := List.nodup_cons.1 hnodup
    obtain ⟨f, hf, hvalues⟩ := ih hrest
    have hold : ∀ b ∈ items,
        Function.update f (key a) v (key b) = f (key b) := by
      intro b hb
      refine Function.update_of_ne (fun hkey => hnew ?_) v f
      rw [← hkey]
      exact List.mem_map_of_mem hb
    refine ⟨Function.update f (key a) v, fun b hb => ?_, ?_⟩
    · rcases List.mem_cons.1 hb with rfl | hb
      · rw [Function.update_self]
        exact hR
      · rw [hold b hb]
        exact hf b hb
    · rw [List.map_cons, Function.update_self,
        List.map_congr_left hold, hvalues]

/-- A renaming of the nodes that keeps the links comes with images of the
relations: all relations in some order, each joining the renamed ends of the one
whose image it is. -/
theorem KeepsLinks.exists_images {f : NodeId → NodeId} (h : KeepsLinks g f) :
    ∃ image : RelationId → Relation,
      (g.relations.toList.map fun r => image r.id).Perm g.relations.toList ∧
      ∀ r ∈ g.relations.toList,
      (image r.id).link.normal = (r.link.rename f).normal := by
  have hperm : ((links g).map fun l => (l.rename f).normal).Perm
      (g.relations.toList.map fun r => r.link.normal) := by
    simpa only [KeepsLinks, links, List.map_map, Function.comp_def]
      using List.Perm.symm h
  -- the images, listed in the order of the relations they are the images of
  obtain ⟨images, himages, hshuffle⟩ :
      (Relation.Comp (· = List.map (fun r : Relation => r.link.normal) ·)
        (· ~ ·)) ((links g).map fun l => (l.rename f).normal)
        g.relations.toList := by
    rw [List.eq_map_comp_perm]
    exact hperm
  have hpaired : List.Forall₂ (fun r s : Relation =>
      (r.link.rename f).normal = s.link.normal)
      g.relations.toList images := by
    rw [links, List.map_map] at himages
    rw [← List.forall₂_eq_eq_eq, List.forall₂_map_left_iff,
      List.forall₂_map_right_iff] at himages
    exact himages
  obtain ⟨image, himage, hlisted⟩ :=
    exists_of_forall₂ hpaired (Keyed.keys_nodup g.relations)
  refine ⟨image, ?_, fun r hr => (himage r hr).symm⟩
  rw [hlisted]
  exact hshuffle

/-- So it comes with a renaming of the relations. -/
theorem KeepsLinks.exists_relations {f : NodeId → NodeId} (h : KeepsLinks g f) :
    ∃ σ : RelationId → RelationId, (g.relationIds.map σ).Perm g.relationIds ∧
      ∀ r ∈ g.relations.toList, ∃ s ∈ g.relations.toList,
        s.id = σ r.id ∧ s.link.normal = (r.link.rename f).normal := by
  obtain ⟨image, hshuffle, himage⟩ := h.exists_images
  refine ⟨fun id => (image id).id, ?_, fun r hr => ?_⟩
  · have hids := hshuffle.map Relation.id
    rw [List.map_map] at hids
    rw [Graph.relationIds, Keyed.keys, List.map_map]
    exact hids
  · exact ⟨image r.id, hshuffle.subset (List.mem_map_of_mem hr),
      rfl, himage r hr⟩

/-- Images of all relations in some order, each joining the renamed ends, show
that a renaming keeps the links. -/
theorem keepsLinks_of_images {f : NodeId → NodeId} {image : Relation → Relation}
    (hperm : (g.relations.toList.map image).Perm g.relations.toList)
    (himage : ∀ r ∈ g.relations.toList,
      (image r).link.normal = (r.link.rename f).normal) :
    KeepsLinks g f := by
  have hlinks := hperm.map fun r => r.link.normal
  rw [List.map_map] at hlinks
  have hrenamed : g.relations.toList.map ((fun r => r.link.normal) ∘ image) =
      g.relations.toList.map fun r => (r.link.rename f).normal :=
    List.map_congr_left himage
  rw [hrenamed] at hlinks
  rw [KeepsLinks, links, List.map_map, List.map_map]
  exact hlinks.symm

end DrawnPattern.Symmetry
