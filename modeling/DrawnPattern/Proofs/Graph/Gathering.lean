import DrawnPattern.Proofs.Graph.Building
import Mathlib.Data.List.Induction
set_option autoImplicit false

/-!
# Gathering nodes and relations

Nodes and relations are added to a builder in any order (`gather`).  It holds,
of those that share a number, the first (`nodes_gather`, `relations_gather`),
and notes the earliest addition of a number that was given already
(`repeated_gather_iff`); it notes nothing iff all numbers are distinct
(`repeated_gather_eq_none_iff`).
-/

namespace DrawnPattern.Graph

/-- What is added to a builder: one node or one relation.  Additions may come in
any order. -/
inductive Addition where
  | node (n : Node)
  | relation (r : Relation)

namespace Addition

def node? : Addition → Option Node
  | .node n => some n
  | .relation _ => none

def relation? : Addition → Option Relation
  | .node _ => none
  | .relation r => some r

/-- The fault of giving this number again. -/
def gap : Addition → Gap
  | .node n => .repeatedNode n.id
  | .relation r => .repeatedRelation r.id

end Addition

namespace Builder

variable {adds before after : List Addition} {a : Addition} {g : Gap}

def add (b : Builder) : Addition → Builder
  | .node n => b.addNode n
  | .relation r => b.addRelation r

/-- The builder after some additions. -/
def gather (adds : List Addition) : Builder := adds.foldl add {}

/-- The nodes among some additions, in order. -/
def addedNodes (adds : List Addition) : List Node :=
  adds.filterMap Addition.node?

/-- The relations among some additions, in order. -/
def addedRelations (adds : List Addition) : List Relation :=
  adds.filterMap Addition.relation?

@[simp] theorem addedNodes_append (adds others : List Addition) :
    addedNodes (adds ++ others) = addedNodes adds ++ addedNodes others :=
  List.filterMap_append

@[simp] theorem addedNodes_node (n : Node) (adds : List Addition) :
    addedNodes (.node n :: adds) = n :: addedNodes adds := rfl

@[simp] theorem addedNodes_relation (r : Relation) (adds : List Addition) :
    addedNodes (.relation r :: adds) = addedNodes adds := rfl

@[simp] theorem addedNodes_nil : addedNodes [] = [] := rfl

@[simp] theorem addedRelations_append (adds others : List Addition) :
    addedRelations (adds ++ others) = addedRelations adds ++
    addedRelations others :=
  List.filterMap_append

@[simp] theorem addedRelations_node (n : Node) (adds : List Addition) :
    addedRelations (.node n :: adds) = addedRelations adds := rfl

@[simp] theorem addedRelations_relation (r : Relation) (adds : List Addition) :
    addedRelations (.relation r :: adds) = r :: addedRelations adds := rfl

@[simp] theorem addedRelations_nil : addedRelations [] = [] := rfl

/-! ## What is held -/

theorem nodes_addNode (b : Builder)
    (n : Node) : (b.addNode n).nodes = b.nodes.putNew n := by
  rw [addNode, Keyed.putNew]
  split <;> rfl

theorem nodes_addRelation (b : Builder)
    (r : Relation) : (b.addRelation r).nodes = b.nodes := by
  rw [addRelation]
  split <;> rfl

theorem relations_addNode (b : Builder)
    (n : Node) : (b.addNode n).relations = b.relations := by
  rw [addNode]
  split <;> rfl

theorem relations_addRelation (b : Builder) (r : Relation) :
    (b.addRelation r).relations = b.relations.putNew r := by
  rw [addRelation, Keyed.putNew]
  split <;> rfl

theorem gather_append_singleton (adds : List Addition) (a : Addition) :
    gather (adds ++ [a]) = (gather adds).add a := by
  rw [gather, List.foldl_append]
  rfl

/-- Of the added nodes with one number the first is held. -/
theorem nodes_gather (adds : List Addition) :
    (gather adds).nodes = .ofListKeepFirst (addedNodes adds) := by
  induction adds using List.reverseRecOn with
  | nil => rfl
  | append_singleton adds a ih =>
    rw [gather_append_singleton]
    cases a with
    | node n =>
      rw [add, nodes_addNode, ih]
      simp [Keyed.ofListKeepFirst]
    | relation r =>
      rw [add, nodes_addRelation, ih]
      simp

/-- Of the added relations with one number the first is held. -/
theorem relations_gather (adds : List Addition) :
    (gather adds).relations = .ofListKeepFirst (addedRelations adds) := by
  induction adds using List.reverseRecOn with
  | nil => rfl
  | append_singleton adds a ih =>
    rw [gather_append_singleton]
    cases a with
    | node n =>
      rw [add, relations_addNode, ih]
      simp
    | relation r =>
      rw [add, relations_addRelation, ih]
      simp [Keyed.ofListKeepFirst]

/-! ## Numbers given again -/

/-- Whether the number of an addition was given to one of its kind before. -/
def Repeats (before : List Addition) : Addition → Prop
  | .node n => ∃ m ∈ addedNodes before, m.id = n.id
  | .relation r => ∃ s ∈ addedRelations before, s.id = r.id

/-- No two nodes have one number, and no two relations. -/
structure Distinct (adds : List Addition) : Prop where
  nodes : ((addedNodes adds).map Node.id).Nodup
  relations : ((addedRelations adds).map Relation.id).Nodup

/-- The gap of the earliest addition of a number that was given already, be it a
node or a relation. -/
def FirstRepeat (adds : List Addition) (g : Gap) : Prop :=
  ∃ before a after, adds = before ++ a :: after ∧ Distinct before ∧
    Repeats before a ∧ g = a.gap

/-- An item is new to a list of distinct keys iff they stay distinct with it. -/
theorem nodup_map_append_singleton {α β : Type} {f : α → β}
    {items : List α} {a : α} :
    ((items ++ [a]).map f).Nodup ↔ (items.map f).Nodup ∧ ¬∃ b ∈ items,
    f b = f a := by
  rw [List.map_append, List.map_singleton, List.nodup_append]
  constructor
  · rintro ⟨hnodup, -, hnew⟩
    refine ⟨hnodup, ?_⟩
    rintro ⟨b, hb, hkey⟩
    exact hnew (f b) (List.mem_map_of_mem hb) (f a) List.mem_cons_self hkey
  · rintro ⟨hnodup, hnew⟩
    refine ⟨hnodup, List.nodup_singleton _, ?_⟩
    rintro _ hb _ ha rfl
    obtain ⟨b, hb, hkey⟩ := List.mem_map.1 hb
    exact hnew ⟨b, hb, hkey.trans (List.mem_singleton.1 ha)⟩

theorem distinct_append_singleton : Distinct (adds ++ [a]) ↔ Distinct adds ∧
    ¬Repeats adds a := by
  cases a with
  | node n =>
    constructor
    · rintro ⟨hnodes, hrelations⟩
      obtain ⟨hnodes, hnew⟩ :=
        nodup_map_append_singleton.1 (addedNodes_append adds _ ▸ hnodes)
      exact ⟨⟨hnodes, by simpa using hrelations⟩, hnew⟩
    · rintro ⟨⟨hnodes, hrelations⟩, hnew⟩
      refine ⟨?_, by simpa using hrelations⟩
      rw [addedNodes_append]
      exact nodup_map_append_singleton.2 ⟨hnodes, hnew⟩
  | relation r =>
    constructor
    · rintro ⟨hnodes, hrelations⟩
      obtain ⟨hrelations, hnew⟩ :=
        nodup_map_append_singleton.1 (addedRelations_append adds _ ▸ hrelations)
      exact ⟨⟨by simpa using hnodes, hrelations⟩, hnew⟩
    · rintro ⟨⟨hnodes, hrelations⟩, hnew⟩
      refine ⟨by simpa using hnodes, ?_⟩
      rw [addedRelations_append]
      exact nodup_map_append_singleton.2 ⟨hrelations, hnew⟩

/-- A number that was given already is noted unless another was before it, since
only the first repeat is reported. -/
theorem repeated_add_of_repeats (h : Repeats adds a) :
    ((gather adds).add a).repeated =
    ((gather adds).repeated <|> some a.gap) := by
  cases a with
  | node n =>
    have htaken : (gather adds).nodes.contains n.id = true := by
      rw [nodes_gather, Keyed.contains_ofListKeepFirst]
      exact h
    rw [add, addNode, if_pos htaken]
    rfl
  | relation r =>
    have htaken : (gather adds).relations.contains r.id = true := by
      rw [relations_gather, Keyed.contains_ofListKeepFirst]
      exact h
    rw [add, addRelation, if_pos htaken]
    rfl

theorem repeated_add_of_not_repeats (h : ¬Repeats adds a) :
    ((gather adds).add a).repeated = (gather adds).repeated := by
  cases a with
  | node n =>
    have hfree : ¬(gather adds).nodes.contains n.id = true := by
      rw [nodes_gather, Keyed.contains_ofListKeepFirst]
      exact h
    rw [add, addNode, if_neg hfree]
  | relation r =>
    have hfree : ¬(gather adds).relations.contains r.id = true := by
      rw [relations_gather, Keyed.contains_ofListKeepFirst]
      exact h
    rw [add, addRelation, if_neg hfree]

/-- Nothing is noted iff all numbers are distinct, those of nodes and those of
relations each for themselves. -/
theorem repeated_gather_eq_none_iff (adds : List Addition) :
    (gather adds).repeated = none ↔ Distinct adds := by
  induction adds using List.reverseRecOn with
  | nil => exact ⟨fun _ => ⟨List.nodup_nil, List.nodup_nil⟩, fun _ => rfl⟩
  | append_singleton adds a ih =>
    rw [gather_append_singleton, distinct_append_singleton, ← ih]
    by_cases hrepeats : Repeats adds a
    · rw [repeated_add_of_repeats hrepeats]
      simp [hrepeats]
    · rw [repeated_add_of_not_repeats hrepeats]
      simp [hrepeats]

/-- What was noted first stays. -/
theorem repeated_foldl_add {b : Builder} (h : b.repeated = some g)
    (later : List Addition) :
    (later.foldl add b).repeated = some g := by
  induction later generalizing b with
  | nil => exact h
  | cons a rest ih =>
    refine ih ?_
    cases a with
    | node n =>
      rw [add, addNode]
      split
      · rw [h]
        rfl
      · exact h
    | relation r =>
      rw [add, addRelation]
      split
      · rw [h]
        rfl
      · exact h

/-- What is noted is the earliest addition of a number that was
given already. -/
theorem repeated_gather_iff (adds : List Addition) :
    (gather adds).repeated = some g ↔ FirstRepeat adds g := by
  constructor
  · induction adds using List.reverseRecOn with
    | nil => exact fun h => nomatch h
    | append_singleton adds a ih =>
      intro h
      rw [gather_append_singleton] at h
      cases hnoted : (gather adds).repeated with
      | some earlier =>
        have hkept : ((gather adds).add a).repeated = some earlier :=
          repeated_foldl_add hnoted [a]
        rw [hkept] at h
        cases h
        obtain ⟨before, a', after, rfl, hdistinct, hrepeats, rfl⟩ := ih hnoted
        exact ⟨before, a', after ++ [a], by simp, hdistinct, hrepeats, rfl⟩
      | none =>
        by_cases hrepeats : Repeats adds a
        · rw [repeated_add_of_repeats hrepeats, hnoted] at h
          exact ⟨adds, a, [], rfl, (repeated_gather_eq_none_iff adds).1 hnoted,
            hrepeats, (Option.some.inj h).symm⟩
        · rw [repeated_add_of_not_repeats hrepeats, hnoted] at h
          cases h
  · rintro ⟨before, a, after, rfl, hdistinct, hrepeats, rfl⟩
    rw [gather, List.foldl_append, List.foldl_cons]
    apply repeated_foldl_add
    show ((gather before).add a).repeated = _
    rw [repeated_add_of_repeats hrepeats,
      (repeated_gather_eq_none_iff before).2 hdistinct]
    rfl

end Builder

end DrawnPattern.Graph
