import DrawnPattern.Graph.Basic
set_option autoImplicit false

/-!
# Patterns

A query draws its graph as chains: walks that pass from node to node along
relations.  The first chain starts at the first node; each further one starts at
the lowest node already drawn that has a relation left.  A walk always takes the
lowest relation left at its node and ends where none is left.  Every relation is
drawn once, and a node is declared where it is first met and only mentioned
afterwards.
-/

namespace DrawnPattern.Query

/-- A node in a chain: declared at its first place, mentioned at the others.
Only a declaration asks for traits. -/
inductive NodeRef where
  | declaration (node : NodeId)
  | mention (node : NodeId)
  deriving DecidableEq, Repr

/-- How a relation is drawn between the node before it and the node after it;
one without a direction has no head. -/
inductive Arrow where
  | plain
  | forward
  | backward
  deriving DecidableEq, Repr

/-- A relation and the node it leads to. -/
structure Step where
  relation : Relation
  arrow : Arrow
  node : NodeRef
  deriving DecidableEq

/-- A walk along relations, from the node where it starts.  A chain without
steps draws a single node. -/
structure Chain where
  start : NodeRef
  steps : List Step
  deriving DecidableEq

/-- How a link is drawn when it is walked from one of its ends. -/
def arrowFrom (l : Link) (node : NodeId) : Arrow :=
  if !l.directed then .plain
  else if l.source = node then .forward
  else .backward

/-- The lowest relation left at a node, if one of its relations was not
drawn yet. -/
def nextRelation? (g : Graph) (unused : List RelationId) (node : NodeId) :
    Option Relation :=
  (g.incident node).find? fun r => unused.contains r.id

theorem length_erase_lt {g : Graph} {unused : List RelationId} {node : NodeId}
    {r : Relation} (h : nextRelation? g unused node = some r) :
    (unused.erase r.id).length < unused.length := by
  have hmem : r.id ∈ unused := by simpa using List.find?_some h
  have hpos : 0 < unused.length := List.length_pos_of_mem hmem
  rw [List.length_erase_of_mem hmem]
  omega

/-- Refers to a node and notes that it is declared from now on. -/
def refer (declared : OrderedSet NodeId) (node : NodeId) :
    NodeRef × OrderedSet NodeId :=
  if declared.contains node then (.mention node, declared)
  else (.declaration node, declared.put node)

/-- A walk with the relations it leaves and the nodes declared after it. -/
structure Walk where
  steps : List Step
  unused : List RelationId
  declared : OrderedSet NodeId

/-- Walks on from a node until no relation is left there.  Each step takes a
relation away, so the walk ends. -/
def walk (g : Graph) (node : NodeId) (unused : List RelationId)
    (declared : OrderedSet NodeId) : Walk :=
  match _ : nextRelation? g unused node with
  | none => ⟨[], unused, declared⟩
  | some r =>
    let next := (r.link.other node).getD node
    let (ref, declared) := refer declared next
    let rest := walk g next (unused.erase r.id) declared
    { rest with steps := ⟨r, arrowFrom r.link node, ref⟩ :: rest.steps }
termination_by unused.length
decreasing_by exact length_erase_lt (by assumption)

theorem walk_unused_length_le (g : Graph) (node : NodeId)
    (unused : List RelationId) (declared : OrderedSet NodeId) :
    (walk g node unused declared).unused.length ≤ unused.length := by
  fun_induction walk g node unused declared with
  | case1 => exact Nat.le_refl _
  | case2 node unused declared r h next ref declared' hrefer rest ih =>
    exact Nat.le_of_lt (Nat.lt_of_le_of_lt ih (length_erase_lt h))

theorem walk_unused_length_lt {g : Graph} {node : NodeId}
    {unused : List RelationId} (declared : OrderedSet NodeId)
    (h : (nextRelation? g unused node).isSome = true) :
    (walk g node unused declared).unused.length < unused.length := by
  obtain ⟨r, hr⟩ := Option.isSome_iff_exists.1 h
  unfold walk
  split
  · simp_all
  · rename_i r' hr'
    exact Nat.lt_of_le_of_lt (walk_unused_length_le ..) (length_erase_lt hr')

/-- The chains that start at nodes declared before them, each at the lowest one
that has a relation left. -/
def chainsFrom (g : Graph) (unused : List RelationId)
    (declared : OrderedSet NodeId) : List Chain :=
  match _ : declared.toList.find? fun node =>
      (nextRelation? g unused node).isSome with
  | none => []
  | some node =>
    let walked := walk g node unused declared
    ⟨.mention node, walked.steps⟩ :: chainsFrom g walked.unused walked.declared
termination_by unused.length
decreasing_by
  rename_i found
  have left := List.find?_some found
  exact walk_unused_length_lt declared left

/-- The chains that draw a graph.  Only what a path joins to the first node is
drawn by them. -/
def chains (g : Graph) : List Chain :=
  let (start, declared) := refer ∅ g.first.id
  let walked := walk g g.first.id g.relationIds declared
  ⟨start, walked.steps⟩ :: chainsFrom g walked.unused walked.declared

end DrawnPattern.Query
