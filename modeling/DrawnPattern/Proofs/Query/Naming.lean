import DrawnPattern.Proofs.Query.Scope
set_option autoImplicit false

/-!
# Naming

The variables of a query, its columns and the names inside its projection share
one scope: two elements with one variable would be matched as one, and a
variable with the name of a column would be taken for it.  Under the options of
an accepted configuration nothing of the kind happens, whatever the numbers of
the elements are (`namesApart_of_ofText`).  Stems have no digits and neither
starts with the other, which keeps the variables apart; and each of them ends in
a digit, as no name of the projection does.
-/

namespace DrawnPattern

/-! ## Accepted configurations -/

/-- The options of a configuration that a text spells are accepted. -/
theorem Config.accepted_of_ofText {path text : String} {config : Config}
    (h : Config.ofText path text = .ok config) : config.compiler.Accepted := by
  unfold Config.ofText at h
  split at h
  · cases h
  · obtain ⟨options, hoptions, h⟩ := bind_eq_ok_iff.1 h
    cases h
    exact Query.accepted_of_options hoptions

namespace Query

/-! ## Names in one scope -/

/-- The names that a projection introduces: the columns of the row, the lists
that are collected for it, and what its reductions bind. -/
def projectionNames : List String :=
  [idsColumn, "nodeList", "relationList", nodesColumn, relationshipsColumn,
    "acc", "x"]

/-- Whether the variables of a shape are told apart from each other and from the
names that the projection introduces. -/
structure Shape.NamesApart (s : Shape) : Prop where
  nodup : s.names.Nodup
  /-- a variable stands in a query as it is -/
  plain : ∀ v ∈ s.names, identifier v = v
  fresh : ∀ v ∈ s.names, v ∉ projectionNames

/-! ## What a variable is -/

/-- What follows the stem ends in a digit. -/
theorem numberChars_eq_append (id : Int) :
    ∃ front last, numberChars id = front ++ [last] ∧ last.isDigit = true := by
  have hne : Nat.toDigits 10 id.natAbs ≠ [] := Nat.toDigits_ne_nil
  have hlast := Decimal.isDigit_of_mem_toDigits (List.getLast_mem hne)
  have hsplit := List.dropLast_append_getLast hne
  unfold numberChars
  split
  · refine ⟨'_' :: (Nat.toDigits 10 id.natAbs).dropLast, _, ?_, hlast⟩
    rw [List.cons_append, hsplit]
  · exact ⟨_, _, hsplit.symm, hlast⟩

/-- Whether the last character of a text is a digit. -/
def endsInDigit (text : String) : Bool := text.toList.getLast?.any Char.isDigit

theorem endsInDigit_variableName (stem : String) (id : Int) :
    endsInDigit (variableName stem id) = true := by
  obtain ⟨front, last, hchars, hlast⟩ := numberChars_eq_append id
  rw [endsInDigit, toList_variableName, hchars, ← List.append_assoc,
    List.getLast?_concat]
  exact hlast

/-- A word of letters, digits and underscores is written as it is, unless it
starts with a digit. -/
theorem identifier_variableName {key : StemKey} {stem : String}
    (h : Config.checkStem key stem = .ok ()) (id : Int) :
    identifier (variableName stem id) = variableName stem id := by
  have hword := continuesName_of_mem_variableName h id
  have hplain : isPlain (variableName stem id).toList = true := by
    have hfault := stemFault?_of_checkStem h
    have hstarts := startsName_of_checkStem h
    cases hstem : stem.toList with
    | nil =>
      rw [hstem] at hfault
      cases hfault
    | cons c rest =>
      rw [toList_variableName, hstem, List.cons_append] at hword ⊢
      rw [hstem] at hstarts
      refine Bool.and_eq_true_iff.2 ⟨hstarts c List.mem_cons_self,
        List.all_eq_true.2 ?_⟩
      exact fun d hd => hword d (List.mem_cons_of_mem _ hd)
  rw [identifier, nameChars, if_pos hplain, String.ofList_toList]

namespace Options.Accepted

variable {o : Options}

theorem identifier_nodeVariable (h : o.Accepted) (id : NodeId) :
    identifier (o.nodeVariable id) = o.nodeVariable id :=
  identifier_variableName h.node id

theorem identifier_relationVariable (h : o.Accepted) (id : RelationId) :
    identifier (o.relationVariable id) = o.relationVariable id :=
  identifier_variableName h.relation id

end Options.Accepted

/-! ## The variables of a query -/

variable {c : Compiler} {g : Graph}

theorem endsInDigit_of_mem_names {v : String}
    (hv : v ∈ (c.compile g).shape.names) :
    endsInDigit v = true := by
  rcases mem_names_shape.1 hv with ⟨id, -, rfl⟩ | ⟨id, -, rfl⟩
  · exact endsInDigit_variableName c.options.nodeStem id
  · exact endsInDigit_variableName c.options.relationStem id

/-- No name that the projection introduces ends in a digit, as every
variable does. -/
theorem not_endsInDigit_projectionNames : ∀ v ∈ projectionNames,
    endsInDigit v = false := by
  decide +kernel

theorem names_shape (c : Compiler) (g : Graph) : (c.compile g).shape.names =
    g.nodeIds.map c.options.nodeVariable ++
    g.relationIds.map c.options.relationVariable := by
  simp only [Shape.names, Compiler.compile, Shape.ofGraph, List.map_map]
  rfl

/-- The variables of a query are listed without repetitions. -/
theorem nodup_names (h : c.options.Accepted)
    (g : Graph) : (c.compile g).shape.names.Nodup := by
  rw [names_shape]
  refine List.nodup_append.2 ⟨(Keyed.keys_nodup g.nodes).map fun _ _ =>
    variableName_inj, (Keyed.keys_nodup g.relations).map fun _ _ =>
      variableName_inj, ?_⟩
  intro v hv w hw
  obtain ⟨node, -, rfl⟩ := List.mem_map.1 hv
  obtain ⟨relation, -, rfl⟩ := List.mem_map.1 hw
  exact h.nodeVariable_ne_relationVariable node relation

theorem Options.Accepted.namesApart (h : c.options.Accepted) (g : Graph) :
    (c.compile g).shape.NamesApart where
  nodup := nodup_names h g
  plain v hv := by
    rcases mem_names_shape.1 hv with ⟨id, -, rfl⟩ | ⟨id, -, rfl⟩
    · exact h.identifier_nodeVariable id
    · exact h.identifier_relationVariable id
  fresh v hv hmem := by
    have hdigit := endsInDigit_of_mem_names hv
    rw [not_endsInDigit_projectionNames v hmem] at hdigit
    exact Bool.false_ne_true hdigit

/-- Under an accepted configuration the variables of a query are distinct, need
no backticks, and are none of the names in its projection, whatever graph it
asks for and whatever catalog it is compiled with. -/
theorem namesApart_of_ofText {path text : String} {config : Config}
    (h : Config.ofText path text = .ok config) (catalog : Option Catalog)
    (g : Graph) :
    ((Compiler.mk config.compiler catalog).compile g).shape.NamesApart :=
  (Config.accepted_of_ofText h).namesApart g

/-- Stems that end in an underscore, and numbers that differ in their
signs only. -/
theorem namesApart_of_ofText_signs :
    ∃ config g, Config.ofText "config.toml"
        "[compiler]\nnode_prefix = \"n_\"\nrelation_prefix = \"_\"\n" =
        .ok config ∧
      Graph.ofLists [{ id := -9223372036854775808 }, { id := -5 }, { id := 5 }]
        [⟨-5, ⟨-5, 5, false, {}⟩⟩, ⟨5, ⟨-5, 5, false, {}⟩⟩] .unchecked = .ok g ∧
      ((Compiler.mk config.compiler none).compile g).shape.NamesApart := by
  obtain ⟨config, hconfig⟩ := exists_ok_of_isOk
    (x := Config.ofText "config.toml"
      "[compiler]\nnode_prefix = \"n_\"\nrelation_prefix = \"_\"\n")
    (by decide +kernel)
  obtain ⟨g, hg⟩ := Graph.exists_of_isOk
    (x := Graph.ofLists
      [{ id := -9223372036854775808 }, { id := -5 }, { id := 5 }]
      [⟨-5, ⟨-5, 5, false, {}⟩⟩, ⟨5, ⟨-5, 5, false, {}⟩⟩] .unchecked)
    (by decide +kernel)
  exact ⟨config, g, hconfig, hg, namesApart_of_ofText hconfig none g⟩

end Query

end DrawnPattern
