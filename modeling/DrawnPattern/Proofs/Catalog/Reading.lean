import DrawnPattern.Catalog.Retrieval
import DrawnPattern.Proofs.Catalog.Queries
import DrawnPattern.Proofs.Replay.Reading
import DrawnPattern.Proofs.Row.Reading
import Mathlib.Data.List.Induction
set_option autoImplicit false

/-!
# Reading catalogs

What each step of a retrieval succeeds with, told by the rows it reads: the
names a query lists (`readNames_eq_ok_iff`), a count (`readCount_eq_ok_iff`),
the rows of a property query (`propertyRow_eq_ok_iff`) and the whole sequence
(`retrieve_eq_ok_iff`).  Over all rows of a label, the first type of a property
is the one that stays (`firstTypes_foldl`).
-/

namespace DrawnPattern

namespace Catalog

variable {read : Reader} {query : String} {row : Row}

/-! ## Names and counts -/

/-- The name in a row. -/
def readName (row : Row) : Except DecodeFault String := do
  (← Row.field row labelColumn).asString labelColumn

theorem readName_eq_ok_iff {name : String} :
    readName row = .ok name ↔ Map.get? row labelColumn = some (.string name) :=
  Row.string_eq_ok_iff

theorem readNames_eq_bind (read : Reader) (query : String) :
    readNames read query = read query >>= fun rows =>
      (rows.mapM readName).mapError .decode >>= fun listed =>
        pure (Keyed.ofList listed : OrderedSet String).toList := rfl

/-- Names are read iff every row has one. -/
theorem readNames_eq_ok_iff {names : List String} :
    readNames read query = .ok names ↔ ∃ rows listed, read query = .ok rows ∧
      List.Forall₂ (fun row name => Map.get? row labelColumn =
        some (.string name)) rows listed ∧
      names = (Keyed.ofList listed : OrderedSet String).toList := by
  simp only [readNames_eq_bind, bind_eq_ok_iff, mapError_eq_ok_iff,
    mapM_eq_ok_iff, readName_eq_ok_iff]
  constructor
  · rintro ⟨rows, hrows, listed, hlisted, ⟨⟩⟩
    exact ⟨rows, listed, hrows, hlisted, rfl⟩
  · rintro ⟨rows, listed, hrows, hlisted, rfl⟩
    exact ⟨rows, hrows, listed, hlisted, rfl⟩

theorem readCount_eq_bind (read : Reader) (query : String) :
    readCount read query = read.single query >>= fun row =>
      (do (← Row.field row countColumn).asInt countColumn).mapError .decode >>=
        fun count =>
          if count < 0 then .error (.decode (.negativeCount countColumn))
          else .ok count.toNat := by
  unfold readCount
  refine congrArg (read.single query >>= ·) (funext fun row =>
    congrArg (_ >>= ·) (funext fun n => ?_))
  split <;> rfl

/-- A count is read iff there is one row, with a number that is not negative. -/
theorem readCount_eq_ok_iff {count : Nat} :
    readCount read query = .ok count ↔ ∃ row, read query = .ok [row] ∧
      Map.get? row countColumn = some (.int count) := by
  rw [readCount_eq_bind, bind_eq_ok_iff]
  constructor
  · rintro ⟨row, hrow, h⟩
    rw [Reader.single_eq_ok_iff] at hrow
    obtain ⟨n, hn, h⟩ := bind_eq_ok_iff.1 h
    rw [mapError_eq_ok_iff, Row.int_eq_ok_iff] at hn
    split at h
    · cases h
    · rename_i hpositive
      cases h
      exact ⟨row, hrow,
        by rw [hn, Int.toNat_of_nonneg (Int.not_lt.1 hpositive)]⟩
  · rintro ⟨row, hrow, hcount⟩
    refine ⟨row, Reader.single_eq_ok_iff.2 hrow, bind_eq_ok_iff.2
      ⟨count, mapError_eq_ok_iff.2 (Row.int_eq_ok_iff.2 hcount), ?_⟩⟩
    rw [if_neg (Int.not_lt.2 (Int.natCast_nonneg count)), Int.toNat_natCast]

/-- The counts of the names in a map are read iff each is the one in the map,
whatever other queries would yield. -/
theorem readCounts_eq_ok {query : String → String} {counts : Map String Nat}
    (h : ∀ entry ∈ counts.toList,
      readCount read (query entry.1) = .ok entry.2) :
    readCounts read query counts.keys = .ok counts := by
  have hpairs :
      counts.keys.mapM
        (fun name => do pure (name, ← readCount read (query name))) =
      .ok (counts.toList.map id) := by
    refine mapM_map_eq_ok fun entry hentry => ?_
    rw [h entry hentry]
    rfl
  rw [readCounts, hpairs, List.map_id]
  exact congrArg Except.ok (Keyed.ofList_toList counts)

/-! ## Property rows -/

/-- A property with its type, as a cell. -/
def typedPair (entry : String × String) : Cell :=
  .list [.string entry.1, .string entry.2]

/-- Only a name and a type are read as such. -/
theorem namedType_eq_ok_iff {cell : Cell} {entry : String × String} :
    namedType cell = .ok entry ↔ cell = typedPair entry := by
  obtain ⟨name, type⟩ := entry
  unfold namedType
  rw [bind_eq_ok_iff]
  constructor
  · rintro ⟨items, hitems, h⟩
    rw [Cell.asList_eq_ok_iff] at hitems
    subst hitems
    split at h
    · simp only [bind_eq_ok_iff, Cell.asString_eq_ok_iff] at h
      obtain ⟨_, rfl, _, rfl, ⟨⟩⟩ := h
      rfl
    · cases h
  · rintro rfl
    exact ⟨_, rfl, rfl⟩

theorem propertyRow_eq_bind (typeColumn : String) (row : Row) :
    propertyRow typeColumn row =
    (do (← Row.field row typeColumn).asString typeColumn) >>= fun name =>
      (do
        (← (← Row.field row propertiesColumn).asList propertiesColumn).mapM
          namedType) >>=
        fun pairs => pure (undecorate name, pairs) := by
  simp only [propertyRow, bind_assoc]

/-- A row is read iff it has a name and typed properties; the name is taken out
of its decoration. -/
theorem propertyRow_eq_ok_iff {typeColumn : String}
    {entry : String × List (String × String)} :
    propertyRow typeColumn row = .ok entry ↔ ∃ name,
      Map.get? row typeColumn = some (.string name) ∧
      entry.1 = undecorate name ∧
        Map.get? row propertiesColumn =
        some (.list (entry.2.map typedPair)) := by
  obtain ⟨label, pairs⟩ := entry
  have hpairs :
      (do
        (← (← Row.field row propertiesColumn).asList propertiesColumn).mapM
          namedType) = .ok pairs ↔
        Map.get? row propertiesColumn =
          some (.list (pairs.map typedPair)) := by
    rw [Row.list_eq_ok_iff]
    simp only [mapM_eq_ok_iff_eq_map fun _ _ => namedType_eq_ok_iff,
      exists_eq_right]
  rw [propertyRow_eq_bind, bind_eq_ok_iff]
  constructor
  · rintro ⟨name, hname, h⟩
    obtain ⟨_, hread, ⟨⟩⟩ := bind_eq_ok_iff.1 h
    exact ⟨name, Row.string_eq_ok_iff.1 hname, rfl, hpairs.1 hread⟩
  · rintro ⟨name, hname, rfl, hread⟩
    exact ⟨name, Row.string_eq_ok_iff.2 hname,
      bind_eq_ok_iff.2 ⟨pairs, hpairs.2 hread, rfl⟩⟩

theorem readProperties_eq_bind (read : Reader) (query typeColumn : String) :
    readProperties read query typeColumn = read query >>= fun rows =>
      (rows.mapM (propertyRow typeColumn)).mapError .decode >>= fun entries =>
        pure (entries.foldl addPropertyRow ∅) := rfl

theorem readProperties_eq_ok_iff {typeColumn : String}
    {catalog : Map String (Map String String)} :
    readProperties read query typeColumn = .ok catalog ↔
    ∃ rows entries, read query = .ok rows ∧
      List.Forall₂ (fun row entry => propertyRow typeColumn row = .ok entry)
        rows entries ∧
      catalog = entries.foldl addPropertyRow ∅ := by
  simp only [readProperties_eq_bind, bind_eq_ok_iff, mapError_eq_ok_iff,
    mapM_eq_ok_iff]
  constructor
  · rintro ⟨rows, hrows, entries, hentries, ⟨⟩⟩
    exact ⟨rows, entries, hrows, hentries, rfl⟩
  · rintro ⟨rows, entries, hrows, hentries, rfl⟩
    exact ⟨rows, hrows, entries, hentries, rfl⟩

/-! ## First types -/

/-- What some rows list for a label, in order.  A label may have several rows,
and a property may be listed more than once. -/
def listed (rows : List (String × List (String × String))) (label : String) :
    List (String × String) :=
  (rows.filter (·.1 == label)).flatMap Prod.snd

/-- Whether a catalog knows the labels of some rows, and for each property of a
label the type that is listed first. -/
structure FirstTypes (rows : List (String × List (String × String)))
    (catalog : Map String (Map String String)) : Prop where
  label_iff : ∀ label, (∃ types, Map.get? catalog label = some types) ↔
    ∃ row ∈ rows, row.1 = label
  type_eq : ∀ label types, Map.get? catalog label = some types →
    ∀ property, Map.get? types property = (listed rows label).lookup property

/-- Properties that are added keep the type that is known or listed first, by
induction on the properties of one row. -/
theorem get?_foldl_insertNew (pairs : List (String × String))
    (property : String) :
    ∀ known : Map String String,
      Map.get? (pairs.foldl
        (fun types (name, type) => Map.insertNew types name type) known)
        property = (Map.get? known property).or (pairs.lookup property) := by
  induction pairs with
  | nil => simp
  | cons pair rest ih =>
    intro known
    obtain ⟨name, type⟩ := pair
    rw [List.foldl_cons, ih, Map.get?_insertNew, Option.or_assoc,
      List.lookup_cons]
    by_cases hname : name = property
    · subst hname
      simp
    · simp [hname, beq_false_of_ne (Ne.symm hname)]

theorem listed_append_singleton (rows : List (String × List (String × String)))
    (row : String × List (String × String)) (label : String) :
    listed (rows ++ [row]) label = listed rows label ++
    if row.1 = label then row.2 else [] := by
  by_cases h : row.1 = label <;> simp [listed, h]

/-- One row more. -/
theorem FirstTypes.addPropertyRow
    {rows : List (String × List (String × String))}
    {catalog : Map String (Map String String)} (h : FirstTypes rows catalog)
    (row : String × List (String × String)) :
    FirstTypes (rows ++ [row]) (addPropertyRow catalog row) := by
  have hknown : ∀ property,
      Map.get? ((Map.get? catalog row.1).getD ∅) property =
      (listed rows row.1).lookup property := by
    intro property
    cases hlabel : Map.get? catalog row.1 with
    | some types => exact h.type_eq _ _ hlabel property
    | none =>
      have hnone : ¬∃ other ∈ rows, other.1 = row.1 := by
        rw [← h.label_iff, hlabel]
        simp
      have hlisted : listed rows row.1 = [] := by
        rw [listed, List.filter_eq_nil_iff.2, List.flatMap_nil]
        intro other hother heq
        exact hnone ⟨other, hother, beq_iff_eq.1 heq⟩
      rw [hlisted]
      rfl
  constructor
  · intro label
    rw [Catalog.addPropertyRow, Map.get?_insert]
    by_cases hlabel : row.1 = label
    · simp [hlabel]
    · simp [hlabel, h.label_iff]
  · intro label types htypes property
    rw [Catalog.addPropertyRow, Map.get?_insert] at htypes
    rw [listed_append_singleton, List.lookup_append]
    by_cases hlabel : row.1 = label
    · subst hlabel
      rw [if_pos rfl] at htypes
      cases htypes
      rw [get?_foldl_insertNew, hknown, if_pos rfl]
    · rw [if_neg hlabel] at htypes
      rw [if_neg hlabel, h.type_eq label types htypes]
      simp

/-- All rows, one after the other, by induction from the last one back. -/
theorem firstTypes_foldl (rows : List (String × List (String × String))) :
    FirstTypes rows (rows.foldl addPropertyRow ∅) := by
  induction rows using List.reverseRecOn with
  | nil =>
    refine ⟨fun label => iff_of_false ?_ ?_, fun _ _ h => nomatch h⟩
    · rintro ⟨types, ⟨⟩⟩
    · rintro ⟨row, ⟨⟩, -⟩
  | append_singleton rows row ih =>
    rw [List.foldl_append]
    exact ih.addPropertyRow row

/-! ## The sequence -/

/-- A catalog is retrieved iff every step succeeds; the later steps are about
the names that the first two have yielded. -/
theorem retrieve_eq_ok_iff {c : Catalog} : retrieve read = .ok c ↔
    ∃ labels types row, readNames read labelsQuery = .ok labels ∧
      readNames read relationTypesQuery = .ok types ∧
      readCounts read nodeCountQuery labels = .ok c.nodeCounts ∧
      readCounts read relationCountQuery types = .ok c.relationCounts ∧
      readCount read totalNodesQuery = .ok c.totalNodes ∧
      readCount read totalRelationsQuery = .ok c.totalRelations ∧
      readProperties read nodePropertiesQuery nodeTypeColumn =
      .ok c.nodeProperties ∧
      readProperties read relationPropertiesQuery relationTypeColumn =
      .ok c.relationProperties ∧
      read schemaQuery = .ok [row] ∧ row.graph? .schema = .ok c.schema := by
  simp only [retrieve, bind_eq_ok_iff, Reader.single_eq_ok_iff]
  constructor
  · rintro ⟨labels, hlabels, types, htypes, nodeCounts, hnodeCounts,
      relationCounts, hrelationCounts, totalNodes, htotalNodes, totalRelations,
      htotalRelations, nodeProperties, hnodeProperties, relationProperties,
      hrelationProperties, row, hrow, schema, hschema, ⟨⟩⟩
    exact ⟨labels, types, row, hlabels, htypes, hnodeCounts, hrelationCounts,
      htotalNodes, htotalRelations, hnodeProperties, hrelationProperties,
      hrow, hschema⟩
  · rintro ⟨labels, types, row, hlabels, htypes, hnodeCounts, hrelationCounts,
      htotalNodes, htotalRelations, hnodeProperties, hrelationProperties,
      hrow, hschema⟩
    exact ⟨labels, hlabels, types, htypes, _, hnodeCounts, _, hrelationCounts,
      _, htotalNodes, _, htotalRelations, _, hnodeProperties, _,
      hrelationProperties, row, hrow, _, hschema, rfl⟩

end Catalog

end DrawnPattern
