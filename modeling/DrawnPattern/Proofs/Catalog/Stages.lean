import DrawnPattern.Proofs.Catalog.Reading
import DrawnPattern.Proofs.Row.Faults
set_option autoImplicit false

/-!
# The stages of a retrieval

A retrieval asks one query after the other.  Which ones depends on the names
that were listed first, so the stages are a function of the fixture (`stages`).
Each is met by its rows or fails with a fault that they tell (`Stage.Met`,
`Stage.Fails`), and a retrieval runs through all of them until one fails
(`discard_retrieve`).
-/

namespace DrawnPattern.Catalog

/-! ## What rows have to be -/

/-- Whether a row names a label or a type. -/
def Named (row : Row) : Prop :=
  ∃ name, Map.get? row labelColumn = some (.string name)

/-- Whether a row holds a count. -/
def Counted (row : Row) : Prop :=
  ∃ count : Nat, Map.get? row countColumn = some (.int count)

/-- Whether a row lists properties with their types under a name. -/
def Typed (typeColumn : String) (row : Row) : Prop :=
  ∃ (name : String) (entries : List (String × String)),
    Map.get? row typeColumn = some (.string name) ∧
      Map.get? row propertiesColumn = some (.list (entries.map typedPair))

/-- The fault of a row that holds no count. -/
def CountFault (row : Row) (fault : DecodeFault) : Prop :=
  row.FieldFault countColumn .integer fault ∨
    ∃ n < 0, Map.get? row countColumn = some (.int n) ∧
    fault = .negativeCount countColumn

/-- The fault of a cell that is not a name with a type. -/
def PairFault (cell : Cell) (fault : DecodeFault) : Prop :=
  cell.KindFault propertiesColumn .list fault ∨
    (∃ cells, cell = .list cells ∧ cells.length ≠ 2 ∧
      fault = .notNamedType propertiesColumn) ∨
    ∃ name type, cell = .list [name, type] ∧
      (name.KindFault propertiesColumn .string fault ∨
        (∃ s, name = .string s) ∧ type.KindFault propertiesColumn .string fault)

/-- The fault of a row that does not list properties under a name. -/
def PropertyFault (typeColumn : String) (row : Row)
    (fault : DecodeFault) : Prop :=
  row.FieldFault typeColumn .string fault ∨
    (∃ name, Map.get? row typeColumn = some (.string name)) ∧
      (row.FieldFault propertiesColumn .list fault ∨
        ∃ cells, Map.get? row propertiesColumn = some (.list cells) ∧
          FirstBad (fun cell => ∃ entry,
            cell = typedPair entry) PairFault cells fault)

/-! ## Stages -/

/-- A query of a retrieval, with what it is asked for.  That its rows are what
was asked for is told here without the code that reads them. -/
inductive Stage where
  /-- the names of labels or types -/
  | names (query : String)
  /-- one count -/
  | count (query : String)
  /-- properties by label or type -/
  | properties (query typeColumn : String)
  /-- the schema -/
  | schema

namespace Stage

def query : Stage → String
  | names query => query
  | count query => query
  | properties query _ => query
  | schema => schemaQuery

/-- Whether the rows of the query are what it is asked for. -/
def Accepts : Stage → List Row → Prop
  | names _, rows => ∀ row ∈ rows, Named row
  | count _, rows => ∃ row, rows = [row] ∧ Counted row
  | properties _ typeColumn, rows => ∀ row ∈ rows, Typed typeColumn row
  | schema, rows =>
    ∃ row, rows = [row] ∧ ∃ graph, row.graph? .schema = .ok graph

/-- The failure for rows that are not what the query is asked for; of several
bad rows the first decides. -/
def Refuses : Stage → List Row → Failure → Prop
  | names _, rows, failure => ∃ fault, failure = .decode fault ∧
    FirstBad Named (fun row => row.FieldFault labelColumn .string) rows fault
  | count _, rows, failure =>
    OneRowFault (fun row failure => ∃ fault, failure = .decode fault ∧
      CountFault row fault) rows
      failure
  | properties _ typeColumn, rows, failure => ∃ fault, failure = .decode fault ∧
    FirstBad (Typed typeColumn) (PropertyFault typeColumn) rows fault
  | schema, rows, failure =>
    OneRowFault (fun row failure => row.graph? .schema = .error failure)
      rows failure

/-- Whether a fixture has the rows that a stage asks for. -/
def Met (f : Fixture) (s : Stage) : Prop :=
  ∃ rows, Map.get? f.responses s.query = some rows ∧ s.Accepts rows

/-- The failure of a stage on a fixture: the query is not known, or its rows
are refused. -/
def Fails (f : Fixture) (s : Stage) (failure : Failure) : Prop :=
  (Map.get? f.responses s.query = none ∧
    failure = .database (.unknownQuery s.query)) ∨
    ∃ rows, Map.get? f.responses s.query = some rows ∧ s.Refuses rows failure

/-- Reads what a stage asks for. -/
def run (read : Reader) : Stage → Except Failure Unit
  | names query => discard (readNames read query)
  | count query => discard (readCount read query)
  | properties query typeColumn =>
    discard (readProperties read query typeColumn)
  | schema =>
    discard (read.single schemaQuery >>= fun row => row.graph? .schema)

end Stage

/-- The name in a row, if it has one. -/
def name? (row : Row) : Option String :=
  match Map.get? row labelColumn with
  | some (.string name) => some name
  | _ => none

/-- The names that are listed for a query, each once and in ascending order;
without rows there are none. -/
def namesListed (f : Fixture) (query : String) : OrderedSet String :=
  .ofList (((Map.get? f.responses query).getD []).filterMap name?)

/-- The stages that ask for names. -/
def namingStages : List Stage := [.names labelsQuery, .names relationTypesQuery]

/-- The stages after the names are known: a count for each of them, the totals,
the properties and the schema. -/
def laterStages (f : Fixture) : List Stage :=
  (namesListed f labelsQuery).toList.map (fun label =>
    .count (nodeCountQuery label)) ++
    (namesListed f relationTypesQuery).toList.map
      (fun type => .count (relationCountQuery type)) ++
    [.count totalNodesQuery, .count totalRelationsQuery,
      .properties nodePropertiesQuery nodeTypeColumn,
      .properties relationPropertiesQuery relationTypeColumn, .schema]

/-- The stages of a retrieval from a fixture, in their order. -/
def stages (f : Fixture) : List Stage := namingStages ++ laterStages f

variable {f : Fixture} {row : Row} {fault : DecodeFault} {query : String}

/-! ## Rows that are refused -/

theorem namedType_eq_error_iff {cell : Cell} :
    namedType cell = .error fault ↔ PairFault cell fault := by
  unfold namedType
  rw [bind_eq_error_iff, Cell.asList_eq_error_iff, PairFault]
  refine or_congr_right ?_
  simp only [Cell.asList_eq_ok_iff]
  constructor
  · rintro ⟨cells, rfl, h⟩
    split at h
    · rename_i name type
      simp only [bind_eq_error_iff, Cell.asString_eq_error_iff,
        Cell.asString_eq_ok_iff] at h
      refine .inr ⟨name, type, rfl, ?_⟩
      rcases h with hname | ⟨s, hname, htype | ⟨_, -, ⟨⟩⟩⟩
      · exact .inl hname
      · exact .inr ⟨⟨s, hname⟩, htype⟩
    · rename_i hother
      cases h
      refine .inl ⟨cells, rfl, fun hlength => ?_, rfl⟩
      obtain ⟨name, type, rfl⟩ := List.length_eq_two.1 hlength
      exact hother name type rfl
  · rintro (⟨cells, rfl, hlength, rfl⟩ | ⟨name, type, rfl, h⟩)
    · refine ⟨cells, rfl, ?_⟩
      split
      · exact absurd rfl hlength
      · rfl
    · refine ⟨_, rfl, ?_⟩
      simp only [bind_eq_error_iff, Cell.asString_eq_error_iff,
        Cell.asString_eq_ok_iff]
      rcases h with hname | ⟨⟨s, hname⟩, htype⟩
      · exact .inl hname
      · exact .inr ⟨s, hname, .inl htype⟩

theorem propertyRow_eq_error_iff {typeColumn : String} :
    propertyRow typeColumn row = .error fault ↔
    PropertyFault typeColumn row fault := by
  have hname : ∀ name,
      (do (← Row.field row typeColumn).asString typeColumn) = .ok name ↔
      Map.get? row typeColumn = some (.string name) :=
    fun _ => Row.string_eq_ok_iff
  have hrefused : ∀ fault,
      (do (← Row.field row typeColumn).asString typeColumn) = .error fault ↔
      row.FieldFault typeColumn .string fault :=
    fun _ => Row.string_eq_error_iff
  have hpairs :
      (do
        (← (← Row.field row propertiesColumn).asList propertiesColumn).mapM
          namedType) = .error fault ↔
        row.FieldFault propertiesColumn .list fault ∨
          ∃ cells, Map.get? row propertiesColumn = some (.list cells) ∧
            FirstBad (fun cell => ∃ entry, cell = typedPair entry) PairFault
              cells fault := by
    simp only [Row.list_eq_error_iff, mapM_eq_error_iff, namedType_eq_ok_iff,
      namedType_eq_error_iff]
  rw [propertyRow_eq_bind, bind_eq_error_iff, hrefused, PropertyFault, ← hpairs]
  refine or_congr_right ?_
  simp only [hname, bind_eq_error_iff]
  constructor
  · rintro ⟨name, hget, hread | ⟨_, -, ⟨⟩⟩⟩
    exact ⟨⟨name, hget⟩, hread⟩
  · rintro ⟨⟨name, hget⟩, hread⟩
    exact ⟨name, hget, .inl hread⟩

theorem exists_propertyRow_iff {typeColumn : String} :
    (∃ entry, propertyRow typeColumn row = .ok entry) ↔
    Typed typeColumn row := by
  simp only [propertyRow_eq_ok_iff, Typed]
  constructor
  · rintro ⟨entry, name, hname, -, hpairs⟩
    exact ⟨name, entry.2, hname, hpairs⟩
  · rintro ⟨name, entries, hname, hpairs⟩
    exact ⟨(undecorate name, entries), name, hname, rfl, hpairs⟩

/-! ## Stages that are run -/

section Decoded

variable {α : Type} {rows : List Row} {decode : Row → Except DecodeFault α}
  {β : Type} {next : List α → β}

/-- What is made of decoded rows is there iff each row is decoded. -/
theorem exists_decoded_iff :
    (∃ b, ((rows.mapM decode).mapError Failure.decode >>= fun items =>
      pure (next items)) = .ok b) ↔
      ∀ row ∈ rows, ∃ a, decode row = .ok a := by
  simp only [bind_eq_ok_iff, mapError_eq_ok_iff, ← exists_mapM_eq_ok_iff]
  constructor
  · rintro ⟨_, items, hitems, -⟩
    exact ⟨items, hitems⟩
  · rintro ⟨items, hitems⟩
    exact ⟨next items, items, hitems, rfl⟩

/-- What is made of decoded rows is not there iff a row is the first that is
not decoded. -/
theorem decoded_eq_error_iff {failure : Failure} :
    ((rows.mapM decode).mapError Failure.decode >>= fun items =>
      pure (next items)) =
      .error failure ↔ ∃ fault, failure = .decode fault ∧
        FirstBad (fun row => ∃ a, decode row = .ok a) (fun row fault =>
          decode row = .error fault)
          rows fault := by
  simp only [bind_eq_error_iff, mapError_eq_error_iff, mapM_eq_error_iff]
  constructor
  · rintro (⟨fault, hfirst, rfl⟩ | ⟨_, -, ⟨⟩⟩)
    exact ⟨fault, rfl, hfirst⟩
  · rintro ⟨fault, rfl, hfirst⟩
    exact .inl ⟨fault, hfirst, rfl⟩

end Decoded

theorem readName_eq_error_iff :
    readName row = .error fault ↔ row.FieldFault labelColumn .string fault :=
  Row.string_eq_error_iff

theorem readNames_eq_error_iff {read : Reader} {failure : Failure} :
    readNames read query = .error failure ↔ read query = .error failure ∨
      ∃ rows, read query = .ok rows ∧
      (Stage.names query).Refuses rows failure := by
  rw [readNames_eq_bind, bind_eq_error_iff]
  refine or_congr_right (exists_congr fun rows => and_congr_right fun _ => ?_)
  simp only [decoded_eq_error_iff, readName_eq_ok_iff, readName_eq_error_iff]
  rfl

theorem readCount_eq_error_iff {read : Reader} {failure : Failure} :
    readCount read query = .error failure ↔ read query = .error failure ∨
      ∃ rows, read query = .ok rows ∧
      (Stage.count query).Refuses rows failure := by
  have hcount : ∀ (row : Row) (failure : Failure),
      ((do (← Row.field row countColumn).asInt countColumn).mapError
        Failure.decode >>= fun count =>
          if count < 0 then .error (.decode (.negativeCount countColumn))
          else .ok count.toNat) =
        .error failure ↔
            ∃ fault, failure = .decode fault ∧ CountFault row fault := by
    intro row failure
    rw [bind_eq_error_iff]
    simp only [mapError_eq_error_iff, mapError_eq_ok_iff]
    constructor
    · rintro (⟨fault, hfield, rfl⟩ | ⟨n, hget, h⟩)
      · exact ⟨fault, rfl, .inl (Row.int_eq_error_iff.1 hfield)⟩
      · split at h
        · rename_i hnegative
          cases h
          exact ⟨_, rfl, .inr ⟨n, hnegative, Row.int_eq_ok_iff.1 hget, rfl⟩⟩
        · cases h
    · rintro ⟨fault, rfl, hfield | ⟨n, hnegative, hget, rfl⟩⟩
      · exact .inl ⟨fault, Row.int_eq_error_iff.2 hfield, rfl⟩
      · refine .inr ⟨n, Row.int_eq_ok_iff.2 hget, ?_⟩
        rw [if_pos hnegative]
  rw [readCount_eq_bind, Reader.single_bind_eq_error_iff]
  simp only [hcount, Stage.Refuses]

theorem readProperties_eq_error_iff {read : Reader} {typeColumn : String}
    {failure : Failure} :
    readProperties read query typeColumn = .error failure ↔
    read query = .error failure ∨
      ∃ rows, read query = .ok rows ∧
      (Stage.properties query typeColumn).Refuses rows failure := by
  rw [readProperties_eq_bind, bind_eq_error_iff]
  refine or_congr_right (exists_congr fun rows => and_congr_right fun _ => ?_)
  simp only [decoded_eq_error_iff, exists_propertyRow_iff,
    propertyRow_eq_error_iff]
  rfl

theorem exists_readNames_iff {read : Reader} :
    (∃ names, readNames read query = .ok names) ↔
      ∃ rows, read query = .ok rows ∧ (Stage.names query).Accepts rows := by
  rw [readNames_eq_bind, exists_bind_eq_ok_iff]
  simp only [exists_decoded_iff, readName_eq_ok_iff]
  rfl

theorem exists_readCount_iff {read : Reader} :
    (∃ count, readCount read query = .ok count) ↔
      ∃ rows, read query = .ok rows ∧ (Stage.count query).Accepts rows := by
  simp only [readCount_eq_ok_iff]
  constructor
  · rintro ⟨count, row, hrow, hcount⟩
    exact ⟨[row], hrow, row, rfl, count, hcount⟩
  · rintro ⟨_, hrow, row, rfl, count, hcount⟩
    exact ⟨count, row, hrow, hcount⟩

theorem exists_readProperties_iff {read : Reader} {typeColumn : String} :
    (∃ catalog, readProperties read query typeColumn = .ok catalog) ↔
      ∃ rows, read query = .ok rows ∧
      (Stage.properties query typeColumn).Accepts rows := by
  rw [readProperties_eq_bind, exists_bind_eq_ok_iff]
  simp only [exists_decoded_iff, exists_propertyRow_iff]
  rfl

namespace Stage

variable {s : Stage}

/-- A stage is read iff its rows are what it asks for, whichever kind of
stage it is. -/
theorem run_eq_ok_iff : s.run f.read = .ok () ↔ s.Met f := by
  have hmet : s.Met f ↔ ∃ rows, f.read s.query = .ok rows ∧ s.Accepts rows := by
    simp only [Met, Fixture.read_eq_ok_iff]
  rw [hmet]
  cases s with
  | names query => exact discard_eq_ok_iff.trans exists_readNames_iff
  | count query => exact discard_eq_ok_iff.trans exists_readCount_iff
  | properties query typeColumn =>
    exact discard_eq_ok_iff.trans exists_readProperties_iff
  | schema =>
    rw [run, discard_eq_ok_iff]
    simp only [Reader.single_bind_eq_ok_iff, Accepts]
    constructor
    · rintro ⟨graph, rows, hrows, row, hrow, hgraph⟩
      exact ⟨rows, hrows, row, hrow, graph, hgraph⟩
    · rintro ⟨rows, hrows, row, hrow, graph, hgraph⟩
      exact ⟨graph, rows, hrows, row, hrow, hgraph⟩

/-- A stage is read with a failure iff that is its failure, be it that of the
query or of its rows. -/
theorem run_eq_error_iff {failure : Failure} :
    s.run f.read = .error failure ↔ s.Fails f failure := by
  have hfails : s.Fails f failure ↔ f.read s.query = .error failure ∨
      ∃ rows, f.read s.query = .ok rows ∧ s.Refuses rows failure := by
    simp only [Fails, Fixture.read_eq_ok_iff, Fixture.read_eq_error_iff]
  rw [hfails]
  cases s with
  | names query => exact discard_eq_error_iff.trans readNames_eq_error_iff
  | count query => exact discard_eq_error_iff.trans readCount_eq_error_iff
  | properties query typeColumn =>
    exact discard_eq_error_iff.trans readProperties_eq_error_iff
  | schema => exact discard_eq_error_iff.trans Reader.single_bind_eq_error_iff

end Stage

/-! ## The whole sequence -/

theorem name?_eq_some_iff {name : String} :
    name? row = some name ↔ Map.get? row labelColumn = some (.string name) := by
  unfold name?
  split
  · rename_i other hget
    simp [hget]
  · rename_i hother
    exact iff_of_false (fun h => nomatch h) fun h => hother name h

/-- Names that are read are the names listed. -/
theorem eq_namesListed {names : List String}
    (h : readNames f.read query = .ok names) :
    names = (namesListed f query).toList := by
  obtain ⟨rows, listed, hrows, hlisted, rfl⟩ := readNames_eq_ok_iff.1 h
  have hfilter : rows.filterMap name? = listed := by
    clear h hrows
    induction hlisted with
    | nil => rfl
    | cons hname _ ih =>
      rw [List.filterMap_cons_some (name?_eq_some_iff.2 hname), ih]
  rw [namesListed, Fixture.read_eq_ok_iff.1 hrows, Option.getD_some, hfilter]

/-- Whatever is done with the names that are read, is done with the
names listed. -/
theorem readNames_bind {α : Type} (next : List String → Except Failure α) :
    readNames f.read query >>= next =
      readNames f.read query >>= fun _ =>
        next (namesListed f query).toList := by
  cases h : readNames f.read query with
  | error failure => rfl
  | ok names =>
    rw [← eq_namesListed h]
    rfl

theorem discard_readCounts (read : Reader) (query : String → String)
    (names : List String) :
    discard (readCounts read query names) =
      (names.map fun name => Stage.count (query name)).forM
      (Stage.run read) := by
  have hcounts : discard (readCounts read query names) =
      discard (names.mapM
        fun name => do pure (name, ← readCount read (query name))) := by
    rw [readCounts, discard_bind]
    rfl
  rw [hcounts]
  clear hcounts
  induction names with
  | nil => rfl
  | cons name rest ih =>
    rw [List.map_cons, forM_cons, ← ih, Stage.run, bind_discard, List.mapM_cons]
    cases readCount read (query name) with
    | error failure => rfl
    | ok count => cases rest.mapM fun name => do
        pure (name, ← readCount read (query name)) <;> rfl

/-- A retrieval succeeds or fails as its stages do, one after the other; what it
yields is left out here. -/
theorem discard_retrieve (f : Fixture) :
    discard (retrieve f.read) = (stages f).forM (Stage.run f.read) := by
  simp only [retrieve, discard_bind, stages, namingStages, laterStages,
    forM_append, forM_cons, ← discard_readCounts, Stage.run, bind_discard,
    bind_assoc]
  rw [readNames_bind]
  refine congrArg (_ >>= ·) (funext fun _ => ?_)
  rw [readNames_bind]
  rfl

end DrawnPattern.Catalog
