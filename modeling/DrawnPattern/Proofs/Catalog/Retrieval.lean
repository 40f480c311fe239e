import DrawnPattern.Proofs.Catalog.Stages
import DrawnPattern.Proofs.Replay.Session
set_option autoImplicit false

/-!
# What a retrieval yields

A retrieval is all or nothing.  It succeeds iff the database can be reached and
every stage is met, and then with the one catalog that the rows record
(`Records`): of names only which ones are listed counts, not where or how often,
and nothing that is not asked for does.  Otherwise it fails as the first stage
does that fails (`retrieves`).
-/

namespace DrawnPattern.Catalog

/-! ## What rows record -/

/-- Whether a name is listed for a query, in whichever of its rows and
however often. -/
def ListsName (f : Fixture) (query name : String) : Prop :=
  ∃ rows, Map.get? f.responses query = some rows ∧
    ∃ row ∈ rows, Map.get? row labelColumn = some (.string name)

/-- Whether a query has one row, with this count, which is not negative. -/
def HasCount (f : Fixture) (query : String) (count : Nat) : Prop :=
  ∃ row, Map.get? f.responses query = some [row] ∧
    Map.get? row countColumn = some (.int count)

/-- Whether the names listed for a query are counted, each by a query of its
own, and no other names are. -/
structure CountsNames (f : Fixture) (namesQuery : String)
    (countQuery : String → String) (counts : Map String Nat) : Prop where
  name_iff : ∀ name, (∃ count, Map.get? counts name = some count) ↔
    ListsName f namesQuery name
  hasCount : ∀ name count, Map.get? counts name = some count →
    HasCount f (countQuery name) count

/-- Whether the rows of a query list properties by name, in order; the names are
taken out of their decoration. -/
def ListsProperties (f : Fixture) (query typeColumn : String)
    (entries : List (String × List (String × String))) : Prop :=
  ∃ rows, Map.get? f.responses query = some rows ∧
    List.Forall₂ (fun row entry => ∃ name,
      Map.get? row typeColumn = some (.string name) ∧
      entry.1 = undecorate name ∧
        Map.get? row propertiesColumn =
        some (.list (entry.2.map typedPair))) rows entries

/-- Whether a catalog is what the rows of a fixture record, each part by the
query that asks for it. -/
structure Records (f : Fixture) (c : Catalog) : Prop where
  labels : (Stage.names labelsQuery).Met f
  types : (Stage.names relationTypesQuery).Met f
  nodeCounts : CountsNames f labelsQuery nodeCountQuery c.nodeCounts
  relationCounts :
    CountsNames f relationTypesQuery relationCountQuery c.relationCounts
  totalNodes : HasCount f totalNodesQuery c.totalNodes
  totalRelations : HasCount f totalRelationsQuery c.totalRelations
  nodeProperties : ∃ entries,
    ListsProperties f nodePropertiesQuery nodeTypeColumn entries ∧
    FirstTypes entries c.nodeProperties
  relationProperties : ∃ entries,
    ListsProperties f relationPropertiesQuery relationTypeColumn entries ∧
      FirstTypes entries c.relationProperties
  schema : ∃ row, Map.get? f.responses schemaQuery = some [row] ∧
    row.graph? .schema = .ok c.schema

/-- Whether two fixtures answer a retrieval alike: for names with the same rows,
in whatever order and however often, and for what is asked then with the same
rows in the same order. -/
structure AnswerAlike (f f' : Fixture) : Prop where
  names : ∀ s ∈ namingStages, ∃ rows rows',
    Map.get? f.responses s.query = some rows ∧
    Map.get? f'.responses s.query = some rows' ∧ ∀ row, row ∈ rows ↔ row ∈ rows'
  later : ∀ s ∈ laterStages f,
    Map.get? f'.responses s.query = Map.get? f.responses s.query

/-- What comes of a retrieval from a replay: a catalog iff all stages are met,
the same from every fixture that answers alike, and else the failure of the
first stage that is not met. -/
structure Retrieves (db : Replay) : Prop where
  ok_iff : ∀ c, (ofReplay db).1 = .ok c ↔ db.fixture.unreachable = false ∧
    Records db.fixture c
  exists_ok_iff : (∃ c, (ofReplay db).1 = .ok c) ↔
    db.fixture.unreachable = false ∧ ∀ s ∈ stages db.fixture, s.Met db.fixture
  determined : ∀ db' : Replay,
    db'.fixture.unreachable = db.fixture.unreachable →
    AnswerAlike db.fixture db'.fixture →
      ∀ c, (ofReplay db').1 = .ok c ↔ (ofReplay db).1 = .ok c
  error_iff : ∀ failure, (ofReplay db).1 = .error failure ↔
    (db.fixture.unreachable = true ∧ failure = .database .unreachable) ∨
      (db.fixture.unreachable = false ∧ FirstBad (Stage.Met db.fixture)
        (Stage.Fails db.fixture) (stages db.fixture) failure)

variable {f f' : Fixture} {c : Catalog} {query : String}

/-! ## Names and their counts -/

theorem mem_namesListed_iff {name : String} :
    name ∈ (namesListed f query).toList ↔ ListsName f query name := by
  rw [namesListed, OrderedSet.mem_ofList_iff, List.mem_filterMap, ListsName]
  simp only [name?_eq_some_iff]
  cases Map.get? f.responses query <;> simp

theorem hasCount_iff {count : Nat} : readCount f.read query = .ok count ↔
    HasCount f query count := by
  simp only [readCount_eq_ok_iff, Fixture.read_eq_ok_iff, HasCount]

/-- Names are read iff all rows have one, and then those listed are. -/
theorem readNames_eq_ok_iff_met {names : List String} :
    readNames f.read query = .ok names ↔
    (Stage.names query).Met f ∧ names = (namesListed f query).toList := by
  constructor
  · intro h
    refine ⟨Stage.run_eq_ok_iff.1 (discard_eq_ok_iff.2 ⟨names, h⟩),
      eq_namesListed h⟩
  · rintro ⟨hmet, rfl⟩
    obtain ⟨names, h⟩ := discard_eq_ok_iff.1 (Stage.run_eq_ok_iff.2 hmet)
    rw [← eq_namesListed h]
    exact h

/-- Names are counted iff each has a count. -/
theorem readCounts_eq_ok_iff {countQuery : String → String}
    {names : OrderedSet String} {counts : Map String Nat} :
    readCounts f.read countQuery names.toList = .ok counts ↔
      counts.keys = names.toList ∧
        ∀ name count, Map.get? counts name = some count →
        HasCount f (countQuery name) count := by
  constructor
  · intro h
    obtain ⟨entries, hentries, ⟨⟩⟩ := bind_eq_ok_iff.1 h
    have hread : List.Forall₂ (fun name entry => name = entry.1 ∧
        HasCount f (countQuery name) entry.2) names.toList entries := by
      refine (mapM_eq_ok_iff.1 hentries).imp fun name entry hentry => ?_
      obtain ⟨count, hcount, ⟨⟩⟩ := bind_eq_ok_iff.1 hentry
      exact ⟨rfl, hasCount_iff.1 hcount⟩
    have hkeys : names.toList = entries.map Prod.fst := by
      rw [← List.forall₂_eq_eq_eq, List.forall₂_map_right_iff]
      exact hread.imp fun _ _ hentry => hentry.1
    have hascending : entries.Pairwise fun a b => compare a.1 b.1 = .lt := by
      rw [← List.pairwise_map (f := Prod.fst)
        (R := fun a b => compare a b = .lt), ← hkeys]
      exact names.ascending
    refine ⟨?_, fun name count hget => ?_⟩
    · rw [Keyed.keys, Keyed.toList_ofList hascending, hkeys]
    · rw [Map.get?_eq_some_iff, Keyed.toList_ofList hascending] at hget
      obtain ⟨_, -, rfl, hcount⟩ := (exists_mem_of_forall₂ hread).2 _ hget
      exact hcount
  · rintro ⟨hkeys, hcounts⟩
    rw [← hkeys]
    refine readCounts_eq_ok fun entry hentry => hasCount_iff.2 (hcounts _ _ ?_)
    exact Map.get?_eq_some_iff.2 hentry

/-- The names listed are counted iff they are, and no others. -/
theorem readCounts_namesListed {countQuery : String → String}
    {counts : Map String Nat} :
    readCounts f.read countQuery (namesListed f query).toList = .ok counts ↔
      CountsNames f query countQuery counts := by
  rw [readCounts_eq_ok_iff, Map.keys_eq_toList_iff]
  simp only [Map.mem_keys_iff, mem_namesListed_iff]
  exact ⟨fun ⟨hnames, hcounts⟩ => ⟨hnames, hcounts⟩,
    fun h => ⟨h.name_iff, h.hasCount⟩⟩

/-! ## Properties -/

/-- Rows tell the first types only one way, so a catalog is determined by what
is listed. -/
theorem FirstTypes.unique {entries : List (String × List (String × String))}
    {catalog catalog' : Map String (Map String String)}
    (h : FirstTypes entries catalog) (h' : FirstTypes entries catalog') :
    catalog = catalog' := by
  refine Map.ext_get? fun label => Option.ext fun types => ?_
  have hlabel := (h.label_iff label).trans (h'.label_iff label).symm
  have hsame : ∀ types types', Map.get? catalog label = some types →
      Map.get? catalog' label = some types' → types = types' := by
    intro types types' htypes htypes'
    refine Map.ext_get? fun property => ?_
    rw [h.type_eq label types htypes, h'.type_eq label types' htypes']
  constructor
  · intro htypes
    obtain ⟨types', htypes'⟩ := hlabel.1 ⟨types, htypes⟩
    rw [hsame types types' htypes htypes']
    exact htypes'
  · intro htypes'
    obtain ⟨types', htypes⟩ := hlabel.2 ⟨types, htypes'⟩
    rw [← hsame types' types htypes htypes']
    exact htypes

/-- Properties are read iff they are listed, with the types that come first. -/
theorem readProperties_eq_ok_iff_listed {typeColumn : String}
    {catalog : Map String (Map String String)} :
    readProperties f.read query typeColumn = .ok catalog ↔
      ∃ entries, ListsProperties f query typeColumn entries ∧
      FirstTypes entries catalog := by
  simp only [readProperties_eq_ok_iff, propertyRow_eq_ok_iff,
    Fixture.read_eq_ok_iff, ListsProperties]
  constructor
  · rintro ⟨rows, entries, hrows, hentries, rfl⟩
    exact ⟨entries, ⟨rows, hrows, hentries⟩, firstTypes_foldl entries⟩
  · rintro ⟨entries, ⟨rows, hrows, hentries⟩, hfirst⟩
    exact ⟨rows, entries, hrows, hentries,
      hfirst.unique (firstTypes_foldl entries)⟩

/-! ## The whole catalog -/

/-- A catalog is retrieved iff it is what the rows record.  On the one side
stands the code, on the other nothing but rows. -/
theorem retrieve_eq_ok_iff_records : retrieve f.read = .ok c ↔ Records f c := by
  simp only [retrieve_eq_ok_iff, readNames_eq_ok_iff_met, hasCount_iff,
    readProperties_eq_ok_iff_listed, Fixture.read_eq_ok_iff]
  constructor
  · rintro ⟨_, _, row, ⟨hlabels, rfl⟩, ⟨htypes, rfl⟩, hnodeCounts,
      hrelationCounts, htotalNodes, htotalRelations, hnodeProperties,
      hrelationProperties, hrow, hschema⟩
    exact ⟨hlabels, htypes, readCounts_namesListed.1 hnodeCounts,
      readCounts_namesListed.1 hrelationCounts, htotalNodes, htotalRelations,
      hnodeProperties, hrelationProperties, row, hrow, hschema⟩
  · intro h
    obtain ⟨row, hrow, hschema⟩ := h.schema
    exact ⟨_, _, row, ⟨h.labels, rfl⟩, ⟨h.types, rfl⟩,
      readCounts_namesListed.2 h.nodeCounts,
      readCounts_namesListed.2 h.relationCounts, h.totalNodes, h.totalRelations,
      h.nodeProperties, h.relationProperties, hrow, hschema⟩

/-- A catalog is retrieved iff every stage is met.  Which stages there are is
told by the names that the first two list. -/
theorem exists_retrieve_iff : (∃ c, retrieve f.read = .ok c) ↔
    ∀ s ∈ stages f, s.Met f := by
  rw [← discard_eq_ok_iff, discard_retrieve, forM_eq_ok_iff]
  simp only [Stage.run_eq_ok_iff]

/-- A retrieval fails as the first stage does that fails; what comes after that
stage is not looked at. -/
theorem retrieve_eq_error_iff {failure : Failure} :
    retrieve f.read = .error failure ↔
    FirstBad (Stage.Met f) (Stage.Fails f) (stages f) failure := by
  rw [← discard_eq_error_iff, discard_retrieve, forM_eq_error_iff]
  simp only [FirstBad, Stage.run_eq_ok_iff, Stage.run_eq_error_iff]

/-! ## What makes no difference -/

theorem labels_mem_namingStages : .names labelsQuery ∈ namingStages :=
  List.mem_cons_self

theorem types_mem_namingStages : .names relationTypesQuery ∈ namingStages :=
  List.mem_cons_of_mem _ List.mem_cons_self

namespace AnswerAlike

theorem listsName_iff (h : AnswerAlike f f')
    (hquery : .names query ∈ namingStages) {name : String} :
    ListsName f query name ↔ ListsName f' query name := by
  obtain ⟨rows, rows', hrows, hrows', hmem⟩ := h.names _ hquery
  simp only [Stage.query] at hrows hrows'
  simp only [ListsName, hrows, hrows', Option.some.injEq, exists_eq_left', hmem]

theorem met_names (h : AnswerAlike f f') (hquery : .names query ∈ namingStages)
    (hmet : (Stage.names query).Met f) : (Stage.names query).Met f' := by
  obtain ⟨rows, rows', hrows, hrows', hmem⟩ := h.names _ hquery
  obtain ⟨_, hfound, haccepts⟩ := hmet
  rw [hrows] at hfound
  cases hfound
  exact ⟨rows', hrows', fun row hrow => haccepts row ((hmem row).2 hrow)⟩

/-- The same names are listed, so the same is asked later. -/
theorem laterStages_eq (h : AnswerAlike f f') :
    laterStages f' = laterStages f := by
  have hnames : ∀ query, .names query ∈ namingStages →
      namesListed f' query = namesListed f query := by
    intro query hquery
    refine Keyed.ext_mem fun name => ?_
    rw [mem_namesListed_iff, mem_namesListed_iff, h.listsName_iff hquery]
  rw [laterStages, laterStages, hnames labelsQuery labels_mem_namingStages,
    hnames relationTypesQuery types_mem_namingStages]

theorem symm (h : AnswerAlike f f') : AnswerAlike f' f where
  names s hs := by
    obtain ⟨rows, rows', hrows, hrows', hmem⟩ := h.names s hs
    exact ⟨rows', rows, hrows', hrows, fun row => (hmem row).symm⟩
  later s hs := by
    rw [h.laterStages_eq] at hs
    exact (h.later s hs).symm

/-- What is asked later has the same count. -/
theorem hasCount (h : AnswerAlike f f') (hstage : .count query ∈ laterStages f)
    {count : Nat} (hcount : HasCount f query count) :
    HasCount f' query count := by
  have hrows := h.later _ hstage
  simp only [Stage.query] at hrows
  rw [HasCount, hrows]
  exact hcount

/-- What is asked later lists the same properties. -/
theorem listsProperties (h : AnswerAlike f f') {typeColumn : String}
    (hstage : .properties query typeColumn ∈ laterStages f)
    {entries : List (String × List (String × String))}
    (hentries : ListsProperties f query typeColumn entries) :
    ListsProperties f' query typeColumn entries := by
  have hrows := h.later _ hstage
  simp only [Stage.query] at hrows
  rw [ListsProperties, hrows]
  exact hentries

theorem records (h : AnswerAlike f f') (hrecords : Records f c) :
    Records f' c where
  labels := h.met_names labels_mem_namingStages hrecords.labels
  types := h.met_names types_mem_namingStages hrecords.types
  nodeCounts := by
    have hname := fun name =>
      (hrecords.nodeCounts.name_iff name).trans
        (h.listsName_iff labels_mem_namingStages)
    refine ⟨hname, fun label count hget =>
      h.hasCount ?_ (hrecords.nodeCounts.hasCount _ _ hget)⟩
    have hlabel :=
      mem_namesListed_iff.2 ((hrecords.nodeCounts.name_iff label).1
        ⟨count, hget⟩)
    exact List.mem_append_left _
      (List.mem_append_left _ (List.mem_map_of_mem hlabel))
  relationCounts := by
    have hname := fun name =>
      (hrecords.relationCounts.name_iff name).trans
        (h.listsName_iff types_mem_namingStages)
    refine ⟨hname, fun type count hget =>
      h.hasCount ?_ (hrecords.relationCounts.hasCount _ _ hget)⟩
    have htype :=
      mem_namesListed_iff.2 ((hrecords.relationCounts.name_iff type).1
        ⟨count, hget⟩)
    exact List.mem_append_left _
      (List.mem_append_right _ (List.mem_map_of_mem htype))
  totalNodes :=
    h.hasCount (List.mem_append_right _ (by simp)) hrecords.totalNodes
  totalRelations :=
    h.hasCount (List.mem_append_right _ (by simp)) hrecords.totalRelations
  nodeProperties := by
    obtain ⟨entries, hentries, hfirst⟩ := hrecords.nodeProperties
    exact ⟨entries,
      h.listsProperties (List.mem_append_right _ (by simp)) hentries, hfirst⟩
  relationProperties := by
    obtain ⟨entries, hentries, hfirst⟩ := hrecords.relationProperties
    exact ⟨entries,
      h.listsProperties (List.mem_append_right _ (by simp)) hentries, hfirst⟩
  schema := by
    have hrows := h.later .schema (List.mem_append_right _ (by simp))
    simp only [Stage.query] at hrows
    rw [hrows]
    exact hrecords.schema

end AnswerAlike

/-! ## From a replay -/

theorem ofReplay_fst (db : Replay) :
    (ofReplay db).1 = db.verify >>= fun _ => retrieve db.fixture.read := by
  rw [ofReplay, Replay.inSession_eq]

theorem ofReplay_eq_ok_iff {db : Replay} :
    (ofReplay db).1 = .ok c ↔ db.fixture.unreachable = false ∧
    retrieve db.fixture.read = .ok c := by
  rw [ofReplay_fst, Replay.verify_eq]
  cases db.fixture.unreachable with
  | false => exact (and_iff_right rfl).symm
  | true => exact iff_of_false (fun h => nomatch h) fun h => nomatch h.1

theorem ofReplay_eq_error_iff {db : Replay} {failure : Failure} :
    (ofReplay db).1 = .error failure ↔
    (db.fixture.unreachable = true ∧ failure = .database .unreachable) ∨
      (db.fixture.unreachable = false ∧
        retrieve db.fixture.read = .error failure) := by
  rw [ofReplay_fst, Replay.verify_eq]
  cases db.fixture.unreachable with
  | false =>
    simp only [Bool.false_eq_true, false_and, false_or, true_and, if_false]
    rfl
  | true =>
    simp only [Bool.true_eq_false, false_and, or_false, true_and, if_true]
    constructor
    · intro h
      cases h
      rfl
    · rintro rfl
      rfl

/-- Every retrieval is all or nothing: it yields what the rows record, or fails
as its first stage does that fails.  This is so for every fixture, whatever else
it holds. -/
theorem retrieves (db : Replay) : Retrieves db where
  ok_iff c := by
    rw [ofReplay_eq_ok_iff, retrieve_eq_ok_iff_records]
  exists_ok_iff := by
    simp only [ofReplay_eq_ok_iff, exists_and_left, exists_retrieve_iff]
  determined db' hreachable halike c := by
    rw [ofReplay_eq_ok_iff, ofReplay_eq_ok_iff, retrieve_eq_ok_iff_records,
      retrieve_eq_ok_iff_records, hreachable]
    exact and_congr_right fun _ => ⟨halike.symm.records, halike.records⟩
  error_iff failure := by
    rw [ofReplay_eq_error_iff, retrieve_eq_error_iff]

end DrawnPattern.Catalog
