import DrawnPattern.Proofs.Catalog.RoundTrip
import DrawnPattern.Proofs.Explorer.Search
import DrawnPattern.Proofs.Graph.Building
import DrawnPattern.Proofs.Match.Assembly
import DrawnPattern.Proofs.Query.Written
import Mathlib.Data.List.Induction
set_option autoImplicit false

/-!
# What an explorer remembers

What an explorer shows after any requests is told by the requests alone
(`after_remembers`).  It is connected as long as only searches follow a load
that succeeded; then it shows the catalog of that database, and the graph and
the query of the last search since then that found something.  A search yields
the same whatever came before the load, and one that fails changes nothing
that is shown.

A search changes little of a connection (`Keeps`), and without success it does
not change what is remembered (`connection_searchAll`); a search that succeeds
does (`connection_search_of_yields`).  The rest is how a history ends
(`exists_ending`).
-/

namespace DrawnPattern.Explorer

variable {o : Query.Options} {e : Explorer} {c c' : Connection} {d : Drawing}
  {found : Matches}

/-! ## Requests -/

/-- What is asked of an explorer.  Each request may fail, and the next ones are
made all the same. -/
inductive Request where
  | load (db : Replay)
  | search (d : Drawing)
  | disconnect

/-- The explorer after a request. -/
def perform (e : Explorer) : Request → Explorer
  | .load db => (e.load db).2
  | .search d => (e.search d).2
  | .disconnect => e.disconnect.2

/-- The explorer with these options after some requests, the first of which it
gets without a connection. -/
def after (o : Query.Options) (requests : List Request) : Explorer :=
  requests.foldl perform { options := o }

/-- What an explorer shows, the count of sessions that were ever
opened apart. -/
structure View where
  connected : Bool
  catalog : Option Catalog
  queryGraph : Option Graph
  lastQuery : Option Query.CompiledQuery
  fixture : Option Fixture
  openSessions : Option Nat

def view (e : Explorer) : View where
  connected := e.isConnected
  catalog := e.catalog
  queryGraph := e.queryGraph
  lastQuery := e.lastQuery
  fixture := e.database.map Replay.fixture
  openSessions := e.database.map Replay.openSessions

/-- The last load took up this database with this catalog, and only searches for
these drawings followed. -/
def Loaded (o : Query.Options) (requests : List Request) (db : Replay)
    (catalog : Catalog) (drawings : List Drawing) : Prop :=
  ∃ before, requests = before ++ .load db :: drawings.map .search ∧
    ((after o before).load db).1 = .ok catalog

/-- Whether a search for the drawing finds something, told by the catalog and
the recorded rows alone. -/
def Succeeds (o : Query.Options) (catalog : Catalog) (f : Fixture)
    (d : Drawing) : Prop :=
  ∃ found, Yields o catalog f d found

/-! ## Searches in a row -/

/-- The explorer after a search for each drawing. -/
def searchAll (e : Explorer) (drawings : List Drawing) : Explorer :=
  drawings.foldl (fun e d => (e.search d).2) e

theorem foldl_perform_search (e : Explorer) (drawings : List Drawing) :
    (drawings.map .search).foldl perform e = e.searchAll drawings :=
  List.foldl_map

/-- Whether two connections are to one database with one catalog and as many
sessions open. -/
structure Keeps (c c' : Connection) : Prop where
  catalog : c'.catalog = c.catalog
  fixture : c'.database.fixture = c.database.fixture
  openSessions : c'.database.openSessions = c.database.openSessions

theorem Keeps.refl (c : Connection) : Keeps c c := ⟨rfl, rfl, rfl⟩

theorem Keeps.trans {c'' : Connection} (h : Keeps c c') (h' : Keeps c' c'') :
    Keeps c c'' :=
  ⟨h'.catalog.trans h.catalog, h'.fixture.trans h.fixture,
    h'.openSessions.trans h.openSessions⟩

/-- A search that does not succeed leaves all that is remembered; only the count
of sessions may differ. -/
theorem connection_search (h : e.connection = some c) (d : Drawing) :
    ∃ c', (e.search d).2 = { e with connection := some c' } ∧ Keeps c c' ∧
      ((∀ found, (e.search d).1 ≠ .ok found) →
        c'.lastSearch = c.lastSearch) := by
  rcases search_cases h d with
    ⟨fault, -, hsearch⟩ | ⟨g, failure, -, -, hsearch⟩ |
    ⟨g, found, -, -, hsearch⟩
  · refine ⟨c, ?_, .refl c, fun _ => rfl⟩
    rw [hsearch, ← h]
  · exact ⟨c.visited, by rw [hsearch], ⟨rfl, rfl, rfl⟩, fun _ => rfl⟩
  · refine ⟨c.searched g (query e.options c.catalog g),
      by rw [hsearch], ⟨rfl, rfl, rfl⟩, fun hnone => absurd ?_ (hnone found)⟩
    rw [hsearch]

/-- A search that succeeds is remembered. -/
theorem connection_search_of_yields (h : e.connection = some c)
    (hreach : c.database.fixture.unreachable = false) {g : Graph}
    (hgraph : d.graph = .ok g)
    (hyields : Yields e.options c.catalog c.database.fixture d found) :
    ∃ c', (e.search d).2 = { e with connection := some c' } ∧ Keeps c c' ∧
      c'.lastSearch = some (g, query e.options c.catalog g) := by
  have hfound : (e.search d).1 = .ok found := by
    rw [fst_search h, answer_eq_ok_iff hreach]
    exact hyields
  rcases search_cases h d with
    ⟨fault, -, hsearch⟩ | ⟨g', failure, -, -, hsearch⟩ |
    ⟨g', found', hgraph', -, hsearch⟩
  · rw [hsearch] at hfound
    cases hfound
  · rw [hsearch] at hfound
    cases hfound
  · rw [hgraph] at hgraph'
    cases hgraph'
    exact ⟨c.searched g (query e.options c.catalog g),
      by rw [hsearch], ⟨rfl, rfl, rfl⟩, rfl⟩

/-- Searches keep the connection, and what is remembered if none of them
succeeds. -/
theorem connection_searchAll (hreach : c.database.fixture.unreachable = false)
    (h : e.connection = some c) (drawings : List Drawing) :
    ∃ c', e.searchAll drawings = { e with connection := some c' } ∧ Keeps c c' ∧
      ((∀ d ∈ drawings, ¬Succeeds e.options c.catalog c.database.fixture d) →
        c'.lastSearch = c.lastSearch) := by
  induction drawings using List.reverseRecOn with
  | nil => exact ⟨c, by rw [← h]; rfl, .refl c, fun _ => rfl⟩
  | append_singleton drawings d ih =>
    obtain ⟨c₁, hbefore, hkeeps, hlast⟩ := ih
    have hconnection : (e.searchAll drawings).connection = some c₁ := by
      rw [hbefore]
    have hoptions : (e.searchAll drawings).options = e.options := by
      rw [hbefore]
    have hstep : e.searchAll (drawings ++ [d]) =
        ((e.searchAll drawings).search d).2 := by
      rw [searchAll, List.foldl_append]
      rfl
    obtain ⟨c₂, hafter, hkeeps', hlast'⟩ := connection_search hconnection d
    refine ⟨c₂,
      by rw [hstep, hafter, hbefore], hkeeps.trans hkeeps', fun hnone => ?_⟩
    rw [hlast' ?_, hlast fun d' hd' => hnone d' (List.mem_append_left _ hd')]
    intro found hfound
    rw [fst_search hconnection,
      answer_eq_ok_iff (by rw [hkeeps.fixture, hreach]), hoptions,
      hkeeps.catalog, hkeeps.fixture] at hfound
    exact hnone d (List.mem_append_right _ List.mem_cons_self) ⟨found, hfound⟩

/-- After searches, the last one that succeeded is remembered, by those that
follow it without success. -/
theorem connection_searchAll_of_yields
    (hreach : c.database.fixture.unreachable = false)
    (h : e.connection = some c) {earlier later : List Drawing} {g : Graph}
    (hgraph : d.graph = .ok g)
    (hyields : Yields e.options c.catalog c.database.fixture d found)
    (hlater : ∀ d' ∈ later,
      ¬Succeeds e.options c.catalog c.database.fixture d') :
    ∃ c', e.searchAll (earlier ++ d :: later) =
      { e with connection := some c' } ∧
      c'.lastSearch = some (g, query e.options c.catalog g) := by
  obtain ⟨c₁, hbefore, hkeeps, -⟩ := connection_searchAll hreach h earlier
  have hconnection : (e.searchAll earlier).connection = some c₁ := by
    rw [hbefore]
  have hoptions : (e.searchAll earlier).options = e.options := by rw [hbefore]
  have hreach₁ : c₁.database.fixture.unreachable = false := by
    rw [hkeeps.fixture, hreach]
  rw [← hoptions, ← hkeeps.catalog, ← hkeeps.fixture] at hyields hlater
  obtain ⟨c₂, hafter, hkeeps', hlast⟩ :=
    connection_search_of_yields hconnection hreach₁ hgraph hyields
  have hstep : e.searchAll (earlier ++ d :: later) =
      (((e.searchAll earlier).search d).2).searchAll later := by
    rw [searchAll, List.foldl_append]
    rfl
  rw [← hkeeps'.catalog, ← hkeeps'.fixture] at hlater
  obtain ⟨c₃, hend, -, hlast'⟩ :=
    connection_searchAll (e := ((e.searchAll earlier).search d).2)
    (by rw [hkeeps'.fixture, hreach₁]) (by rw [hafter]) later
  refine ⟨c₃, by rw [hstep, hend, hafter, hbefore], ?_⟩
  rw [hlast' (by rw [hafter]; exact hlater), hlast, hoptions, hkeeps.catalog]

theorem searchAll_of_not_connected (h : e.connection = none)
    (drawings : List Drawing) :
    e.searchAll drawings = e := by
  induction drawings with
  | nil => rfl
  | cons d rest ih =>
    rw [searchAll, List.foldl_cons, search_of_not_connected h]
    exact ih

/-! ## How a history ends -/

theorem options_perform (e : Explorer)
    (r : Request) : (e.perform r).options = e.options := by
  cases r with
  | load db => rw [perform, load_eq]
  | search d =>
    cases h : e.connection with
    | none => rw [perform, search_of_not_connected h]
    | some c =>
      obtain ⟨c', hsearch, -⟩ := connection_search h d
      rw [perform, hsearch]
  | disconnect => rfl

/-- Requests change no options. -/
theorem options_after (o : Query.Options) (requests : List Request) :
    (after o requests).options = o := by
  induction requests using List.reverseRecOn with
  | nil => rfl
  | append_singleton requests r ih =>
    rw [after, List.foldl_append]
    exact (options_perform _ r).trans ih

theorem after_append_load (before : List Request) (db : Replay)
    (drawings : List Drawing) :
    after o (before ++ .load db :: drawings.map .search) =
      ((after o before).load db).2.searchAll drawings := by
  rw [after, List.foldl_append, List.foldl_cons, foldl_perform_search]
  rfl

/-- Any requests end with searches, after a load, after a disconnection or from
the start. -/
theorem exists_ending (requests : List Request) : ∃ drawings : List Drawing,
    requests = drawings.map .search ∨
    (∃ before, requests = before ++ .disconnect :: drawings.map .search) ∨
    ∃ before db, requests = before ++ .load db :: drawings.map .search := by
  induction requests using List.reverseRecOn with
  | nil => exact ⟨[], .inl rfl⟩
  | append_singleton requests r ih =>
    cases r with
    | load db => exact ⟨[], .inr (.inr ⟨requests, db, rfl⟩)⟩
    | disconnect => exact ⟨[], .inr (.inl ⟨requests, rfl⟩)⟩
    | search d =>
      obtain ⟨drawings, rfl | ⟨before, rfl⟩ | ⟨before, db, rfl⟩⟩ := ih
      · exact ⟨drawings ++ [d], .inl (by simp)⟩
      · exact ⟨drawings ++ [d], .inr (.inl ⟨before, by simp⟩)⟩
      · exact ⟨drawings ++ [d], .inr (.inr ⟨before, db, by simp⟩)⟩

variable {requests : List Request} {db : Replay} {catalog : Catalog}
  {drawings : List Drawing}

/-- What an explorer holds after a load that succeeded and searches: what came
before the load has left no trace. -/
theorem connection_of_loaded (h : Loaded o requests db catalog drawings) :
    (Catalog.ofReplay db).1 = .ok catalog ∧ db.fixture.unreachable = false ∧
      after o requests =
        searchAll { options := o,
                    connection := some (.fresh db catalog) } drawings ∧
      ∃ c, (after o requests).connection = some c ∧
          Keeps (.fresh db catalog) c := by
  obtain ⟨before, rfl, hload⟩ := h
  rw [load_eq] at hload
  simp only at hload
  have hreach : db.fixture.unreachable = false := by
    rw [ofReplay_eq] at hload
    obtain ⟨_, hverify, -⟩ := bind_eq_ok_iff.1 hload
    rw [Replay.verify_eq] at hverify
    simpa using hverify
  have hafter : after o (before ++ .load db :: drawings.map .search) =
      searchAll { options := o,
                  connection := some (.fresh db catalog) } drawings := by
    rw [after_append_load, load_eq, hload, options_after]
    rfl
  obtain ⟨c, hend, hkeeps, -⟩ := connection_searchAll
    (e := { options := o, connection := some (.fresh db catalog) })
    hreach rfl drawings
  exact ⟨hload, hreach, hafter, c, by rw [hafter, hend], hkeeps⟩

/-- Without a load that succeeded before the last searches there is no
connection. -/
theorem loaded_or_not_connected (o : Query.Options) (requests : List Request) :
    (∃ db catalog drawings, Loaded o requests db catalog drawings) ∨
      (after o requests).connection = none := by
  obtain ⟨drawings, rfl | ⟨before, rfl⟩ | ⟨before, db, rfl⟩⟩ :=
    exists_ending requests
  · right
    rw [after, foldl_perform_search, searchAll_of_not_connected rfl]
  · right
    rw [after, List.foldl_append, List.foldl_cons, foldl_perform_search,
      searchAll_of_not_connected rfl]
    rfl
  · cases hload : ((after o before).load db).1 with
    | ok catalog => exact .inl ⟨db, catalog, drawings, before, rfl, hload⟩
    | error failure =>
      right
      have hnone : ((after o before).load db).2.connection = none := by
        rw [load_eq] at hload ⊢
        simp only at hload
        simp [hload, Except.toOption]
      rw [after_append_load, searchAll_of_not_connected hnone, hnone]

/-! ## What is remembered -/

/-- What an explorer has to show after some requests, told by the requests:
connection, catalog, last search, and what the next search yields. -/
structure Remembers (o : Query.Options) (requests : List Request)
    (e : Explorer) : Prop where
  /-- it is connected iff some load succeeded and nothing but searches
  followed it -/
  connected_iff : e.isConnected = true ↔
    ∃ db catalog drawings, Loaded o requests db catalog drawings
  /-- without a connection it shows nothing and finds nothing -/
  not_connected : e.isConnected = false → e.catalog = none ∧
    e.queryGraph = none ∧
    e.lastQuery = none ∧ e.database = none ∧
    ∀ d, e.search d = (.error .notConnected, e)
  /-- the catalog is that of the database -/
  catalog : ∀ db catalog drawings, Loaded o requests db catalog drawings →
    (Catalog.ofReplay db).1 = .ok catalog ∧ e.catalog = some catalog
  /-- the database is the one that was loaded, with as many sessions open -/
  database : ∀ db catalog drawings, Loaded o requests db catalog drawings →
    ∃ current, e.database = some current ∧ current.fixture = db.fixture ∧
      current.openSessions = db.openSessions
  /-- no graph and no query is shown before a search succeeded -/
  nothing_found : ∀ db catalog drawings, Loaded o requests db catalog drawings →
    (∀ d ∈ drawings, ¬Succeeds o catalog db.fixture d) → e.queryGraph = none ∧
    e.lastQuery = none
  /-- after that, those of the last search that did -/
  last_found : ∀ db catalog earlier d later g,
    Loaded o requests db catalog (earlier ++ d :: later) →
    Succeeds o catalog db.fixture d → d.graph = .ok g →
    (∀ d' ∈ later, ¬Succeeds o catalog db.fixture d') →
    e.queryGraph = some g ∧ e.lastQuery = some (query o catalog g)
  /-- a search finds what the only row recorded for its query says -/
  answers : ∀ db catalog drawings, Loaded o requests db catalog drawings →
    ∀ d found, (e.search d).1 = .ok found ↔ Yields o catalog db.fixture d found
  /-- whatever led to the connection to a database, a search of it
  yields the same -/
  local_answers : ∀ requests' d,
    (after o requests').database.map Replay.fixture =
    e.database.map Replay.fixture →
    ((after o requests').search d).1 = (e.search d).1
  /-- a search that fails changes nothing that is shown -/
  failed_search : ∀ d failure, (e.search d).1 = .error failure →
    (e.search d).2.view = e.view

/-- A search that fails keeps what is shown, at whatever stage it fails. -/
theorem view_of_search_eq_error {failure : Failure}
    (h : (e.search d).1 = .error failure) :
    (e.search d).2.view = e.view := by
  cases hconnection : e.connection with
  | none => rw [search_of_not_connected hconnection]
  | some c =>
    obtain ⟨c', hsearch, hkeeps, hlast⟩ := connection_search hconnection d
    have hnone : ∀ found, (e.search d).1 ≠ .ok found := by
      intro found hfound
      rw [h] at hfound
      cases hfound
    simp only [view, isConnected, Explorer.catalog, queryGraph, lastQuery,
      Explorer.database, hsearch, hconnection, Option.map_some,
      Option.bind_some, Option.isSome_some, hkeeps.catalog, hkeeps.fixture,
      hkeeps.openSessions, hlast hnone]

/-- A connection has the catalog of its database, which can be reached. -/
theorem catalog_of_connection (h : (after o requests).connection = some c) :
    (Catalog.ofReplay c.database).1 = .ok c.catalog ∧
    c.database.fixture.unreachable = false := by
  rcases loaded_or_not_connected o requests with
    ⟨db, catalog, drawings, hloaded⟩ | hnone
  · obtain ⟨hread, hreach, -, c', hc, hkeeps⟩ := connection_of_loaded hloaded
    rw [h] at hc
    cases hc
    have hfixture : c.database.fixture = db.fixture := hkeeps.fixture
    rw [fst_ofReplay_congr hfixture, hkeeps.catalog, hfixture]
    exact ⟨hread, hreach⟩
  · rw [h] at hnone
    cases hnone

/-- What a search after any requests yields depends on the database only, not on
how often it was searched. -/
theorem fst_search_after_congr {requests' : List Request}
    (h : (after o requests').database.map Replay.fixture =
      (after o requests).database.map Replay.fixture) (d : Drawing) :
    ((after o requests').search d).1 = ((after o requests).search d).1 := by
  cases hc : (after o requests).connection with
  | none =>
    cases hc' : (after o requests').connection with
    | none => rw [search_of_not_connected hc, search_of_not_connected hc']
    | some c' => simp [Explorer.database, hc, hc'] at h
  | some c =>
    cases hc' : (after o requests').connection with
    | none => simp [Explorer.database, hc, hc'] at h
    | some c' =>
      have hfixture : c'.database.fixture = c.database.fixture := by
        simpa [Explorer.database, hc, hc'] using h
      have hcatalog : c'.catalog = c.catalog := by
        have hread := (catalog_of_connection hc').1
        rw [fst_ofReplay_congr hfixture, (catalog_of_connection hc).1] at hread
        exact (Except.ok.inj hread).symm
      rw [fst_search hc, fst_search hc', options_after, options_after,
        answer_congr hcatalog hfixture]

/-- After any requests an explorer shows what they make it remember, and nothing
of what came before the last load. -/
theorem after_remembers (o : Query.Options) (requests : List Request) :
    Remembers o requests (after o requests) where
  connected_iff := by
    constructor
    · intro hconnected
      rcases loaded_or_not_connected o requests with hloaded | hnone
      · exact hloaded
      · rw [isConnected, hnone] at hconnected
        cases hconnected
    · rintro ⟨db, catalog, drawings, hloaded⟩
      obtain ⟨-, -, -, c, hc, -⟩ := connection_of_loaded hloaded
      rw [isConnected, hc]
      rfl
  not_connected hnot := by
    have hnone : (after o requests).connection = none := by
      simpa [isConnected] using hnot
    exact ⟨by rw [Explorer.catalog, hnone]; rfl, by rw [queryGraph, hnone]; rfl,
      by rw [lastQuery, hnone]; rfl, by rw [Explorer.database, hnone]; rfl,
      search_of_not_connected hnone⟩
  catalog db catalog drawings hloaded := by
    obtain ⟨hread, -, -, c, hc, hkeeps⟩ := connection_of_loaded hloaded
    exact ⟨hread, by
      rw [Explorer.catalog, hc, Option.map_some, hkeeps.catalog]; rfl⟩
  database db catalog drawings hloaded := by
    obtain ⟨-, -, -, c, hc, hkeeps⟩ := connection_of_loaded hloaded
    exact ⟨c.database,
      by rw [Explorer.database, hc]; rfl, hkeeps.fixture, hkeeps.openSessions⟩
  nothing_found db catalog drawings hloaded hnone := by
    obtain ⟨-, hreach, hafter, -⟩ := connection_of_loaded hloaded
    obtain ⟨c, hend, -, hlast⟩ := connection_searchAll
      (e := { options := o, connection := some (.fresh db catalog) })
      hreach rfl drawings
    rw [hafter, hend, queryGraph, lastQuery, Option.bind_some, hlast hnone]
    exact ⟨rfl, rfl⟩
  last_found db catalog earlier d later g hloaded hsucceeds hgraph hlater := by
    obtain ⟨found, hyields⟩ := hsucceeds
    obtain ⟨-, hreach, hafter, -⟩ := connection_of_loaded hloaded
    obtain ⟨c, hend, hlast⟩ := connection_searchAll_of_yields
      (e := { options := o, connection := some (.fresh db catalog) }) hreach rfl
      hgraph hyields hlater
    rw [hafter, hend, queryGraph, lastQuery, Option.bind_some, hlast]
    exact ⟨rfl, rfl⟩
  answers db catalog drawings hloaded d found := by
    obtain ⟨-, hreach, -, c, hc, hkeeps⟩ := connection_of_loaded hloaded
    have hfixture : c.database.fixture = db.fixture := hkeeps.fixture
    rw [fst_search hc, options_after,
      answer_eq_ok_iff (by rw [hfixture, hreach]), hkeeps.catalog, hfixture]
    exact Iff.rfl
  local_answers _ d h := fst_search_after_congr h d
  failed_search _ _ := view_of_search_eq_error

/-! ## A history -/

/-- The query of a graph is none of the fixed queries behind a catalog: those
are one line. -/
theorem text_not_mem_fixedQueries (c : Query.Compiler) (g : Graph) :
    (c.compile g).text ∉ Catalog.fixedQueries := by
  intro hfixed
  refine Catalog.line_feed_not_mem_of_fixed _ hfixed ?_
  rw [Query.written c g]
  simp

/-- An inventory of an empty database, with no label and no type to count. -/
def emptyInventory : Catalog.Inventory where
  storable := fun _ h => absurd h (Option.not_mem_none _)

/-- Nothing is listed of an empty database. -/
def emptyListing : Catalog.Listing emptyInventory where
  labels := []
  types := []
  nodes := []
  relationships := []
  mem_labels := fun _ => Iff.rfl
  mem_types := fun _ => Iff.rfl
  mem_nodes := by simp [emptyInventory]
  mem_relationships := by simp [emptyInventory]

theorem queries_emptyListing :
    emptyListing.responses.map Prod.fst = Catalog.fixedQueries := rfl

/-- Whatever row is to answer the query of a graph, some database has it
recorded under that query, and its catalog can be read. -/
theorem exists_recording (o : Query.Options) (g : Graph) (row : Row) :
    ∃ db catalog,
    (Catalog.ofReplay db).1 = .ok catalog ∧
      Map.get? db.fixture.responses (query o catalog g).text = some [row] := by
  let q := query o emptyInventory.catalog g
  have hnodup :
      (((q.text, [row]) :: emptyListing.responses).map Prod.fst).Nodup := by
    rw [List.map_cons, List.nodup_cons, queries_emptyListing]
    exact ⟨text_not_mem_fixedQueries _ g,
      queries_emptyListing ▸ emptyListing.nodup_responses⟩
  have hread : ∀ response ∈ (q.text, [row]) :: emptyListing.responses,
      (Catalog.recorded
        ((q.text, [row]) :: emptyListing.responses)).fixture.read response.1 =
        .ok response.2 := fun _ => Catalog.read_recorded hnodup
  generalize hdb :
    Catalog.recorded ((q.text, [row]) :: emptyListing.responses) = db at hread
  have hverified : db.verify = .ok () := by
    rw [← hdb, Catalog.recorded_eq]
    rfl
  refine ⟨db, emptyInventory.catalog, ?_,
    Fixture.read_eq_ok_iff.1 (hread (q.text, [row]) List.mem_cons_self)⟩
  rw [ofReplay_eq, hverified]
  exact Catalog.retrieve_of_responses emptyListing fun response hmem =>
    hread response (List.mem_cons_of_mem _ hmem)

/-- Two vertices joined by an edge. -/
def joined : Drawing where
  vertices :=
    [{ key := "p", traits := { label := some "Person" } }, { key := "q" }]
  edges := [{ source := "p", target := "q" }]

/-- A row with one match of `joined`: two stored nodes and the relationship
between them. -/
def joinedRow : Row :=
  Row.ofColumns [{ id := 101, labels := ["Person"] },
    { id := 102 }] [⟨55, 101, 102, "KNOWS", ∅⟩]
    [⟨[101, 102], [55]⟩]

/-- The row is assembled for the query of the drawing, whatever the catalog. -/
theorem exists_assemble_joinedRow {g : Graph} (hnodes : g.nodeIds = [0, 1])
    (hrelations : g.relationIds = [0]) (catalog : Catalog) :
    ∃ found,
    (Matches.Assembler.ofQuery (query {} catalog g)).assemble joinedRow =
      .ok found := by
  let a := Matches.Assembler.ofQuery (query {} catalog g)
  have hfits : ∀ b ∈ [(⟨[101, 102], [55]⟩ : Binding)], b.Fits a.shape := by
    rintro b hb shape ⟨⟩
    rw [List.mem_singleton.1 hb]
    simp [query, Query.Compiler.compile, Query.Shape.ofGraph,
      Query.Shape.nodeArity, Query.Shape.relationArity, hnodes, hrelations]
  have hrow : joinedRow.WellFormed a.shape
      [{ id := 101, labels := ["Person"] }, { id := 102 }]
      [⟨55, 101, 102, "KNOWS", ∅⟩] [⟨[101, 102], [55]⟩] :=
    Row.wellFormed_ofColumns (by unfold EndsListed; decide) hfits
      (by unfold Binding.Listed; decide)
  obtain ⟨found, hfound, -⟩ := Matches.Assembler.assembled_of_wellFormed hrow
  exact ⟨found, hfound⟩

/-- A database that has a row for the query of a drawing is loaded and searched
for that drawing, then for one without vertices.  The explorer is connected and
shows the catalog, and still the graph and the query of the search that
succeeded. -/
theorem after_remembers_search : ∃ db catalog g,
    Loaded {} [.load db, .search joined, .search {}] db catalog [joined, {}] ∧
      joined.graph = .ok g ∧ Succeeds {} catalog db.fixture joined ∧
      ¬Succeeds {} catalog db.fixture {} ∧
      (after {} [.load db, .search joined, .search {}]).isConnected = true ∧
      (after {} [.load db, .search joined, .search {}]).catalog = some catalog ∧
      (after {} [.load db, .search joined, .search {}]).queryGraph = some g ∧
      (after {} [.load db, .search joined, .search {}]).lastQuery =
      some (query {} catalog g) := by
  obtain ⟨g, hgraph, hids⟩ := Graph.exists_of_any (x := joined.graph)
    (P := fun g => decide (g.nodeIds = [0, 1] ∧ g.relationIds = [0]))
    (by decide +kernel)
  obtain ⟨hnodes, hrelations⟩ := of_decide_eq_true hids
  obtain ⟨db, catalog, hcatalog, hrow⟩ := exists_recording {} g joinedRow
  have hloaded : Loaded {} [.load db, .search joined, .search {}] db catalog
      ([] ++ joined :: [{}]) := by
    refine ⟨[], rfl, ?_⟩
    rw [load_eq]
    exact hcatalog
  have hsucceeds : Succeeds {} catalog db.fixture joined := by
    obtain ⟨found, hfound⟩ :=
      exists_assemble_joinedRow hnodes hrelations catalog
    exact ⟨found, g, joinedRow, hgraph, hrow, hfound⟩
  have hrefused : ¬Succeeds {} catalog db.fixture {} := by
    rintro ⟨found, g', row, hgraph', -⟩
    have hempty : ({} : Drawing).graph = .error .empty := rfl
    rw [hempty] at hgraph'
    cases hgraph'
  have hremembers := after_remembers {} [.load db, .search joined, .search {}]
  obtain ⟨hqueryGraph, hlastQuery⟩ :=
    hremembers.last_found db catalog [] joined [{}] g hloaded
    hsucceeds hgraph fun d hd => by rwa [List.mem_singleton.1 hd]
  exact ⟨db, catalog, g, hloaded, hgraph, hsucceeds, hrefused,
    hremembers.connected_iff.2 ⟨db, catalog, _, hloaded⟩,
    (hremembers.catalog db catalog _ hloaded).2, hqueryGraph, hlastQuery⟩

end DrawnPattern.Explorer
