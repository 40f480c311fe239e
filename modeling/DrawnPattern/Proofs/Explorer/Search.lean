import DrawnPattern.Explorer
import DrawnPattern.Proofs.Replay.Reading
import DrawnPattern.Proofs.Replay.Session
set_option autoImplicit false

/-!
# What a load and a search do

A load and a search each depend on little and change little.  A load yields what
examining the database yields, whatever was held before (`load_eq`).  A search
of a connection yields what its catalog and its recorded rows yield for the
drawing (`answer`), visits the database if the drawing has a graph, and
remembers the graph and the query if it finds something (`search_cases`).
-/

namespace DrawnPattern

/-- The connection to a database whose catalog was just read. -/
def Connection.fresh (db : Replay) (catalog : Catalog) : Connection :=
  { database := db.visited, catalog }

/-- The connection after a task in its database, which opened and closed a
session if it could be reached. -/
def Connection.visited (c : Connection) : Connection :=
  { c with database := c.database.visited }

/-- The connection after a search that found something. -/
def Connection.searched (c : Connection) (g : Graph) (q : Query.CompiledQuery) :
    Connection :=
  { c.visited with lastSearch := some (g, q) }

namespace Explorer

variable {e : Explorer} {c : Connection} {db : Replay} {d : Drawing}

/-! ## Loading -/

/-- A catalog is read by the queries behind it if the database can
be reached. -/
theorem ofReplay_eq (db : Replay) : Catalog.ofReplay db =
    (db.verify >>= fun _ => Catalog.retrieve db.fixture.read, db.visited) :=
  Replay.inSession_eq db Catalog.retrieve

/-- The database is visited only once, since one that cannot be reached opens
no session. -/
theorem examine_eq (db : Replay) : examine db = Catalog.ofReplay db := by
  unfold examine
  cases h : db.fixture.unreachable with
  | true =>
    rw [ofReplay_eq, Replay.verify_eq, h, Replay.visited, h]
    rfl
  | false =>
    rw [Replay.verify_eq, h]
    rfl

/-- What is loaded is the database after its catalog was read; whatever was
connected before is given up either way. -/
theorem load_eq (e : Explorer) (db : Replay) : e.load db =
    ((Catalog.ofReplay db).1,
      { e with
        connection :=
          (Catalog.ofReplay db).1.toOption.map (Connection.fresh db) }) := by
  have hvisited : (Catalog.ofReplay db).2 = db.visited := by rw [ofReplay_eq]
  rw [load, examine_eq]
  split
  · rename_i heq
    rw [heq]
    rfl
  · rename_i catalog db' heq
    rw [heq] at hvisited ⊢
    obtain rfl : db' = db.visited := hvisited
    rfl

/-- The catalog of a database depends on its fixture only, not on the sessions
that were opened before. -/
theorem fst_ofReplay_congr {db' : Replay} (h : db.fixture = db'.fixture) :
    (Catalog.ofReplay db).1 = (Catalog.ofReplay db').1 := by
  simp only [ofReplay_eq, Replay.verify_eq, h]

/-! ## Searching -/

/-- The query for the graph of a drawing. -/
def query (o : Query.Options) (catalog : Catalog) (g : Graph) :
    Query.CompiledQuery :=
  Query.Compiler.compile ⟨o, some catalog⟩ g

/-- What a query finds in a database: the matches in its only row, told without
the session that is opened for it. -/
def outcome (db : Replay) (q : Query.CompiledQuery) : Except Failure Matches :=
  (db.verify >>= fun _ => db.fixture.read.single q.text) >>=
    (Matches.Assembler.ofQuery q).assemble

/-- What a search of a connection yields, as a function of its catalog and its
database alone. -/
def answer (o : Query.Options) (c : Connection) (d : Drawing) :
    Except Failure Matches :=
  d.graph.mapError .graph >>= fun g => outcome c.database (query o c.catalog g)

theorem run_eq (db : Replay) (q : Query.CompiledQuery) :
    run db q = (outcome db q, db.visited) := by
  rw [run, Replay.inSession_eq]
  rfl

theorem search_of_not_connected (h : e.connection = none) (d : Drawing) :
    e.search d = (.error .notConnected, e) := by
  rw [search, h]

/-- A search of a connection is turned down for its drawing, or visits the
database, and remembers the graph and the query only if it finds something. -/
theorem search_cases (h : e.connection = some c) (d : Drawing) :
    (∃ fault, d.graph = .error fault ∧
      e.search d = (.error (.graph fault), e)) ∨
    (∃ g failure, d.graph = .ok g ∧
      outcome c.database (query e.options c.catalog g) = .error failure ∧
      e.search d = (.error failure, { e with connection := some c.visited })) ∨
    (∃ g found, d.graph = .ok g ∧
      outcome c.database (query e.options c.catalog g) = .ok found ∧
      e.search d = (.ok found,
        { e with
          connection :=
            some (c.searched g (query e.options c.catalog g)) })) := by
  unfold search
  rw [h]
  cases hgraph : d.graph with
  | error fault => exact .inl ⟨fault, rfl, rfl⟩
  | ok g =>
    right
    simp only
    rw [← query, run_eq]
    cases hout : outcome c.database (query e.options c.catalog g) with
    | error failure => exact .inl ⟨g, failure, rfl, hout, rfl⟩
    | ok found => exact .inr ⟨g, found, rfl, hout, rfl⟩

/-! ## What a search yields -/

theorem fst_search (h : e.connection = some c) (d : Drawing) :
    (e.search d).1 = answer e.options c d := by
  rcases search_cases h d with
    ⟨fault, hgraph, hsearch⟩ | ⟨g, failure, hgraph, hout, hsearch⟩ |
    ⟨g, found, hgraph, hout, hsearch⟩
  all_goals rw [hsearch, answer, hgraph]
  · rfl
  · exact hout.symm
  · exact hout.symm

/-- What a search yields depends on the options, the catalog, the recorded rows
and the drawing. -/
theorem answer_congr {c' : Connection} (hcatalog : c.catalog = c'.catalog)
    (hfixture : c.database.fixture = c'.database.fixture) (o : Query.Options)
    (d : Drawing) :
    answer o c d = answer o c' d := by
  simp only [answer, outcome, Replay.verify_eq, hcatalog, hfixture]

/-- What is found by a search that succeeds: the drawing has a graph, one
row is recorded under the text of its query, and that row is assembled for
the query. -/
def Yields (o : Query.Options) (catalog : Catalog) (f : Fixture) (d : Drawing)
    (found : Matches) : Prop :=
  ∃ g row, d.graph = .ok g ∧
    Map.get? f.responses (query o catalog g).text = some [row] ∧
    (Matches.Assembler.ofQuery (query o catalog g)).assemble row = .ok found

theorem answer_eq_ok_iff (hreach : c.database.fixture.unreachable = false)
    {o : Query.Options} {found : Matches} :
    answer o c d = .ok found ↔
    Yields o c.catalog c.database.fixture d found := by
  have hverify : c.database.verify = .ok () := by
    rw [Replay.verify_eq, hreach]
    rfl
  simp only [answer, outcome, Yields, bind_eq_ok_iff, mapError_eq_ok_iff,
    Reader.single_eq_ok_iff, Fixture.read_eq_ok_iff, hverify]
  constructor
  · rintro ⟨g, hgraph, row, ⟨-, -, hrow⟩, hfound⟩
    exact ⟨g, row, hgraph, hrow, hfound⟩
  · rintro ⟨g, row, hgraph, hrow, hfound⟩
    exact ⟨g, hgraph, row, ⟨(), trivial, hrow⟩, hfound⟩

end Explorer

end DrawnPattern
