import DrawnPattern.Catalog.Retrieval
import DrawnPattern.Drawing
import DrawnPattern.Matches
set_option autoImplicit false

/-!
# Exploring a database

An explorer holds at most one connection: a database with its catalog and, once
a search has succeeded, the graph and the query of the last such search.  A
failed search changes nothing but the count of sessions.
-/

namespace DrawnPattern

/-- A database that was loaded with its catalog, and the last successful
search in it. -/
structure Connection where
  database : Replay
  catalog : Catalog
  lastSearch : Option (Graph × Query.CompiledQuery) := none

/-- What an explorer remembers between requests: its options, and one
connection at most. -/
structure Explorer where
  options : Query.Options := {}
  connection : Option Connection := none

namespace Explorer

/-- Checks that a database can be reached and reads its catalog; also gives the
database after that. -/
def examine (db : Replay) : Except Failure Catalog × Replay :=
  match db.verify with
  | .error failure => (.error failure, db)
  | .ok () => Catalog.ofReplay db

/-- Loads a database.  The connection before it is given up first, also if
loading fails. -/
def load (e : Explorer) (db : Replay) : Except Failure Catalog × Explorer :=
  match examine db with
  | (.error failure, _) => (.error failure, { e with connection := none })
  | (.ok catalog, db) =>
    (.ok catalog, { e with connection := some { database := db, catalog } })

/-- Runs a query in a session of its own and assembles the matches
from its row. -/
def run (db : Replay) (q : Query.CompiledQuery) :
    Except Failure Matches × Replay :=
  let (row, db) := db.inSession fun read => read.single q.text
  (row >>= (Matches.Assembler.ofQuery q).assemble, db)

/-- Searches for a drawing.  Only a search that succeeds is remembered; the
database is kept either way, since its sessions were counted. -/
def search (e : Explorer) (d : Drawing) : Except Failure Matches × Explorer :=
  match e.connection with
  | none => (.error .notConnected, e)
  | some connection =>
    match d.graph with
    | .error fault => (.error (.graph fault), e)
    | .ok graph =>
      let query :=
        Query.Compiler.compile ⟨e.options, some connection.catalog⟩ graph
      match run connection.database query with
      | (.error failure, db) =>
        (.error failure,
          { e with connection := some { connection with database := db } })
      | (.ok found, db) =>
        (.ok found,
          { e with
            connection := some
              { connection with
                database := db, lastSearch := some (graph, query) } })

/-- Gives up the connection and returns its database, if there was one. -/
def disconnect (e : Explorer) : Option Replay × Explorer :=
  (e.connection.map Connection.database, { e with connection := none })

def isConnected (e : Explorer) : Bool := e.connection.isSome

/-- The catalog of the connection. -/
def catalog (e : Explorer) : Option Catalog :=
  e.connection.map Connection.catalog

/-- The graph of the last successful search. -/
def queryGraph (e : Explorer) : Option Graph :=
  (e.connection.bind Connection.lastSearch).map Prod.fst

/-- The query of the last successful search, which goes with the graph. -/
def lastQuery (e : Explorer) : Option Query.CompiledQuery :=
  (e.connection.bind Connection.lastSearch).map Prod.snd

/-- The database of the connection. -/
def database (e : Explorer) : Option Replay :=
  e.connection.map Connection.database

end Explorer

end DrawnPattern
