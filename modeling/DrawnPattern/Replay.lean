import DrawnPattern.Failure
set_option autoImplicit false

/-!
# Databases of recorded rows

A fixture maps the text of a query to the rows that a database returned for it.
A replay answers from a fixture and counts its sessions: how many are open, and
how many were ever opened.  An unreachable one opens none.
-/

namespace DrawnPattern

/-- Recorded rows by the text of the query, and whether the database is to
behave as one that cannot be reached. -/
structure Fixture where
  unreachable : Bool := false
  responses : Map String (List Row) := ∅

/-- Reads the rows of a query, or fails.  What reads from a database is written
against this and so knows nothing of fixtures. -/
abbrev Reader : Type := String → Except Failure (List Row)

/-- The only row of a query; a query that yields none or several is refused. -/
def Reader.single (read : Reader) (query : String) : Except Failure Row := do
  match ← read query with
  | [row] => pure row
  | rows => throw (.decode (.rowCount 1 rows.length))

/-- The rows recorded for a query.  The text has to be the same to
the letter. -/
def Fixture.read (f : Fixture) : Reader := fun query =>
  match Map.get? f.responses query with
  | some rows => pure rows
  | none => throw (.database (.unknownQuery query))

/-- A database that answers from a fixture, with the sessions that are open and
those that were ever opened. -/
structure Replay where
  fixture : Fixture := {}
  openSessions : Nat := 0
  sessionsOpened : Nat := 0

namespace Replay

/-- The replay that records these rows for a query. -/
def withResponse (db : Replay) (query : String) (rows : List Row) : Replay :=
  { db with
    fixture :=
      { db.fixture with
        responses := Map.insert db.fixture.responses query rows } }

/-- The replay that cannot be reached. -/
def unreachable (db : Replay) : Replay :=
  { db with fixture := { db.fixture with unreachable := true } }

/-- Whether the database can be reached; asking opens no session. -/
def verify (db : Replay) : Except Failure Unit :=
  if db.fixture.unreachable then throw (.database .unreachable) else pure ()

/-- The replay after a session is opened, which needs a database that can
be reached. -/
def openSession (db : Replay) : Except Failure Replay := do
  db.verify
  pure { db with openSessions := db.openSessions + 1,
                 sessionsOpened := db.sessionsOpened + 1 }

/-- The replay after a session is closed. -/
def closeSession (db : Replay) : Replay :=
  { db with openSessions := db.openSessions - 1 }

/-- Runs a task in a session of its own, which is closed whatever
comes of it. -/
def inSession {α : Type} (db : Replay) (task : Reader → Except Failure α) :
    Except Failure α × Replay :=
  match db.openSession with
  | .ok opened => (task opened.fixture.read, opened.closeSession)
  | .error failure => (.error failure, db)

end Replay

end DrawnPattern
