import DrawnPattern.Catalog.Retrieval
import DrawnPattern.Proofs.Failing
set_option autoImplicit false

/-!
# What a session leaves behind

A task in a session of its own reads the fixture of a database that can be
reached, and does not change it (`inSession_eq`).  Afterwards as many sessions
are open as before, and one more was opened, unless the database cannot be
reached (`visited`).
-/

namespace DrawnPattern.Replay

variable {α : Type} {db : Replay}

/-- The replay after a task in a session, whatever the task: the session is
closed again and was counted, if there was one. -/
def visited (db : Replay) : Replay :=
  { db with
    sessionsOpened :=
      db.sessionsOpened + if db.fixture.unreachable then 0 else 1 }

/-- A database that can be reached is verified, and another is not. -/
theorem verify_eq (db : Replay) : db.verify =
    if db.fixture.unreachable then .error (.database .unreachable)
    else .ok () := rfl

theorem openSession_of_reachable (h : db.fixture.unreachable = false) :
    db.openSession =
    .ok { db with openSessions := db.openSessions + 1,
                  sessionsOpened := db.sessionsOpened + 1 } := by
  rw [openSession, verify_eq, h]
  rfl

theorem openSession_of_unreachable (h : db.fixture.unreachable = true) :
    db.openSession = .error (.database .unreachable) := by
  rw [openSession, verify_eq, h]
  rfl

/-- A task in a session yields what it yields on the fixture of a database that
can be reached, and the session is closed whether it fails or not. -/
theorem inSession_eq (db : Replay) (task : Reader → Except Failure α) :
    db.inSession task = (db.verify >>= fun _ => task db.fixture.read,
      db.visited) := by
  unfold inSession visited
  cases h : db.fixture.unreachable with
  | true =>
    rw [openSession_of_unreachable h, verify_eq, h]
    rfl
  | false =>
    rw [openSession_of_reachable h, verify_eq, h]
    rfl

end DrawnPattern.Replay
