import DrawnPattern.Proofs.Explorer.Search
set_option autoImplicit false

/-!
# Sessions are accounted for

One replay is used by a caller, who opens and closes sessions, and by an
explorer.  However their steps interleave, the sessions that the replay counts
as open are those that the caller holds (`Counted`), so the count is never taken
below zero.  A catalog that is read and a search close the session they open, on
every path (`Balanced`); how many they open depends on whether the replay can be
reached and, for a search, on whether the drawing has a graph (`accounted_run`).
-/

namespace DrawnPattern

/-- What a replay tells its caller: whether it can be reached, or what rows were
recorded for a query. -/
inductive Answer where
  /-- whether it can be reached -/
  | checked (result : Except Failure Unit)
  /-- the rows of a query -/
  | rows (result : Except Failure (List Row))
  /-- the only row of a query -/
  | row (result : Except Failure Row)

/-- A replay in use, with what its caller holds of it and was told by it.  Only
the caller knows which of the open sessions are its own. -/
structure Usage where
  replay : Replay
  /-- the sessions that the caller opened and did not close yet, by number -/
  held : List Nat := []
  /-- the number of the next session that the caller opens -/
  next : Nat := 0
  /-- what the caller was told, the last answer first -/
  told : List Answer := []
  explorer : Explorer := {}

/-- The explorer with its connection to the replay as it is now. -/
def Explorer.sharing (e : Explorer) (db : Replay) : Explorer :=
  { e with connection := e.connection.map fun c => { c with database := db } }

namespace Usage

/-- What a caller does with a replay, and has an explorer do with it.  Sessions
are named by the order in which they were opened. -/
inductive Step where
  | verify
  | openSession
  | closeSession (session : Nat)
  | read (session : Nat) (query : String)
  | readSingle (session : Nat) (query : String)
  | retrieve
  | load
  | search (d : Drawing)
  | disconnect

/-- The usage after a session is asked for something; only one that is
held answers. -/
def asked (u : Usage) (session : Nat) (answer : Answer) : Usage :=
  if session ∈ u.held then { u with told := answer :: u.told } else u

/-- The replay in use after a step.  A check and a read go to the replay as it
is, and the caller is told what they find. -/
def perform (u : Usage) : Step → Usage
  | .verify => { u with told := .checked u.replay.verify :: u.told }
  | .read session query => u.asked session (.rows (u.replay.fixture.read query))
  | .readSingle session query =>
    u.asked session (.row (Reader.single u.replay.fixture.read query))
  | .openSession =>
    match u.replay.openSession with
    | .ok opened =>
      { u with replay := opened, held := u.next :: u.held, next := u.next + 1 }
    | .error _ => u
  | .closeSession session =>
    if session ∈ u.held then
      { u with replay := u.replay.closeSession, held := u.held.erase session }
    else u
  | .retrieve => { u with replay := (Catalog.ofReplay u.replay).2 }
  | .load =>
    { u with
      replay := (Explorer.examine u.replay).2
      explorer := (u.explorer.load u.replay).2 }
  | .search d =>
    let explorer := ((u.explorer.sharing u.replay).search d).2
    { u with replay := explorer.database.getD u.replay, explorer }
  | .disconnect => { u with explorer := u.explorer.disconnect.2 }

/-- The fresh replay of a fixture, with an explorer that is not connected, after
some steps. -/
def run (f : Fixture) (o : Query.Options) (steps : List Step) : Usage :=
  steps.foldl perform { replay := { fixture := f },
                        explorer := { options := o } }

/-! ## What steps count -/

/-- As many sessions are open as before, and so many more were opened: what a
task leaves behind that closes what it opened. -/
structure Balanced (before after : Replay) (opened : Nat) : Prop where
  openSessions : after.openSessions = before.openSessions
  sessionsOpened : after.sessionsOpened = before.sessionsOpened + opened

theorem Balanced.refl (db : Replay) : Balanced db db 0 := ⟨rfl, rfl⟩

/-- A replay that is left alone is balanced. -/
theorem Balanced.of_eq {before after : Replay} (h : after = before) :
    Balanced before after 0 :=
  h ▸ .refl after

theorem Balanced.sessionsOpened_le {before after : Replay} {opened : Nat}
    (h : Balanced before after opened) :
    before.sessionsOpened ≤ after.sessionsOpened := by
  rw [h.sessionsOpened]
  exact Nat.le_add_right _ _

theorem balanced_visited (db : Replay) :
    Balanced db db.visited (if db.fixture.unreachable then 0 else 1) :=
  ⟨rfl, rfl⟩

variable {u : Usage} {d : Drawing}

/-- What a session is asked for changes neither the replay nor the
sessions held. -/
theorem asked_keeps (u : Usage) (session : Nat) (answer : Answer) :
    (u.asked session answer).replay = u.replay ∧
    (u.asked session answer).held = u.held := by
  rw [asked]
  split <;> exact ⟨rfl, rfl⟩

theorem replay_perform_retrieve (u : Usage) :
    (u.perform .retrieve).replay = u.replay.visited := by
  rw [perform, Explorer.ofReplay_eq]

theorem replay_perform_load (u : Usage) :
    (u.perform .load).replay = u.replay.visited := by
  rw [perform, Explorer.examine_eq, Explorer.ofReplay_eq]

theorem balanced_perform_retrieve (u : Usage) :
    Balanced u.replay (u.perform .retrieve).replay
    (if u.replay.fixture.unreachable then 0 else 1) := by
  rw [replay_perform_retrieve]
  exact balanced_visited u.replay

theorem balanced_perform_load (u : Usage) :
    Balanced u.replay (u.perform .load).replay
    (if u.replay.fixture.unreachable then 0 else 1) := by
  rw [replay_perform_load]
  exact balanced_visited u.replay

/-- A load that succeeds holds the replay that was used for it. -/
theorem database_perform_load
    (h : (u.perform .load).explorer.isConnected = true) :
    (u.perform .load).explorer.database = some (u.perform .load).replay := by
  rw [replay_perform_load]
  rw [perform, Explorer.load_eq] at h ⊢
  cases hread : (Catalog.ofReplay u.replay).1 with
  | error failure =>
    rw [hread] at h
    cases h
  | ok catalog => rfl

theorem replay_perform_search_of_not_connected
    (h : u.explorer.isConnected = false) (d : Drawing) :
    (u.perform (.search d)).replay = u.replay := by
  have hsharing : (u.explorer.sharing u.replay).connection = none := by
    simpa [Explorer.sharing, Explorer.isConnected] using h
  rw [perform, Explorer.search_of_not_connected hsharing]
  simp [Explorer.database, hsharing]

/-- A search visits the replay if the drawing has a graph, and leaves it alone
otherwise. -/
theorem replay_perform_search (h : u.explorer.isConnected = true)
    (d : Drawing) :
    (u.perform (.search d)).replay = if d.graph.isOk then u.replay.visited
    else u.replay := by
  obtain ⟨c, hc⟩ := Option.isSome_iff_exists.1 h
  have hsharing : (u.explorer.sharing u.replay).connection =
      some { c with database := u.replay } := by
    rw [Explorer.sharing, hc]
    rfl
  rw [perform]
  rcases Explorer.search_cases hsharing d with ⟨fault, hgraph, hsearch⟩ |
    ⟨g, failure, hgraph, -, hsearch⟩ | ⟨g, found, hgraph, -, hsearch⟩
  · simp [hsearch, hgraph, Explorer.database, hsharing, Except.isOk,
      Except.toBool]
  · simp [hsearch, hgraph, Explorer.database, Except.isOk, Except.toBool,
      Connection.visited]
  · simp [hsearch, hgraph, Explorer.database, Except.isOk, Except.toBool,
      Connection.searched, Connection.visited]

theorem balanced_perform_search (h : u.explorer.isConnected = true)
    (d : Drawing) :
    Balanced u.replay (u.perform (.search d)).replay
      (if u.replay.fixture.unreachable || !d.graph.isOk then 0 else 1) := by
  rw [replay_perform_search h]
  cases d.graph.isOk with
  | false => simpa using Balanced.refl u.replay
  | true => simpa using balanced_visited u.replay

/-! ## The invariant -/

/-- The open sessions of a replay are those that the caller holds, and no more
are open than were ever opened.  This is kept by every step. -/
structure Counted (u : Usage) : Prop where
  openSessions : u.replay.openSessions = u.held.length
  openSessions_le : u.replay.openSessions ≤ u.replay.sessionsOpened

theorem Counted.of_balanced {opened : Nat} {u' : Usage} (h : u.Counted)
    (hbalanced : Balanced u.replay u'.replay opened)
    (hheld : u'.held = u.held) : u'.Counted := by
  refine ⟨?_, ?_⟩
  · rw [hbalanced.openSessions, hheld, h.openSessions]
  · rw [hbalanced.openSessions]
    exact Nat.le_trans h.openSessions_le hbalanced.sessionsOpened_le

theorem Counted.asked (h : u.Counted) (session : Nat) (answer : Answer) :
    (u.asked session answer).Counted := by
  obtain ⟨hreplay, hheld⟩ := asked_keeps u session answer
  exact h.of_balanced (.of_eq hreplay) hheld

/-- Every step keeps count.  What a task opens it closes, so only the steps of
the caller change what is open. -/
theorem Counted.perform (h : u.Counted)
    (step : Step) : (u.perform step).Counted := by
  cases step with
  | verify => exact ⟨h.openSessions, h.openSessions_le⟩
  | read | readSingle => exact h.asked _ _
  | openSession =>
    rw [Usage.perform]
    cases hreach : u.replay.fixture.unreachable with
    | true =>
      rw [Replay.openSession_of_unreachable hreach]
      exact h
    | false =>
      rw [Replay.openSession_of_reachable hreach]
      exact ⟨congrArg (· + 1) h.openSessions,
        Nat.succ_le_succ h.openSessions_le⟩
  | closeSession session =>
    rw [Usage.perform]
    split
    · rename_i hheld
      refine ⟨?_, Nat.le_trans (Nat.sub_le _ _) h.openSessions_le⟩
      rw [List.length_erase_of_mem hheld, ← h.openSessions]
      rfl
    · exact h
  | retrieve => exact h.of_balanced (balanced_perform_retrieve u) rfl
  | load => exact h.of_balanced (balanced_perform_load u) rfl
  | search d =>
    cases hconnected : u.explorer.isConnected with
    | false =>
      have hkept := replay_perform_search_of_not_connected hconnected d
      exact h.of_balanced (.of_eq hkept) rfl
    | true => exact h.of_balanced (balanced_perform_search hconnected d) rfl
  | disconnect => exact ⟨h.openSessions, h.openSessions_le⟩

/-- However steps interleave, they keep count, from the fresh replay on by
induction on the steps. -/
theorem counted_run (f : Fixture) (o : Query.Options) (steps : List Step) :
    (run f o steps).Counted :=
  steps.foldlRecOn perform ⟨rfl, Nat.le_refl 0⟩ fun _ h step _ => h.perform step

/-- No step forgets that a session was opened. -/
theorem sessionsOpened_le_perform (u : Usage) (step : Step) :
    u.replay.sessionsOpened ≤ (u.perform step).replay.sessionsOpened := by
  cases step with
  | verify => exact Nat.le_refl _
  | read | readSingle =>
    exact (Balanced.of_eq (asked_keeps u _ _).1).sessionsOpened_le
  | openSession =>
    cases hreach : u.replay.fixture.unreachable with
    | true =>
      have hkept : (u.perform .openSession).replay = u.replay := by
        rw [perform, Replay.openSession_of_unreachable hreach]
      exact (Balanced.of_eq hkept).sessionsOpened_le
    | false =>
      rw [perform, Replay.openSession_of_reachable hreach]
      exact Nat.le_succ _
  | closeSession session =>
    rw [perform]
    split <;> exact Nat.le_refl _
  | retrieve => exact (balanced_perform_retrieve u).sessionsOpened_le
  | load => exact (balanced_perform_load u).sessionsOpened_le
  | search d =>
    cases hconnected : u.explorer.isConnected with
    | false =>
      have hkept := replay_perform_search_of_not_connected hconnected d
      exact (Balanced.of_eq hkept).sessionsOpened_le
    | true => exact (balanced_perform_search hconnected d).sessionsOpened_le
  | disconnect => exact Nat.le_refl _

/-! ## Accounts -/

/-- How the sessions of a replay are counted, now and at the next step: how many
each step opens, and that it closes what it opened. -/
structure Accounted (u : Usage) : Prop where
  /-- the sessions that are open are those that the caller opened and did
  not close -/
  open_eq : u.replay.openSessions = u.held.length
  /-- at least as many were ever opened -/
  open_le_opened : u.replay.openSessions ≤ u.replay.sessionsOpened
  /-- no step lowers how many were ever opened -/
  opened_le : ∀ step,
    u.replay.sessionsOpened ≤ (u.perform step).replay.sessionsOpened
  /-- whoever opens a session holds it -/
  opening : ∀ opened, u.replay.openSession = .ok opened →
    (u.perform .openSession).held = u.next :: u.held ∧
      (u.perform .openSession).replay.openSessions = u.replay.openSessions + 1 ∧
      (u.perform .openSession).replay.sessionsOpened =
      u.replay.sessionsOpened + 1
  /-- a session that cannot be opened is not counted -/
  failed_open : ∀ failure, u.replay.openSession = .error failure →
    (u.perform .openSession).replay = u.replay
  /-- closing a session takes one from those that are open, so there is one -/
  closing : ∀ session ∈ u.held,
    (u.perform (.closeSession session)).replay.openSessions + 1 =
    u.replay.openSessions ∧
      (u.perform (.closeSession session)).replay.sessionsOpened =
      u.replay.sessionsOpened
  /-- a check and a read change no count -/
  looking : (u.perform .verify).replay = u.replay ∧
    ∀ session query, (u.perform (.read session query)).replay = u.replay ∧
      (u.perform (.readSingle session query)).replay = u.replay
  /-- a check tells whether a session can be opened, and a read of a session
  that is held tells what the fixture has for the query -/
  answering : (u.perform .verify).told = .checked u.replay.verify :: u.told ∧
    ∀ session ∈ u.held, ∀ query,
      (u.perform (.read session query)).told =
      .rows (u.replay.fixture.read query) :: u.told ∧
      (u.perform (.readSingle session query)).told =
        .row (Reader.single u.replay.fixture.read query) :: u.told
  /-- reading the catalog opens one session and closes it, whether it
  fails or not -/
  retrieving : Balanced u.replay (u.perform .retrieve).replay
    (if u.replay.fixture.unreachable then 0 else 1)
  /-- and so does a load -/
  loading : Balanced u.replay (u.perform .load).replay
    (if u.replay.fixture.unreachable then 0 else 1)
  /-- the replay that a load succeeds with is held as it then is -/
  loaded : (u.perform .load).explorer.isConnected = true →
    (u.perform .load).explorer.database = some (u.perform .load).replay
  /-- a search does as well, unless the drawing is turned down first -/
  searching : u.explorer.isConnected = true →
    ∀ d, Balanced u.replay (u.perform (.search d)).replay
    (if u.replay.fixture.unreachable || !d.graph.isOk then 0 else 1)
  /-- without a connection a search does not come to the replay -/
  not_searching : u.explorer.isConnected = false →
    ∀ d, (u.perform (.search d)).replay = u.replay

theorem Counted.accounted (h : u.Counted) : u.Accounted where
  open_eq := h.openSessions
  open_le_opened := h.openSessions_le
  opened_le := sessionsOpened_le_perform u
  opening opened hopened := by
    cases hreach : u.replay.fixture.unreachable with
    | true =>
      rw [Replay.openSession_of_unreachable hreach] at hopened
      cases hopened
    | false =>
      rw [Usage.perform, Replay.openSession_of_reachable hreach]
      exact ⟨rfl, rfl, rfl⟩
  failed_open failure hfailure := by rw [Usage.perform, hfailure]
  closing session hheld := by
    have hpos : 0 < u.replay.openSessions := by
      rw [h.openSessions]
      exact List.length_pos_of_mem hheld
    rw [Usage.perform, if_pos hheld]
    exact ⟨Nat.sub_add_cancel hpos, rfl⟩
  looking := by
    exact ⟨rfl, fun session _ =>
      ⟨(asked_keeps u session _).1, (asked_keeps u session _).1⟩⟩
  answering := by
    refine ⟨rfl, fun session hheld query => ?_⟩
    simp only [Usage.perform, Usage.asked, if_pos hheld, and_self]
  retrieving := balanced_perform_retrieve u
  loading := balanced_perform_load u
  loaded := database_perform_load
  searching := balanced_perform_search
  not_searching := replay_perform_search_of_not_connected

/-- However the steps of a caller and of an explorer interleave, all sessions of
a replay are accounted for: none is lost and none is counted twice. -/
theorem accounted_run (f : Fixture) (o : Query.Options) (steps : List Step) :
    (run f o steps).Accounted :=
  (counted_run f o steps).accounted

end Usage

end DrawnPattern
