import DrawnPattern.Proofs.Failing
import DrawnPattern.Replay
set_option autoImplicit false

/-!
# Reading from fixtures

A fixture answers the queries that it has rows for and no others.  Where one row
is asked for there has to be exactly one, and what is done with it then decides
(`Reader.single_bind_eq_error_iff`).
-/

namespace DrawnPattern

/-! ## Rows of a fixture -/

theorem Fixture.read_eq_ok_iff {f : Fixture} {query : String}
    {rows : List Row} :
    f.read query = .ok rows ↔ Map.get? f.responses query = some rows := by
  rw [read]
  cases Map.get? f.responses query with
  | none => exact iff_of_false (fun h => nomatch h) fun h => nomatch h
  | some recorded =>
    constructor
    · intro h
      cases h
      rfl
    · intro h
      cases h
      rfl

theorem Fixture.read_eq_error_iff {f : Fixture} {query : String}
    {failure : Failure} :
    f.read query = .error failure ↔
      Map.get? f.responses query = none ∧
      failure = .database (.unknownQuery query) := by
  rw [read]
  cases Map.get? f.responses query with
  | none =>
    rw [and_iff_right rfl]
    constructor
    · intro h
      cases h
      rfl
    · rintro rfl
      rfl
  | some recorded =>
    exact iff_of_false (fun h => nomatch h) fun h => nomatch h.1

/-! ## The only row -/

/-- The failure of rows of which there is to be one, and not a bad one: their
number is wrong, or the one row is refused. -/
def OneRowFault (bad : Row → Failure → Prop) (rows : List Row)
    (failure : Failure) : Prop :=
  (rows.length ≠ 1 ∧ failure = .decode (.rowCount 1 rows.length)) ∨
    ∃ row, rows = [row] ∧ bad row failure

namespace Reader

variable {α : Type} {read : Reader} {query : String}
  {next : Row → Except Failure α}

theorem single_eq_ok_iff {row : Row} :
    read.single query = .ok row ↔ read query = .ok [row] := by
  rw [single, bind_eq_ok_iff]
  constructor
  · rintro ⟨rows, hrows, h⟩
    split at h
    · cases h
      exact hrows
    · cases h
  · exact fun h => ⟨[row], h, rfl⟩

/-- What is done with the only row succeeds iff there is one and it does. -/
theorem single_bind_eq_ok_iff {a : α} : read.single query >>= next = .ok a ↔
    ∃ rows, read query = .ok rows ∧ ∃ row, rows = [row] ∧ next row = .ok a := by
  simp only [bind_eq_ok_iff, single_eq_ok_iff]
  constructor
  · rintro ⟨row, hrow, h⟩
    exact ⟨[row], hrow, row, rfl, h⟩
  · rintro ⟨_, hrow, row, rfl, h⟩
    exact ⟨row, hrow, h⟩

/-- What is done with the only row fails iff the query does, there are more rows
or none, or it fails for the row. -/
theorem single_bind_eq_error_iff {failure : Failure} :
    read.single query >>= next = .error failure ↔
    read query = .error failure ∨ ∃ rows, read query = .ok rows ∧
      OneRowFault (fun row failure => next row = .error failure) rows
      failure := by
  rw [single, bind_assoc, bind_eq_error_iff]
  refine or_congr_right (exists_congr fun rows => and_congr_right fun _ => ?_)
  unfold OneRowFault
  split
  · rename_i row
    simp [pure_bind]
  · rename_i hother
    have hlength : rows.length ≠ 1 := by
      intro h
      obtain ⟨row, rfl⟩ := List.length_eq_one_iff.1 h
      exact hother row rfl
    constructor
    · intro h
      cases h
      exact .inl ⟨hlength, rfl⟩
    · rintro (⟨-, rfl⟩ | ⟨row, rfl, -⟩)
      · rfl
      · exact absurd rfl hlength

end Reader

end DrawnPattern
