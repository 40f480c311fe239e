import DrawnPattern.Proofs.Row.Reading
set_option autoImplicit false

/-!
# Faults of cells and fields

A cell is refused iff it is of another kind than expected (`Cell.KindFault`),
and a field iff there is none or its cell is refused (`Row.FieldFault`).  The
fault says which of these it was.
-/

namespace DrawnPattern

variable {fault : DecodeFault}

/-! ## Cells -/

/-- The fault of a cell that is of another kind than expected; it names the
place and both kinds. -/
def Cell.KindFault (c : Cell) (place : String) (expected : CellKind)
    (fault : DecodeFault) : Prop :=
  c.kind ≠ expected ∧ fault = .wrongKind place expected c.kind

namespace Cell

variable {place : String} {c : Cell}

theorem asInt_eq_error_iff : c.asInt place = .error fault ↔
    c.KindFault place .integer fault := by
  cases c <;> simp [asInt, KindFault, kind, eq_comm]

theorem asString_eq_error_iff :
    c.asString place = .error fault ↔ c.KindFault place .string fault := by
  cases c <;> simp [asString, KindFault, kind, eq_comm]

theorem asList_eq_error_iff : c.asList place = .error fault ↔
    c.KindFault place .list fault := by
  cases c <;> simp [asList, KindFault, kind, eq_comm]

end Cell

/-! ## Fields -/

/-- The fault of a field that is not there or holds a cell of another kind than
expected. -/
def Row.FieldFault (row : Row) (name : String) (expected : CellKind)
    (fault : DecodeFault) : Prop :=
  (Map.get? row name = none ∧ fault = .missingField name) ∨
    ∃ cell, Map.get? row name = some cell ∧ cell.KindFault name expected fault

namespace Row

variable {row : Row} {name : String}

theorem field_eq_error_iff :
    row.field name = .error fault ↔ Map.get? row name = none ∧
    fault = .missingField name := by
  rw [field]
  cases Map.get? row name <;> simp [eq_comm]

theorem string_eq_error_iff :
    (do (← row.field name).asString name) = .error fault ↔
    row.FieldFault name .string fault := by
  simp only [bind_eq_error_iff, field_eq_error_iff, field_eq_ok_iff,
    Cell.asString_eq_error_iff, FieldFault]

theorem int_eq_error_iff :
    (do (← row.field name).asInt name) = .error fault ↔
    row.FieldFault name .integer fault := by
  simp only [bind_eq_error_iff, field_eq_error_iff, field_eq_ok_iff,
    Cell.asInt_eq_error_iff, FieldFault]

/-- A field is not read as a list iff it holds none, or one with a cell that
is refused. -/
theorem list_eq_error_iff {α : Type} {read : Cell → Except DecodeFault α} :
    (do (← (← row.field name).asList name).mapM read) = .error fault ↔
      row.FieldFault name .list fault ∨
        ∃ cells, Map.get? row name = some (.list cells) ∧
        cells.mapM read = .error fault := by
  simp only [bind_eq_error_iff, field_eq_error_iff, field_eq_ok_iff,
    Cell.asList_eq_error_iff, Cell.asList_eq_ok_iff, FieldFault]
  constructor
  · rintro (hmissing | ⟨cell, hget, hkind | ⟨cells, rfl, hread⟩⟩)
    · exact .inl (.inl hmissing)
    · exact .inl (.inr ⟨cell, hget, hkind⟩)
    · exact .inr ⟨cells, hget, hread⟩
  · rintro ((hmissing | ⟨cell, hget, hkind⟩) | ⟨cells, hget, hread⟩)
    · exact .inl hmissing
    · exact .inr ⟨cell, hget, .inl hkind⟩
    · exact .inr ⟨_, hget, .inr ⟨cells, rfl, hread⟩⟩

end Row

end DrawnPattern
