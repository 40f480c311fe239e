import DrawnPattern.Proofs.Document.Filling
set_option autoImplicit false

/-!
# Documents that are written and read again

Whatever is written as a document, on one line or over several, is read from it
again as the same value, if its numbers can be given back and it is not nested
too deep (`documents_return`).  A text that is read as a fixture needs no such
condition: the fixture is written as a text that is read as the same fixture.

That a finite double is read back from the decimal that is printed for it is
assumed, for the doubles that a document holds and no others
(`DoublesReadBack`): of some doubles it does not hold (`exists_not_readsBack`).
-/

namespace DrawnPattern

open Json

namespace Document

variable {α : Type} {decode : Decoder α} {encode : α → Json} {j : Json}

/-- Whether the finite doubles of a document are read back from their decimals.
Not all doubles are, since digits and power are rounded apart. -/
def DoublesReadBack (j : Json) : Prop :=
  ∀ x, .float x ∈ j.numbers → x.isFinite = true → (Number.float x).ReadsBack

/-- Whether a document can hold what is written in it: integers of 64 bits and
finite doubles, no deeper than the limit. -/
structure Writable (j : Json) : Prop where
  plain : Plain j
  depth : j.depth ≤ depthLimit

/-- Whether every value that a document can hold is read from either of its
texts, the one on a line and the one over several lines. -/
def RoundTrips (decode : Decoder α) (encode : α → Json) : Prop :=
  ∀ a, Writable (encode a) → DoublesReadBack (encode a) →
    read? decode (encode a).compact = some a ∧
    read? decode (encode a).pretty = some a

/-- The numbers of a document are all read back. -/
theorem numbersSpelled (hplain : Plain j) (hdoubles : DoublesReadBack j) :
    j.NumbersSpelled := by
  refine numbersSpelled_iff.2 fun n hn => ?_
  have hn' := hplain n hn
  cases n with
  | int i =>
    obtain ⟨hleast, hmost⟩ := hn'
    refine readsBack_int ?_ ?_
    · rw [leastMagnitude]
      omega
    · rw [greatest]
      omega
  | float x => exact hdoubles x hn hn'

/-- A way to read that undoes the writing of values undoes that of texts, if the
texts are read as the values that they spell. -/
theorem Faithful.roundTrips (h : Faithful decode encode) :
    RoundTrips decode encode := by
  intro a hwritable hdoubles
  obtain ⟨hdecoded, hreadable⟩ := h a hwritable.plain
  have hspelled := numbersSpelled hwritable.plain hdoubles
  rw [read?, read?, read?_compact hreadable hwritable.depth hspelled,
    read?_pretty hreadable hwritable.depth hspelled]
  exact ⟨hdecoded, hdecoded⟩

end Document

namespace Replay

open Document

/-- A replay is read from its text with the same fixture and no session open,
however many were open when it was written. -/
theorem ofText_text {db : Replay} (hwritable : Writable (ofFixture db.fixture))
    (hdoubles : DoublesReadBack (ofFixture db.fixture)) :
    ofText db.text = .ok { fixture := db.fixture } := by
  have hread := (faithful_fixture.roundTrips db.fixture hwritable hdoubles).2
  rw [ofText, text, hread]
  rfl

/-- What is read from a text can be written: its numbers were held, and no value
in it comes out nested beyond the limit. -/
theorem writable_of_ofText {text : String} {db : Replay}
    (h : ofText text = .ok db) :
    Writable (ofFixture db.fixture) ∧ db = { fixture := db.fixture } := by
  unfold ofText at h
  split at h
  · rename_i fixture hfixture
    cases h
    obtain ⟨j, hj, hread⟩ := Option.bind_eq_some_iff.1 hfixture
    obtain ⟨hplain, hdepth⟩ := fits_fixture (sound_of_read? hj) hread
    exact ⟨⟨hplain, hdepth⟩, rfl⟩
  · cases h

end Replay

namespace Document

/-- Documents of every type are read as what was written, replays with them; and
the text of a replay that was read from any text is read as the same replay. -/
theorem documents_return :
    (∀ reading, RoundTrips (value? reading) ofValue) ∧
    (∀ reading, RoundTrips (cell? reading) ofCell) ∧
    RoundTrips row? ofRow ∧
    (∀ reading, RoundTrips (storedNode? reading) ofStoredNode) ∧
    (∀ reading, RoundTrips (storedRelationship? reading) ofStoredRelationship) ∧
    RoundTrips drawing? ofDrawing ∧
    RoundTrips node? ofNode ∧
    RoundTrips relation? ofRelation ∧
    RoundTrips options? ofOptions ∧
    RoundTrips fixture? ofFixture ∧
    (∀ db : Replay, Writable (ofFixture db.fixture) →
      DoublesReadBack (ofFixture db.fixture) →
      Replay.ofText db.text = .ok { fixture := db.fixture }) ∧
    ∀ text db, Replay.ofText text = .ok db →
      DoublesReadBack (ofFixture db.fixture) →
      Replay.ofText db.text = .ok db := by
  refine ⟨fun reading => (faithful_value reading).roundTrips,
    fun reading => (faithful_cell reading).roundTrips, faithful_row.roundTrips,
    fun reading => (faithful_storedNode reading).roundTrips,
    fun reading => (faithful_storedRelationship reading).roundTrips,
    faithful_drawing.roundTrips, faithful_node.roundTrips,
    faithful_relation.roundTrips, faithful_options.roundTrips,
    faithful_fixture.roundTrips, fun db => Replay.ofText_text, ?_⟩
  intro text db h hdoubles
  obtain ⟨hwritable, hfresh⟩ := Replay.writable_of_ofText h
  rw [Replay.ofText_text hwritable hdoubles, ← hfresh]

/-- A fixture with a node and a list in a list, one of whose items is a half. -/
def nestedFixture : Fixture where
  responses := .ofList [("q", [.ofList [("x", .list
    [.float ⟨0x3fe0000000000000⟩, .list [.int (-3)],
      .node { id := 1, labels := ["A"] }])]])]

theorem readsBack_half : (Number.float ⟨0x3fe0000000000000⟩).ReadsBack := by
  have htext : numberText (.float ⟨0x3fe0000000000000⟩) = "0.5" := by
    decide +kernel
  have hnumeral : word? "0.5".toList =
      some (Numeral.json ⟨false, ['0'], ['5'], none⟩) := rfl
  have hint : Numeral.int? ⟨false, ['0'], ['5'], none⟩ = none := rfl
  have hdouble : Numeral.double? ⟨false, ['0'], ['5'], none⟩ =
      some ⟨0x3fe0000000000000⟩ := by
    decide +kernel
  rw [readsBack_iff, htext, hnumeral, Numeral.json, hint, hdouble]

theorem documents_return_nested :
    Writable (ofFixture nestedFixture) ∧
    DoublesReadBack (ofFixture nestedFixture) ∧
      read? fixture? (ofFixture nestedFixture).compact = some nestedFixture ∧
      Replay.ofText (Replay.text { fixture := nestedFixture }) =
        .ok { fixture := nestedFixture } := by
  have hwritable : Writable (ofFixture nestedFixture) :=
    ⟨by decide +kernel, by decide +kernel⟩
  have hdoubles : DoublesReadBack (ofFixture nestedFixture) := by
    intro x hx _
    have hnumbers : (ofFixture nestedFixture).numbers =
        [.float ⟨0x3fe0000000000000⟩, .int (-3), .int 1] := by decide +kernel
    have hhalf : x = ⟨0x3fe0000000000000⟩ := by simpa [hnumbers] using hx
    exact hhalf ▸ readsBack_half
  obtain ⟨-, -, -, -, -, -, -, -, -, hfixture, hreplay, hagain⟩ :=
    documents_return
  have hread := hreplay { fixture := nestedFixture } hwritable hdoubles
  exact ⟨hwritable, hdoubles, (hfixture nestedFixture hwritable hdoubles).1,
    hagain _ { fixture := nestedFixture } hread hdoubles⟩

end Document

end DrawnPattern
