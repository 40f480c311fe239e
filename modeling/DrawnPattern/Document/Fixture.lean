import DrawnPattern.Document.Row
import DrawnPattern.Json.Reader
import DrawnPattern.Json.Writer
import DrawnPattern.Replay
set_option autoImplicit false

/-!
# Documents of fixtures
-/

namespace DrawnPattern

namespace Document

def fixture? : Decoder Fixture := fun j => do
  let fields ← fields? ["unreachable", "responses"] j
  pure
    { unreachable := ← withDefault fields "unreachable" false bool?
      responses := ← withDefault fields "responses" ∅ (map? (list? row?)) }

def ofFixture (f : Fixture) : Json :=
  .obj [("unreachable", .bool f.unreachable),
    ("responses", ofMap (ofList ofRow) f.responses)]

/-- The document that a text spells; nothing if it spells no value, or one of
another type. -/
def read? {α : Type} (decode : Decoder α) (text : String) : Option α :=
  Json.read? text >>= decode

end Document

namespace Replay

/-- The replay of the fixture that a text spells; none of its
sessions is open. -/
def ofText (text : String) : Except Failure Replay :=
  match Document.read? Document.fixture? text with
  | some fixture => pure { fixture }
  | none => throw (.database .malformed)

/-- The fixture of the replay as a text over several lines. -/
def text (db : Replay) : String := (Document.ofFixture db.fixture).pretty

end Replay

end DrawnPattern
