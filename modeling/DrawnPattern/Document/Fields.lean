import DrawnPattern.Json
import DrawnPattern.Keyed
set_option autoImplicit false

/-!
# Fields of documents

A structured document is an object whose fields may stand in any order; fields
that nobody asked for are passed over, and a field given twice is an error.
Most structures may also be given as an array of their fields in order, of which
the last ones may be left out if they have a default.  A choice is an object or
an array of a tag and its content.

Content that stands before its tag, and the fields of structures that are spread
over others, are held until their type is known.  What is held has to be
readable throughout, and its tags may be written in more ways (`Reading`).
-/

namespace DrawnPattern.Document

/-- How a type is read from a document; nothing if the document is not of
that type. -/
abbrev Decoder (α : Type) : Type := Json → Option α

/-- The fields that are present, by name. -/
abbrev Fields : Type := List (String × Json)

/-- The members with one of the names; nothing if one of them is given twice.
Other members are passed over. -/
def select? (names : List String) (members : List (String × Json)) :
    Option Fields :=
  let known := members.filter fun member => names.contains member.1
  if (known.map Prod.fst).Nodup then some known else none

/-- The fields of an object, or of an array that gives the first of them in the
order of the names. -/
def fields? (names : List String) : Decoder Fields
  | .obj members => select? names members
  | .arr items =>
    if items.length ≤ names.length then some (names.zip items) else none
  | _ => none

/-- The fields of an object that is held, and so has to be readable
throughout. -/
def objectFields? (names : List String) : Decoder Fields
  | .obj members =>
    if Json.readable (.obj members) then select? names members else none
  | _ => none

/-- A field that has to be there. -/
def required {α : Type} (fields : Fields) (name : String) (decode : Decoder α) :
    Option α :=
  fields.lookup name >>= decode

/-- A field with a default, which stands in only where the field is missing:
null does not count as missing. -/
def withDefault {α : Type} (fields : Fields) (name : String) (default : α)
    (decode : Decoder α) : Option α :=
  match fields.lookup name with
  | some j => decode j
  | none => some default

/-! ## Scalars, lists and maps -/

def bool? : Decoder Bool
  | .bool b => some b
  | _ => none

def string? : Decoder String
  | .str s => some s
  | _ => none

/-- An integer of 64 bits with a sign. -/
def int? : Decoder Int
  | .num (.int i) =>
    if -0x8000000000000000 ≤ i ∧ i ≤ 0x7fffffffffffffff then some i else none
  | _ => none

/-- An integer of 64 bits without a sign. -/
def nat? : Decoder Nat
  | .num (.int i) =>
    if 0 ≤ i ∧ i ≤ 0xffffffffffffffff then some i.toNat else none
  | _ => none

/-- Null, or a string. -/
def label? : Decoder (Option String)
  | .null => some none
  | .str s => some (some s)
  | _ => none

def list? {α : Type} (decode : Decoder α) : Decoder (List α)
  | .arr items => items.mapM decode
  | _ => none

/-- The entries of a map; the last one with a name counts, and those before it
still have to be readable. -/
def map? {α : Type} (decode : Decoder α) : Decoder (Map String α)
  | .obj members => do
    let entries ← members.mapM fun (name, j) => do pure (name, ← decode j)
    pure (.ofList entries)
  | _ => none

/-! ## Choices -/

/-- When the type of what is read was known: at once, or only after it
was held. -/
inductive Reading where
  | direct
  | held
  deriving DecidableEq, Repr

/-- The name of a choice without content: a string, or an object that gives the
name null.  When held, the object may also give the name an empty object. -/
def choice? (reading : Reading) : Decoder String
  | .str s => some s
  | .obj [(name, .null)] => some name
  | .obj [(name, .obj [])] => if reading = .held then some name else none
  | _ => none

/-- The name at the head of an array: a string or, when held, its number among
the names. -/
def headTag? (reading : Reading) (names : List String) : Decoder String
  | .str s => some s
  | .num (.int i) => if reading = .held ∧ 0 ≤ i then names[i.toNat]? else none
  | _ => none

/-- The members of an object that say which choice it is and with
what content. -/
def isTagged (member : String × Json) : Bool :=
  member.1 == "t" || member.1 == "v"

/-- A choice: its tag, and its content, if it has one, with the way
to read it. -/
structure Tagged where
  tag : String
  content : Option Json
  reading : Reading

/-- The tag of a choice among the names, and its content.  Content before the
tag is held. -/
def tagged? (reading : Reading) (names : List String) : Decoder Tagged
  | .obj members =>
    match members.filter isTagged with
    | [("t", tag)] => do pure ⟨← choice? reading tag, none, reading⟩
    | [("t", tag), ("v", content)] => do
        pure ⟨← choice? reading tag, some content, reading⟩
    | [("v", content), ("t", tag)] =>
      if content.readable then do
        pure ⟨← choice? reading tag, some content, .held⟩ else none
    | _ => none
  | .arr [tag, content] => do
      pure ⟨← headTag? reading names tag, some content, reading⟩
  | _ => none

theorem sizeOf_content_lt {reading inner : Reading} {names : List String}
    {j content : Json} {tag : String}
    (h : tagged? reading names j = some ⟨tag, some content, inner⟩) :
    sizeOf content < sizeOf j := by
  unfold tagged? at h
  split at h
  · rename_i members
    have inside : ∀ name : String, (name, content) ∈ members.filter isTagged →
        sizeOf content < sizeOf (Json.obj members) :=
      fun _ hmem => Json.sizeOf_member_lt (List.mem_filter.1 hmem).1
    split at h
    · simp [bind, Option.bind] at h; split at h <;> simp_all
    · rename_i heq
      simp only [bind, Option.bind] at h
      split at h
      · simp at h
      · simp only [pure, Option.some.injEq, Tagged.mk.injEq] at h
        obtain ⟨-, rfl, -⟩ := h
        exact inside "v" (by rw [heq]; simp)
    · rename_i heq
      split at h
      · simp only [bind, Option.bind] at h
        split at h
        · simp at h
        · simp only [pure, Option.some.injEq, Tagged.mk.injEq] at h
          obtain ⟨-, rfl, -⟩ := h
          exact inside "v" (by rw [heq]; simp)
      · simp at h
    · simp at h
  · simp only [bind, Option.bind] at h
    split at h
    · simp at h
    · simp only [pure, Option.some.injEq, Tagged.mk.injEq] at h
      obtain ⟨-, rfl, -⟩ := h
      exact Json.sizeOf_item_lt (by simp)
  · simp at h

/-! ## Writing -/

/-- A string or null. -/
def ofLabel : Option String → Json
  | some s => .str s
  | none => .null

def ofInt (i : Int) : Json := .num (.int i)

def ofNat (n : Nat) : Json := .num (.int n)

def ofList {α : Type} (encode : α → Json) (items : List α) : Json :=
  .arr (items.map encode)

/-- The entries of a map in their order. -/
def ofMap {α : Type} (encode : α → Json) (m : Map String α) : Json :=
  .obj (m.toList.map fun (name, value) => (name, encode value))

/-- A tag with content. -/
def ofTagged (tag : String) (content : Json) : Json :=
  .obj [("t", .str tag), ("v", content)]

end DrawnPattern.Document
