set_option autoImplicit false

/-!
# TOML values

Configuration is written in TOML.  Of numbers and dates only that they are
well formed is kept; nothing here reads them.  A table remembers how it came
about, because that decides what may be added to it.
-/

namespace DrawnPattern

/-- How a table came about, which decides what may still be added to it. -/
inductive Toml.Origin where
  /-- by a header of its own, or as the document -/
  | header
  /-- by the header of a table inside it -/
  | implied
  /-- by a dotted key -/
  | dotted
  /-- as a value between braces; nothing can be added to it -/
  | closed
  deriving DecidableEq, Repr

/-- A TOML value.  Of numbers and dates only the kind is kept, since no
setting is one. -/
inductive Toml where
  | string (value : String)
  | boolean (value : Bool)
  | number
  | date
  | array (items : List Toml)
  | table (origin : Toml.Origin) (members : List (String × Toml))
  /-- tables that headers with double brackets add one by one -/
  | tables (items : List (List (String × Toml)))
  deriving Inhabited

namespace Toml

/-- What a table holds. -/
abbrev Members : Type := List (String × Toml)

/-- Gives a new value to a key that is there. -/
def Members.replace (members : Members) (key : String) (value : Toml) :
    Members :=
  members.map fun member => if member.1 = key then (key, value) else member

/-! ## Additions -/

/-- Walks along the keys from a table to one inside it and changes that one.
Missing tables are made on the way.  Dotted keys make dotted tables and enter
only tables without a header; headers make implied ones and enter every table
but a closed one, of several the last. -/
def descend (byDots : Bool) (change : Origin → Members → Option Members) :
    List String → Origin → Members → Option Members
  | [], origin, members => change origin members
  | key :: path, _, members =>
    match members.lookup key with
    | none => do
      let origin := if byDots then Origin.dotted else .implied
      let inner ← descend byDots change path origin []
      pure (members ++ [(key, table origin inner)])
    | some (.table origin inner) =>
      if origin = .closed ∨ (byDots ∧ origin = .header) then none
      else do
        let inner ← descend byDots change path origin inner
        pure (members.replace key (table origin inner))
    | some (.tables items) =>
      match items.getLast? with
      | some inner => do
        let inner ← descend byDots change path .header inner
        pure (members.replace key (tables (items.dropLast ++ [inner])))
      | none => none
    | some _ => none

/-- Adds a value under a key that is still free. -/
def addFree (key : String) (value : Toml) (members : Members) :
    Option Members :=
  match members.lookup key with
  | none => some (members ++ [(key, value)])
  | some _ => none

/-- Adds a value under a dotted key, its last part given apart.  A table that a
header implied takes no dotted keys. -/
def addPair (path : List String) (key : String) (value : Toml) (origin : Origin)
    (members : Members) :
    Option Members :=
  descend true
    (fun inner members => if !path.isEmpty && inner != .dotted then none
      else addFree key value members)
    path origin members

/-- Makes the table of a header; a table that was only implied becomes
explicit. -/
def addHeader (path : List String) (key : String) (document : Members) :
    Option Members :=
  descend false
    (fun _ members =>
      match members.lookup key with
      | none => some (members ++ [(key, table .header [])])
      | some (.table .implied inner) =>
        some (members.replace key (table .header inner))
      | some _ => none)
    path .header document

/-- Adds a table to the tables of a header with double brackets, which is made
if it is not there. -/
def addTable (path : List String) (key : String) (document : Members) :
    Option Members :=
  descend false
    (fun _ members =>
      match members.lookup key with
      | none => some (members ++ [(key, tables [[]])])
      | some (.tables items) =>
        some (members.replace key (tables (items ++ [[]])))
      | some _ => none)
    path .header document

end Toml

end DrawnPattern
