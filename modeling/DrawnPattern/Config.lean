import DrawnPattern.Failure
import DrawnPattern.Query.Options
import DrawnPattern.Query.Name
import DrawnPattern.Toml.Reader
set_option autoImplicit false

/-!
# Configuration

A configuration has a table of compiler options and a table that says where the
database is.  The beginnings of variables are words without digits of which
neither extends the other, so that no node variable is ever a relation variable.
-/

namespace DrawnPattern

/-- Where the database is and who asks.  Nothing here connects to it; the
settings are only kept. -/
structure ConnectionSettings where
  uri : Option String := none
  user : Option String := none
  deriving DecidableEq

/-- A configuration: what a file may set, with defaults for everything it
leaves out. -/
structure Config where
  compiler : Query.Options := {}
  connection : ConnectionSettings := {}
  deriving DecidableEq

namespace Config

/-! ## Beginnings of variables -/

/-- What is wrong with a word as the beginning of variables.  Digits are
refused, since the numbers follow right after it. -/
def stemFault? : List Char → Option StemFault
  | [] => some .empty
  | c :: rest =>
    if !Query.startsName c then some .badStart
    else if !rest.all Query.startsName then some .badCharacter
    else none

def checkStem (key : StemKey) (value : String) : Except ConfigFault Unit :=
  match stemFault? value.toList with
  | some fault => throw (.badStem key value fault)
  | none => pure ()

/-- Whether one word starts with the other, in which case variables for nodes
and for relations could be mixed up. -/
def oneExtendsOther (a b : String) : Bool :=
  a.toList.isPrefixOf b.toList || b.toList.isPrefixOf a.toList

/-! ## The file -/

/-- The compiler table as it is written; what is missing is not given its
default yet. -/
structure CompilerTable where
  symmetry : Option String := none
  pruneLabels : Option Bool := none
  nodeStem : Option String := none
  relationStem : Option String := none

def string? : Toml → Option String
  | .string s => some s
  | _ => none

def bool? : Toml → Option Bool
  | .boolean b => some b
  | _ => none

/-- A field that may be missing. -/
def field? {α : Type} (members : Toml.Members) (name : String)
    (decode : Toml → Option α) : Option (Option α) :=
  match members.lookup name with
  | some value => (decode value).map some
  | none => some none

/-- The fields of a table with these names; an array gives them in order and has
to give them all.  A date or a time is a table that has only a field of its own,
so it gives none of them and does not do where there may be no others. -/
def members? (names : List String) (onlyThese : Bool) :
    Toml → Option Toml.Members
  | .table _ members =>
    if onlyThese && !members.all (fun member => names.contains member.1)
      then none else some members
  | .array items =>
    if names.length ≤ items.length then some (names.zip items) else none
  | .date => if onlyThese then none else some []
  | _ => none

def compilerTable? (t : Toml) : Option CompilerTable := do
  let members ← members? ["symmetry", "prune_redundant_labels", "node_prefix",
    "relation_prefix"] true t
  pure
    { symmetry := ← field? members "symmetry" string?
      pruneLabels := ← field? members "prune_redundant_labels" bool?
      nodeStem := ← field? members "node_prefix" string?
      relationStem := ← field? members "relation_prefix" string? }

def connection? (t : Toml) : Option ConnectionSettings := do
  let members ← members? ["uri", "user"] false t
  pure { uri := ← field? members "uri" string?,
         user := ← field? members "user" string? }

/-- Both tables of a file; each may be missing, and there are no others. -/
def tables? (document : Toml.Members) :
    Option (CompilerTable × ConnectionSettings) := do
  let members ← members? ["compiler", "connection"] true
    (.table .header document)
  let compiler ← field? members "compiler" compilerTable?
  let connection ← field? members "connection" connection?
  pure (compiler.getD {}, connection.getD {})

/-- The policy that a file names. -/
def policy (default : Query.Policy) :
    Option String → Except ConfigFault Query.Policy
  | none => pure default
  | some value =>
    match Query.Policy.ofText? value with
    | some policy => pure policy
    | none => throw (.unknownPolicy value)

/-- The options that a compiler table gives.  The policy is checked first, then
each stem, then the stems against each other. -/
def options (t : CompilerTable) : Except ConfigFault Query.Options := do
  let default : Query.Options := {}
  let policy ← policy default.policy t.symmetry
  let nodeStem := t.nodeStem.getD default.nodeStem
  let relationStem := t.relationStem.getD default.relationStem
  checkStem .node nodeStem
  checkStem .relation relationStem
  if oneExtendsOther nodeStem relationStem then
    throw (.badStem .relation relationStem .extendsOther)
  pure { policy, pruneLabels := t.pruneLabels.getD default.pruneLabels,
         nodeStem, relationStem }

/-- The configuration that a text spells; the path only names the text
in faults. -/
def ofText (path text : String) : Except ConfigFault Config :=
  match Toml.read? text >>= tables? with
  | none => throw (.malformed path)
  | some (compiler, connection) => do
      pure { compiler := ← options compiler, connection }

/-- The configuration in the first place that is named; a file that is not there
yields the defaults. -/
def load (files : String → Except FileFault String)
    (places : List (Option String)) : Except ConfigFault Config :=
  match places.findSome? id with
  | none => pure {}
  | some path =>
    match files path with
    | .ok text => ofText path text
    | .error fault =>
      if fault.isAbsent then pure {} else throw (.unreadable path fault)

end Config

end DrawnPattern
