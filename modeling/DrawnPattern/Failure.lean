import DrawnPattern.Graph.Fault
import DrawnPattern.Row
set_option autoImplicit false

/-!
# Failures

Everything that can go wrong, as one type with one wording.  Each failure has a
code; a lookup or decode failure means that a database broke the promise of a
query, all others are for the user to mend.
-/

namespace DrawnPattern

/-- A relationship ends at a node that was not returned with it. -/
structure LookupFault where
  relation : RelationId
  node : NodeId
  deriving DecidableEq, Repr

def LookupFault.message (f : LookupFault) : String :=
  s!"relation {f.relation} references node {f.node} " ++
    "which is not in the node list"

/-- Why a file could not be read, as far as it matters whether there is one. -/
inductive FileFault where
  | missing
  | directory
  | notDirectory
  | nameTooLong
  | notText
  deriving DecidableEq, Repr

/-- Whether there is no file of that name. -/
def FileFault.isAbsent : FileFault → Bool
  | missing | notDirectory | nameTooLong => true
  | directory | notText => false

def FileFault.message : FileFault → String
  | missing => "No such file or directory (os error 2)"
  | directory => "Is a directory (os error 21)"
  | notDirectory => "Not a directory (os error 20)"
  | nameTooLong => "File name too long (os error 36)"
  | notText => "stream did not contain valid UTF-8"

/-- What is wrong with a database of recorded rows: its fixture cannot be read,
it cannot be reached, or it does not know a query. -/
inductive DatabaseFault where
  | unknownQuery (query : String)
  | unreadable (path : String) (fault : FileFault)
  | malformed
  | unreachable
  deriving DecidableEq, Repr

def DatabaseFault.message : DatabaseFault → String
  | unknownQuery query => "no recorded response for query:\n" ++ query
  | unreadable path fault =>
    s!"failed to read replay fixture {path}: {fault.message}"
  | malformed =>
    "failed to parse replay fixture: not a document of recorded rows"
  | unreachable => "database unreachable"

/-- Which of the two beginnings of variables. -/
inductive StemKey where
  | node
  | relation
  deriving DecidableEq, Repr

def StemKey.name : StemKey → String
  | node => "node_prefix"
  | relation => "relation_prefix"

/-- What is wrong with the beginning of variables. -/
inductive StemFault where
  | empty
  | badStart
  | badCharacter
  | extendsOther
  deriving DecidableEq, Repr

def StemFault.message : StemFault → String
  | empty => "must not be empty"
  | badStart => "must start with a letter or underscore"
  | badCharacter => "may only contain letters and underscores"
  | extendsOther => "node and relation prefixes must not extend one another"

/-- What is wrong with a configuration. -/
inductive ConfigFault where
  | unreadable (path : String) (fault : FileFault)
  | malformed (path : String)
  | unknownPolicy (value : String)
  | badStem (key : StemKey) (value : String) (fault : StemFault)
  deriving DecidableEq, Repr

def ConfigFault.message : ConfigFault → String
  | unreadable path fault => s!"failed to read config {path}: {fault.message}"
  | malformed path => s!"failed to parse config {path}: not a configuration"
  | unknownPolicy value =>
    s!"compiler.symmetry value '{value}' is invalid " ++
      "(expected break, preserve, or dedup)"
  | badStem key value fault =>
    s!"compiler.{key.name} value '{value}' is invalid: {fault.message}"

/-- Everything that can go wrong, by the part of the program that notices it. -/
inductive Failure where
  | graph (fault : GraphFault)
  | lookup (fault : LookupFault)
  | decode (fault : DecodeFault)
  | database (fault : DatabaseFault)
  | notConnected
  | config (fault : ConfigFault)
  deriving DecidableEq, Repr

namespace Failure

def message : Failure → String
  | graph fault => fault.message
  | lookup fault => fault.message
  | decode fault => fault.message
  | database fault => "database error: " ++ fault.message
  | notConnected => "no database loaded"
  | config fault => fault.message

/-- The kind of failure in one word, for programs that read what is printed. -/
def code : Failure → String
  | graph .empty => "Empty"
  | graph (.incomplete _) => "Incomplete"
  | graph (.disconnected ..) => "Disconnected"
  | lookup _ => "Lookup"
  | decode _ => "Decode"
  | database _ => "Database"
  | notConnected => "NotConnected"
  | config _ => "Config"

/-- Whether a database broke the promise of a query: it returned a row that no
database should return for it. -/
def isContractViolation : Failure → Bool
  | lookup _ => true
  | decode _ => true
  | _ => false

end Failure

/-! ## Raising failures -/

instance : MonadLift (Except GraphFault) (Except Failure) :=
  ⟨fun e => e.mapError .graph⟩
instance : MonadLift (Except LookupFault) (Except Failure) :=
  ⟨fun e => e.mapError .lookup⟩
instance : MonadLift (Except DecodeFault) (Except Failure) :=
  ⟨fun e => e.mapError .decode⟩
instance : MonadLift (Except DatabaseFault) (Except Failure) :=
  ⟨fun e => e.mapError .database⟩
instance : MonadLift (Except ConfigFault) (Except Failure) :=
  ⟨fun e => e.mapError .config⟩

end DrawnPattern
