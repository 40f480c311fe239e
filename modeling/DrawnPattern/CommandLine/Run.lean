import DrawnPattern.CommandLine.Arguments
import DrawnPattern.Config
import DrawnPattern.Document.Drawing
import DrawnPattern.Document.Fixture
import DrawnPattern.Document.Query
import DrawnPattern.Explorer
set_option autoImplicit false

/-!
# Commands

Each command reads the files it names, does its work and prints either text or
JSON.  Files are looked up by a function, so what a command does is a function
of its arguments and of what that function returns.
-/

namespace DrawnPattern.CommandLine

/-- What files there are: the text at each path, or why it cannot be read. -/
abbrev Files : Type := String → Except FileFault String

/-- What a command works with.  Everything that it learns from outside is given
here beforehand. -/
structure Environment where
  files : Files
  /-- where the environment says the configuration is -/
  configPath : Option String := none
  /-- where it is otherwise -/
  defaultConfigPath : Option String := none

/-- What is left when a command has run. -/
structure Outcome where
  status : Nat := 0
  out : String := ""
  err : String := ""
  deriving DecidableEq

/-- Why a command failed: the library refused, or a file could not be read or
was not the document it should be. -/
inductive CommandFault where
  | failure (failure : Failure)
  | unreadable (path : String) (fault : FileFault)
  | malformed (path : String)
  deriving DecidableEq

def CommandFault.message : CommandFault → String
  | failure f => "[" ++ f.code ++ "] " ++ f.message
  | unreadable path fault => s!"failed to read {path}: {fault.message}"
  | malformed path =>
    s!"failed to parse {path}: not a document of the expected kind"

instance : MonadLift (Except Failure) (Except CommandFault) :=
  ⟨fun e => e.mapError .failure⟩

/-! ## Files -/

/-- The document in a file. -/
def readDocument {α : Type} (files : Files) (decode : Document.Decoder α)
    (path : String) : Except CommandFault α :=
  match files path with
  | .error fault => throw (.unreadable path fault)
  | .ok text =>
    match Document.read? decode text with
    | some document => pure document
    | none => throw (.malformed path)

/-- The replay of the fixture in a file. -/
def readReplay (files : Files) (path : String) : Except Failure Replay :=
  match files path with
  | .error fault => throw (.database (.unreadable path fault))
  | .ok text => Replay.ofText text

/-! ## Printing -/

/-- A heading line. -/
def heading (title : String) : String := "▸ " ++ title ++ "\n"

/-- Numbers under a heading, their names flush right. -/
def numbersUnder (title : String) (rows : List (String × Nat)) : String :=
  let width := (rows.map fun row => row.1.length).foldl max 0
  heading title ++ String.join (rows.map fun (name, number) =>
    "  " ++ String.ofList (List.replicate (width - name.length) ' ') ++ name ++
      s!": {number}\n")

/-- A JSON document or a text, as the format asks; a text brings its own
line feeds. -/
def print (format : Format) (document : Json) (text : String) : String :=
  match format with
  | .json => document.pretty ++ "\n"
  | .text => text

/-- What a search found, under its query. -/
def searchText (query : Option Query.CompiledQuery) (found : Matches) :
    String :=
  (match query with
    | some query => heading "Query" ++ query.text ++ "\n"
    | none => "") ++
  numbersUnder "Matches"
    [ ("embeddings", found.count),
      ("nodes", (found.graph.map fun g => g.nodes.size).getD 0),
      ("relations", (found.graph.map fun g => g.relations.size).getD 0) ] ++
  found.text ++ "\n"

/-! ## The commands -/

def graphOf (files : Files) (path : String) :
    Except CommandFault (Drawing × Graph) := do
  let drawing ← readDocument files Document.drawing? path
  let graph ← (drawing.graph.mapError Failure.graph : Except Failure Graph)
  pure (drawing, graph)

/-- Does what a command says and returns what it prints; the first step that
fails decides. -/
def perform (files : Files) (options : Query.Options) (format : Format) :
    Command → Except CommandFault String
  | .validate path => do
    let (_, graph) ← graphOf files path
    pure <| print format (Document.ofGraph graph) <|
      s!"✔ valid drawing: {graph.nodes.size} node(s), " ++
        s!"{graph.relations.size} relation(s)\n" ++ graph.text ++ "\n"
  | .compile path replay => do
    let (_, graph) ← graphOf files path
    let catalog ← match replay with
      | none => pure none
      | some replay => do
        let db ← readReplay files replay
        some <$> ((Catalog.ofReplay db).1 : Except Failure Catalog)
    let query := Query.Compiler.compile ⟨options, catalog⟩ graph
    pure (print format (Document.ofQuery query) (query.text ++ "\n"))
  | .search path replay => do
    let drawing ← readDocument files Document.drawing? path
    let db ← readReplay files replay
    let explorer : Explorer := { options }
    let (loaded, explorer) := explorer.load db
    discard (loaded : Except Failure Catalog)
    let (found, explorer) := explorer.search drawing
    let found ← (found : Except Failure Matches)
    pure (print format (Document.ofMatches found)
      (searchText explorer.lastQuery found))
  | .metadata replay => do
    let db ← readReplay files replay
    let catalog ← ((Catalog.ofReplay db).1 : Except Failure Catalog)
    pure (print format (Document.ofCatalog catalog) (catalog.text ++ "\n"))
  | .assemble path => do
    let row ← readDocument files Document.row? path
    let found ← (Matches.Assembler.assemble { policy := options.policy } row :
      Except Failure Matches)
    pure (print format (Document.ofMatches found) (found.text ++ "\n"))

/-- Where the configuration may be, the first place first. -/
def configPlaces (env : Environment) (i : Invocation) : List (Option String) :=
  [i.config, env.configPath, env.defaultConfigPath]

/-- Loads the configuration and performs the command. -/
def invoke (env : Environment) (i : Invocation) :
    Except CommandFault String := do
  let config ← ((Config.load env.files (configPlaces env i)).mapError
    Failure.config : Except Failure Config)
  let options := match i.policy with
    | some policy => { config.compiler with policy }
    | none => config.compiler
  perform env.files options i.format i.command

/-! ## The whole program -/

/-- A short reminder of the commands. -/
def usageText : String :=
  "Usage: graphsketch [OPTIONS] <COMMAND>\n\n" ++
  "Commands:\n" ++
  "  validate <DRAWING>\n" ++
  "  compile <DRAWING> [--replay <FIXTURE>]\n" ++
  "  search <DRAWING> --replay <FIXTURE>\n" ++
  "  metadata --replay <FIXTURE>\n" ++
  "  assemble <RECORD>\n\n" ++
  "Options:\n" ++
  "  --format <FORMAT>\n" ++
  "  --config <FILE>\n" ++
  "  --symmetry <POLICY>\n" ++
  "  --theme <THEME>\n"

/-- Runs the program on the words of a command line: what it prints, where, and
the status that it ends with. -/
def run (env : Environment) (words : List String) : Outcome :=
  match read words with
  | .error .help => { out := usageText }
  | .error .version => { out := "graphsketch 0.1.0\n" }
  | .error .mistake => { status := 2, err := usageText }
  | .ok i =>
    match invoke env i with
    | .ok out => { out }
    | .error fault =>
      { status := 1, err := "✖ error: " ++ fault.message ++ "\n" }

end DrawnPattern.CommandLine
