import DrawnPattern.CommandLine.Run
set_option autoImplicit false

/-!
# The program

Reads the environment and the files that the command line names, hands them to
`CommandLine.run` and prints what it returns.
-/

open DrawnPattern CommandLine

/-- Why the file system refuses to read a file. -/
def faultOfRefusal : IO.Error → FileFault
  | .inappropriateType _ 21 _ => .directory
  | .inappropriateType _ _ _ => .notDirectory
  | .invalidArgument _ _ _ => .nameTooLong
  | _ => .missing

/-- Everything in a file, or why it cannot be read. -/
def readWholeFile (path : String) : IO (Except FileFault String) := do
  try
    let bytes ← IO.FS.readBinFile path
    match String.fromUTF8? bytes with
    | some text => pure (.ok text)
    | none => pure (.error .notText)
  catch refusal => pure (.error (faultOfRefusal refusal))

/-- Where the configuration is unless something else is said. -/
def userConfigPath : IO (Option String) := do
  match ← IO.getEnv "XDG_CONFIG_HOME", ← IO.getEnv "HOME" with
  | some base, home =>
    if base.startsWith "/" then pure (some (base ++ "/graphsketch/config.toml"))
    else pure (home.map (· ++ "/.config/graphsketch/config.toml"))
  | none, home => pure (home.map (· ++ "/.config/graphsketch/config.toml"))

/-- The program without its files. -/
def emptyEnvironment : IO Environment := do
  pure
    { files := fun _ => .error .missing
      configPath := ← IO.getEnv "GRAPHSKETCH_CONFIG"
      defaultConfigPath := ← userConfigPath }

/-- The files that the words of a command line name. -/
def namedPaths (env : Environment) (words : List String) : List String :=
  match read words with
  | .ok i => i.command.paths ++ (configPlaces env i).filterMap id
  | .error _ => []

def main (words : List String) : IO UInt32 := do
  let env ← emptyEnvironment
  let table ← (namedPaths env words).mapM fun path => do
    pure (path, ← readWholeFile path)
  let files : Files := fun path => (table.lookup path).getD (.error .missing)
  let outcome := run { env with files } words
  IO.print outcome.out
  IO.eprint outcome.err
  pure outcome.status.toUInt32
