import DrawnPattern.Query.Options
set_option autoImplicit false

/-!
# Command line arguments

General options may stand before or after the name of the command; where one is
given in both places the one after it counts, and none may be given twice in one
place.  A value follows its option or is joined to it by an equals sign.  After
two dashes everything is an operand.
-/

namespace DrawnPattern.CommandLine

/-- How structured answers are printed. -/
inductive Format where
  | text
  | json
  deriving DecidableEq, Repr

/-- What to do, with the files that it is done to; a fixture stands where a
command runs on a replay. -/
inductive Command where
  | validate (drawing : String)
  | compile (drawing : String) (replay : Option String)
  | search (drawing replay : String)
  | metadata (replay : String)
  | assemble (row : String)
  deriving DecidableEq, Repr

/-- The files a command reads, the drawing before the fixture. -/
def Command.paths : Command → List String
  | validate drawing => [drawing]
  | compile drawing replay => drawing :: replay.toList
  | search drawing replay => [drawing, replay]
  | metadata replay => [replay]
  | assemble row => [row]

/-- A command with its general options, which may stand before its name or after
it; those after it count first. -/
structure Invocation where
  format : Format := .text
  config : Option String := none
  policy : Option Query.Policy := none
  command : Command
  deriving DecidableEq

/-- Why there is nothing to do: something was asked for instead, or the words
make no sense. -/
inductive Usage where
  | help
  | version
  | mistake
  deriving DecidableEq, Repr

/-! ## Options -/

/-- The options that take a value. -/
inductive OptionName where
  | format
  | config
  | symmetry
  | theme
  | replay
  deriving DecidableEq, Repr

def OptionName.ofText? (text : String) : Option OptionName :=
  match text with
  | "format" => some .format
  | "config" => some .config
  | "symmetry" => some .symmetry
  | "theme" => some .theme
  | "replay" => some .replay
  | _ => none

def format? (value : String) : Option Format :=
  match value with
  | "text" => some .text
  | "json" => some .json
  | _ => none

def themes : List String := ["auto", "light", "dark", "plain"]

/-- Whether an option accepts a value; a path is any text but the empty one. -/
def accepts (name : OptionName) (value : String) : Bool :=
  match name with
  | .format => (format? value).isSome
  | .symmetry => (Query.Policy.ofText? value).isSome
  | .theme => themes.contains value
  | .config => !value.isEmpty
  | .replay => !value.isEmpty

/-- Options with their values. -/
abbrev Values : Type := List (OptionName × String)

/-- Adds a value that is acceptable to an option that has none yet. -/
def addValue (values : Values) (name : OptionName) (value : String) :
    Except Usage Values :=
  if accepts name value && (values.lookup name).isNone then
    pure ((name, value) :: values)
  else throw .mistake

/-! ## Words -/

/-- What a word of the command line is. -/
inductive Word where
  /-- two dashes alone -/
  | separator
  /-- a long option, perhaps with a value joined to it -/
  | long (name : String) (value : Option String)
  /-- letters after one dash -/
  | short (letters : List Char)
  | operand (text : String)

def Word.ofText (text : String) : Word :=
  match text.toList with
  | ['-', '-'] => .separator
  | '-' :: '-' :: rest =>
    let name := String.ofList (rest.takeWhile (· != '='))
    match rest.dropWhile (· != '=') with
    | [] => .long name none
    | _ :: value => .long name (some (String.ofList value))
  | ['-'] => .operand text
  | '-' :: letters => .short letters
  | _ => .operand text

/-- The options and operands of one level of the command line. -/
structure Level where
  values : Values := []
  operands : List String := []

/-- What one level of the command line may hold: the level before the name of a
command, or the one after it. -/
structure Rules where
  known : OptionName → Bool
  hasVersion : Bool
  /-- whether the level ends after its first operand -/
  endsAtOperand : Bool
  mostOperands : Nat

/-- Adds an operand that is not empty, if there may be one more. -/
def Rules.addOperand (rules : Rules) (level : Level) (operand : String) :
    Except Usage Level :=
  if !operand.isEmpty && level.operands.length < rules.mostOperands then
    pure { level with operands := level.operands ++ [operand] }
  else throw .mistake

/-- The value that stands in a word of its own. -/
def separateValue? (text : String) : Option String :=
  match Word.ofText text with
  | .operand value => some value
  | _ => none

/-- Reads one level: the options it knows and operands, until an operand ends
it.  The words that are left stand after that operand.  The first word that
cannot be read or asks for something else decides. -/
def Rules.readLevel (rules : Rules) (level : Level) :
    List String → Except Usage (Level × List String)
  | [] => pure (level, [])
  | text :: rest =>
    match Word.ofText text with
    | .separator =>
      if rules.endsAtOperand then throw .mistake
      else do pure (← rest.foldlM rules.addOperand level, [])
    | .operand operand => do
      let level ← rules.addOperand level operand
      if rules.endsAtOperand then pure (level, rest)
      else rules.readLevel level rest
    | .short letters =>
      if letters.head? = some 'h' then throw .help
      else if rules.hasVersion && letters.head? == some 'V' then throw .version
      else throw .mistake
    | .long name joined =>
      if name = "help" ∧ joined.isNone then throw .help
      else if rules.hasVersion ∧ name = "version" ∧ joined.isNone then
        throw .version
      else match OptionName.ofText? name with
        | none => throw .mistake
        | some option =>
          if !rules.known option then throw .mistake
          else match joined, rest with
            | some value, rest => do
              let values ← addValue level.values option value
              rules.readLevel { level with values } rest
            | none, next :: rest =>
              match separateValue? next with
              | none => throw .mistake
              | some value => do
                let values ← addValue level.values option value
                rules.readLevel { level with values } rest
            | none, [] => throw .mistake

/-! ## Invocations -/

/-- Whether an option is one of the general ones. -/
def isGeneral (name : OptionName) : Bool := name != .replay

/-- The operand, which has to be there. -/
def neededOperand (level : Level) : Except Usage String :=
  match level.operands.head? with
  | some operand => pure operand
  | none => throw .mistake

/-- The fixture, where one is needed. -/
def neededReplay (level : Level) : Except Usage String :=
  match level.values.lookup .replay with
  | some replay => pure replay
  | none => throw .mistake

/-- The command of a name with what is given after it. -/
def command (name : String) (level : Level) : Except Usage Command := do
  match name with
  | "validate" => pure (.validate (← neededOperand level))
  | "compile" =>
    pure (.compile (← neededOperand level) (level.values.lookup .replay))
  | "search" => pure (.search (← neededOperand level) (← neededReplay level))
  | "metadata" => pure (.metadata (← neededReplay level))
  | "assemble" => pure (.assemble (← neededOperand level))
  | _ => throw .mistake

/-- Whether there is a command of this name. -/
def isCommand (name : String) : Bool :=
  ["validate", "compile", "search", "metadata", "assemble"].contains name

/-- Whether a command runs on a replay. -/
def takesReplay (name : String) : Bool :=
  ["compile", "search", "metadata"].contains name

/-- What may stand before the name of the command, and the name. -/
def generalRules : Rules :=
  { known := isGeneral, hasVersion := true, endsAtOperand := true,
    mostOperands := 1 }

/-- What may stand after the name of a command. -/
def commandRules (name : String) : Rules :=
  { known := fun o => isGeneral o || takesReplay name
    hasVersion := false
    endsAtOperand := false
    mostOperands := if name = "metadata" then 0 else 1 }

/-- What the words of a command line ask for. -/
def read (words : List String) : Except Usage Invocation := do
  let (general, rest) ← generalRules.readLevel {} words
  let name ← neededOperand general
  if !isCommand name then throw .mistake
  let (own, _) ← (commandRules name).readLevel {} rest
  let value (o : OptionName) : Option String :=
    own.values.lookup o <|> general.values.lookup o
  pure
    { format := ((value .format).bind format?).getD .text
      config := value .config
      policy := (value .symmetry).bind Query.Policy.ofText?
      command := ← command name own }

end DrawnPattern.CommandLine
