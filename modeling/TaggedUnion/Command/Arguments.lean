import TaggedUnion.Command

/-!
# Arguments of the command line

Arguments are words.  A word that starts with two dashes is a long option, one that starts with a
single dash a row of short ones, two dashes alone end the options, and anything else is a value.
-/

namespace TaggedUnion.Arguments

/-- Why arguments do not name a command: they ask for something else, or they are wrong. -/
inductive Stop where
  | version
  | help
  | misuse
deriving DecidableEq

/-- An argument. -/
inductive Word where
  | endOfOptions
  | long (name : String) (value : Option String)
  | shorts (letters : List Char)
  | value (text : String)
deriving DecidableEq

/-- The option of a long word behind its dashes. -/
def longWord (cs : List Char) : Word :=
  let name := String.ofList (cs.takeWhile (· ≠ '='))
  match cs.dropWhile (· ≠ '=') with
  | _ :: value => .long name (some (String.ofList value))
  | [] => .long name none

def Word.ofString (s : String) : Word :=
  match s.toList with
  | ['-', '-'] => .endOfOptions
  | '-' :: '-' :: cs => longWord cs
  | ['-'] => .value s
  | '-' :: cs => .shorts cs
  | _ => .value s

/-- The options that a command knows. -/
structure Grammar where
  flags : List String
  /-- Options with a value, and the values they take. -/
  options : List (String × (String → Bool))
  /-- Whether values may stand on their own. -/
  takesValues : Bool

/-- What was given to a command. -/
structure Given where
  flags : List String := []
  options : List (String × String) := []
  values : List String := []
deriving DecidableEq

namespace Grammar

variable (g : Grammar)

/-- Adds a flag, which may be given once. -/
def addFlag (given : Given) (name : String) : Except Stop Given :=
  if name = "help" then .error .help
  else if name = "version" && g.flags.contains name then .error .version
  else if g.flags.contains name && !given.flags.contains name then
    .ok { given with flags := given.flags ++ [name] }
  else .error .misuse

/-- Adds an option, which may be given once. -/
def addOption (given : Given) (name value : String) : Except Stop Given :=
  match g.options.lookup name with
  | some accepts =>
    if accepts value && (given.options.lookup name).isNone then
      .ok { given with options := given.options ++ [(name, value)] }
    else .error .misuse
  | none => .error .misuse

/-- Adds a value that stands on its own. -/
def addValue (given : Given) (value : String) : Except Stop Given :=
  if g.takesValues && value ≠ "" then .ok { given with values := given.values ++ [value] }
  else .error .misuse

/-- The flags of single letters. -/
def shortNames : List (Char × String) :=
  [('v', "verbose"), ('V', "version"), ('h', "help")]

/-- Adds a row of short flags. -/
def addShorts (given : Given) : List Char → Except Stop Given
  | [] => .ok given
  | letter :: rest => do
    match shortNames.lookup letter with
    | some name => addShorts (← g.addFlag given name) rest
    | none => throw .misuse

/-- Reads the arguments of a command. -/
def parse (given : Given) : List String → Except Stop Given
  | [] => .ok given
  | word :: rest =>
    match Word.ofString word with
    | .endOfOptions => rest.foldlM g.addValue given
    | .value text => do parse (← g.addValue given text) rest
    | .shorts letters => do parse (← g.addShorts given letters) rest
    | .long name (some value) => do parse (← g.addOption given name value) rest
    | .long name none =>
      if (g.options.lookup name).isNone then do parse (← g.addFlag given name) rest
      else
        match rest with
        | [] => .error .misuse
        | next :: rest =>
          match Word.ofString next with
          | .value text => do parse (← g.addOption given name text) rest
          | _ => .error .misuse

end Grammar

/-! ### Commands -/

def isPath (text : String) : Bool :=
  text ≠ ""

def checkGrammar : Grammar where
  flags := ["verbose"]
  options := []
  takesValues := true

/-- The names of output formats. -/
def formatNames : List (String × Format) :=
  [("json", .json), ("yaml", .yaml)]

def normalizeGrammar : Grammar where
  flags := ["verbose", "permissive"]
  options := [("registry", isPath), ("config", isPath), ("input", isPath)]
  takesValues := false

def decodeGrammar : Grammar where
  flags := normalizeGrammar.flags
  options := normalizeGrammar.options ++ [("format", fun s => (formatNames.lookup s).isSome)]
  takesValues := false

/-- The source that options name: a registry or a configuration, not both. -/
def Given.source (given : Given) : Except Stop Source := do
  let path? := fun name => (given.options.lookup name).map Path.mk
  let origin ← match path? "registry", path? "config" with
    | some path, none => pure (Origin.registry path)
    | none, some path => pure (Origin.config path)
    | _, _ => throw Stop.misuse
  return { origin, permissive := given.flags.contains "permissive", input := path? "input" }

/-- The output format that options name. -/
def Given.format (given : Given) : Format :=
  ((given.options.lookup "format").bind fun name => formatNames.lookup name).getD .json

/-- The command of a name and its arguments. -/
def command (name : String) (args : List String) : Except Stop Command :=
  match name with
  | "check" => do
    let given ← checkGrammar.parse {} args
    if given.values = [] then throw .misuse else return .check (given.values.map Path.mk)
  | "decode" => do
    let given ← decodeGrammar.parse {} args
    return .decode (← given.source) given.format
  | "normalize" => do
    let given ← normalizeGrammar.parse {} args
    return .normalize (← given.source)
  | "help" => .error .help
  | _ => .error .misuse

/-- The options in front of a command. -/
def generalGrammar : Grammar where
  flags := ["verbose", "version"]
  options := []
  takesValues := false

/-- The command that arguments name. -/
def parse (given : Given) : List String → Except Stop Command
  | [] => .error .misuse
  | word :: rest =>
    match Word.ofString word with
    | .endOfOptions => .error .misuse
    | .value name => command name rest
    | .shorts letters => do parse (← generalGrammar.addShorts given letters) rest
    | .long name none => do parse (← generalGrammar.addFlag given name) rest
    | .long _ (some _) => .error .misuse

end TaggedUnion.Arguments

namespace TaggedUnion

/-- What the program calls itself. -/
def versionText : String :=
  "union-schema 0.1.0\n"

/-- A summary of the command line. -/
def usageText : String :=
  "Check tagged-union registries and validate records against them\n" ++
  "\n" ++
  "Usage: union-schema [OPTIONS] <COMMAND>\n" ++
  "\n" ++
  "Commands:\n" ++
  "  check      Check one or more registry documents for definition problems\n" ++
  "  decode     Decode records and print typed instances or validation errors\n" ++
  "  normalize  Decode records and re-encode them in canonical field order\n"

/-- The effect of arguments that name no command. -/
def Arguments.Stop.output : Arguments.Stop → Output
  | .version => { exitCode := 0, stdout := versionText, stderr := "" }
  | .help => { exitCode := 0, stdout := usageText, stderr := "" }
  | .misuse => { exitCode := 2, stdout := "", stderr := usageText }

/-- Runs the program. -/
def runProgram (args : List String) (files : Files) (stdin : ByteArray) : Output :=
  match Arguments.parse {} args with
  | .ok c => c.run files stdin
  | .error stop => stop.output

end TaggedUnion
