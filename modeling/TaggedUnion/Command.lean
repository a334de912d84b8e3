import TaggedUnion.Config
import TaggedUnion.Outcome

/-!
# Commands

What each command prints, as a function of the files it can open and of its standard input.

* `Command.check` says of each document whether it defines a registry.
* `Command.decode` prints the outcome of every record.
* `Command.normalize` prints conforming records in canonical form, and violations as errors.
-/

namespace TaggedUnion

/-- Where a registry is found. -/
inductive Origin where
  | registry (path : Path)
  | config (path : Path)
deriving DecidableEq

/-- What records are decoded with, and where they are found. -/
structure Source where
  origin : Origin
  /-- Undeclared fields are dropped, whatever the configuration says. -/
  permissive : Bool := false
  /-- The file of the records; without one they are read from standard input. -/
  input : Option Path := none
deriving DecidableEq

inductive Command where
  | check (paths : List Path)
  | decode (source : Source) (format : Format)
  | normalize (source : Source)
deriving DecidableEq

/-- Why a command fails. -/
inductive Failure where
  | config (path : Path) (e : LoadError)
  | registry (path : Path) (e : LoadError)
  | openInput (path : Path) (e : FileError)
  | readInput (path : Path) (e : LoadError)
  | readStdin (e : LoadError)
  | checks (failed total : Nat)
  | records (failed total : Nat)
  | unregistered (index : Nat) (e : UnregisteredTag)

def Failure.message : Failure → String
  | .config path e => "Failed to load config '" ++ path.text ++ "': " ++ e.message
  | .registry path e => "Failed to load registry '" ++ path.text ++ "': " ++ e.message
  | .openInput path e => "Failed to open input '" ++ path.text ++ "': " ++ e.message
  | .readInput path e => "Failed to read input '" ++ path.text ++ "': " ++ e.message
  | .readStdin e => "Failed to read stdin: " ++ e.message
  | .checks failed total =>
    Decimal.natText failed ++ " of " ++ Decimal.natText total ++ " registry file(s) failed checks"
  | .records failed total =>
    Decimal.natText failed ++ " of " ++ Decimal.natText total ++ " records failed validation"
  | .unregistered index e => "record " ++ Decimal.natText index ++ ": " ++ e.message

/-! ### Output -/

/-- What a command prints, and why it fails if it does. -/
structure Report where
  /-- The text on standard output. -/
  text : String := ""
  /-- The lines on standard error. -/
  complaints : List String := []
  failure : Option Failure := none

/-- The effect of a command. -/
@[ext]
structure Output where
  exitCode : Nat
  stdout : String
  stderr : String

/-- Lines, each with its line break. -/
def unlines : List String → String
  | [] => ""
  | line :: rest => line ++ "\n" ++ unlines rest

/-- A failure is the last line on standard error. -/
def Report.output (r : Report) : Output :=
  match r.failure with
  | none => { exitCode := 0, stdout := r.text, stderr := unlines r.complaints }
  | some f =>
    { exitCode := 1
      stdout := r.text
      stderr := unlines (r.complaints ++ ["error: " ++ f.message]) }

/-! ### Checking documents -/

/-- The line for a document that defines a registry, or the errors of one that does not. -/
def checkPath (files : Files) (path : Path) : Except (List String) String :=
  match Document.load files path with
  | .error e => .error [e.message]
  | .ok d =>
    match d.problems with
    | [] =>
      .ok ("ok " ++ path.text ++ " (" ++ Decimal.natText d.variants.length ++
        " variants, fingerprint " ++ d.fingerprint ++ ")")
    | problems => .error (problems.map Definition.Problem.message)

/-- The lines on standard error for a document. -/
def checkComplaints (files : Files) (path : Path) : List String :=
  match checkPath files path with
  | .ok _ => []
  | .error messages => messages.map fun m => path.text ++ ": " ++ m

/-- Whether a document does not define a registry. -/
def failsCheck (files : Files) (path : Path) : Bool :=
  !(checkPath files path).isOk

def checkReport (files : Files) (paths : List Path) : Report :=
  let failed := paths.countP (failsCheck files)
  { text := unlines (paths.filterMap fun path => (checkPath files path).toOption)
    complaints := paths.flatMap (checkComplaints files)
    failure := if failed = 0 then none else some (.checks failed paths.length) }

/-! ### Decoding records -/

/-- The registry and the options of a source. -/
def Source.decoder (s : Source) (files : Files) : Except Failure (Registry × DecodeOptions) := do
  let (registry, options) ← match s.origin with
    | .config path => do
      let config ← (Config.load files path).mapError (.config path)
      let registry ← (config.loadRegistry files).mapError (.registry config.registry)
      pure (registry, config.decodeOptions)
    | .registry path => do
      let registry ← (Registry.load files path).mapError (.registry path)
      pure (registry, DecodeOptions.strict)
  return (registry, if s.permissive then .permissive else options)

/-- The records of a source. -/
def Source.records (s : Source) (files : Files) (stdin : ByteArray) :
    Except Failure (List Record) :=
  match s.input with
  | none => (Record.ofContent (.file stdin)).mapError .readStdin
  | some path => do
    let content ← (files path).mapError (.openInput path)
    (Record.ofContent content).mapError (.readInput path)

/-- The failure of a run, if a record did not conform. -/
def recordsFailure (outcomes : List Outcome) : Option Failure :=
  let failed := outcomes.countP fun o => !o.isOk
  if failed = 0 then none else some (.records failed outcomes.length)

/-- Outcomes as trees, counted from `index`. -/
def outcomeTrees (index : Nat) : List Outcome → List Tree
  | [] => []
  | o :: rest => o.toTree index :: outcomeTrees (index + 1) rest

/-- The printed form of outcomes: in JSON one line each, in YAML one list. -/
def outcomesText (format : Format) (outcomes : List Outcome) : String :=
  let trees := outcomeTrees 1 outcomes
  match format with
  | .json => unlines (trees.map Tree.compact)
  | .yaml => (Tree.list trees).yaml

def decodeReport (R : Registry) (options : DecodeOptions) (format : Format)
    (records : List Record) : Report :=
  let outcomes := records.map (R.decode options)
  { text := outcomesText format outcomes, failure := recordsFailure outcomes }

/-! ### Normalizing records -/

/-- The lines of normalized outcomes, counted from `index`: records, then complaints.  It ends at an
instance that the registry cannot encode. -/
def normalizeFrom (R : Registry) (index : Nat) :
    List Outcome → List String × List String × Option Failure
  | [] => ([], [], none)
  | .ok i :: rest =>
    match R.encode i with
    | .error e => ([], [], some (.unregistered index e))
    | .ok record =>
      let (lines, complaints, failure) := normalizeFrom R (index + 1) rest
      (record.toJson.toTree.compact :: lines, complaints, failure)
  | .error violations :: rest =>
    let (lines, complaints, failure) := normalizeFrom R (index + 1) rest
    let own := violations.map fun e => "record " ++ Decimal.natText index ++ ": " ++ e.display
    (lines, own ++ complaints, failure)

def normalizeReport (R : Registry) (options : DecodeOptions) (records : List Record) : Report :=
  let outcomes := records.map (R.decode options)
  let (lines, complaints, failure) := normalizeFrom R 1 outcomes
  { text := unlines lines, complaints, failure := failure.or (recordsFailure outcomes) }

/-! ### Running -/

/-- Loads a source and reports on its records. -/
def Source.report (s : Source) (files : Files) (stdin : ByteArray)
    (report : Registry → DecodeOptions → List Record → Report) : Report :=
  match s.decoder files with
  | .error f => { failure := some f }
  | .ok (registry, options) =>
    match s.records files stdin with
    | .error f => { failure := some f }
    | .ok records => report registry options records

namespace Command

def report (files : Files) (stdin : ByteArray) : Command → Report
  | .check paths => checkReport files paths
  | .decode source format =>
    source.report files stdin fun R options records => decodeReport R options format records
  | .normalize source => source.report files stdin normalizeReport

/-- Runs a command. -/
def run (c : Command) (files : Files) (stdin : ByteArray) : Output :=
  (c.report files stdin).output

end Command

end TaggedUnion
