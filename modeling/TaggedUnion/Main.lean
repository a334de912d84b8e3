import TaggedUnion.Command.Arguments

/-!
# The program

Opens the files that the arguments name, runs the command on them, and prints what it says.
-/

namespace TaggedUnion

/-- The outcome of opening a path that the system refuses to read. -/
def Content.ofSystemError : IO.Error → Except FileError Content
  | .noFileOrDirectory _ _ _ => .error .notFound
  | .noSuchThing _ _ _ => .error .notFound
  | .inappropriateType _ code details =>
    if code = 21 then .ok .folder
    else if code = 20 then .error .notDirectory
    else .error (.other details)
  | e => .error (.other (toString e))

/-- Opens a path. -/
def openPath (path : Path) : IO (Except FileError Content) := do
  try
    return .ok (.file (← IO.FS.readBinFile path.text))
  catch e => return Content.ofSystemError e

/-- Opens some paths.  The result says that all others do not exist. -/
def openPaths (paths : List Path) : IO Files := do
  let opened ← paths.mapM fun path => do return (path, ← openPath path)
  return fun path => (opened.lookup path).getD (.error .notFound)

/-- The paths that a source names. -/
def Source.paths (s : Source) : List Path :=
  (match s.origin with
    | .registry path => [path]
    | .config path => [path]) ++ s.input.toList

/-- The paths that a command names. -/
def Command.paths : Command → List Path
  | .check paths => paths
  | .decode source _ => source.paths
  | .normalize source => source.paths

/-- The path that the configuration of a source names. -/
def Source.configured (s : Source) (files : Files) : List Path :=
  match s.origin with
  | .registry _ => []
  | .config path =>
    match Config.load files path with
    | .ok config => [config.registry]
    | .error _ => []

/-- The path that the configuration of a command names. -/
def Command.configured (files : Files) : Command → List Path
  | .check _ => []
  | .decode source _ => source.configured files
  | .normalize source => source.configured files

/-- Opens the paths of a command and of its configuration. -/
def Command.open (c : Command) : IO Files := do
  let files ← openPaths c.paths
  openPaths (c.paths ++ c.configured files)

/-- Reads standard input if the command needs it. -/
def Command.stdin (c : Command) : IO ByteArray := do
  let needed := match c with
    | .check _ => false
    | .decode source _ => source.input.isNone
    | .normalize source => source.input.isNone
  if needed then (← IO.getStdin).readBinToEnd else return .empty

end TaggedUnion

open TaggedUnion in
def main (args : List String) : IO UInt32 := do
  let output ← match Arguments.parse {} args with
    | .ok c => pure (c.run (← c.open) (← c.stdin))
    | .error stop => pure stop.output
  IO.print output.stdout
  IO.eprint output.stderr
  return output.exitCode.toUInt32
