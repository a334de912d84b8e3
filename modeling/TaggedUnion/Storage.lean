import TaggedUnion.Document
import TaggedUnion.FileTree
import TaggedUnion.Json.Bytes
import TaggedUnion.Record.Stream
import TaggedUnion.Tree.Yaml

/-!
# Stored documents and records

Documents are stored as JSON or YAML; the extension of the path says which.  Records are stored as
JSON.
-/

namespace TaggedUnion

/-- How a document is stored. -/
inductive Format where
  | json
  | yaml
deriving DecidableEq

/-- The extensions of each format, in lower case. -/
def Format.extensions : List (String × Format) :=
  [("json", .json), ("yaml", .yaml), ("yml", .yaml)]

/-- Why something could not be loaded or saved. -/
inductive LoadError where
  | file (e : FileError)
  | json (e : Json.Error)
  /-- What should hold JSON could be opened, but not read. -/
  | unreadableJson (e : FileError)
  | yaml
  | unsupportedFormat (path : Path)
  | definition (p : Definition.Problem)
  | invalidRecord (index : Nat) (e : RecordError)
deriving DecidableEq

/-- An error in words.  How a YAML document is malformed is not told: one text of our own stands for
whatever a YAML parser says of a document that it refuses. -/
def LoadError.message : LoadError → String
  | .file e => "I/O error: " ++ e.message
  | .json e => "JSON error: " ++ e.message
  | .unreadableJson e => "JSON error: " ++ e.message
  | .yaml => "YAML error: malformed document"
  | .unsupportedFormat path => "unsupported document format: " ++ path.text
  | .definition p => "invalid registry: " ++ p.message
  | .invalidRecord index e => "record " ++ Decimal.natText index ++ ": " ++ e.message

/-- The format of a path, by its extension in either case. -/
def Path.format (path : Path) : Except LoadError Format :=
  match path.extension?.bind fun ext =>
      Format.extensions.lookup (String.ofList (ext.map Char.toLower)) with
  | some format => .ok format
  | none => .error (.unsupportedFormat path)

/-! ### Reading and writing in a format -/

/-- How values of a type are read in each format. -/
structure Format.Reader (α : Type) where
  ofOutline : Json.Outline → Except Json.Error α
  ofNode : Yaml.Node Nat → Yaml.Reading α

namespace Format

/-- Reads a text. -/
def Reader.parse {α : Type} (r : Reader α) (format : Format) (text : String) :
    Except LoadError α :=
  match format with
  | .json => (Json.parseWith r.ofOutline text.toList).mapError .json
  | .yaml =>
    match Yaml.parseWith r.ofNode text.toList with
    | some a => .ok a
    | none => .error .yaml

/-- Reads what a path leads to. -/
def Reader.ofContent {α : Type} (r : Reader α) (format : Format) (content : Content) :
    Except LoadError α :=
  match format, content with
  | .json, .folder => .error (.unreadableJson .isDirectory)
  | .json, .file bytes => (Json.parseBytesWith r.ofOutline bytes).mapError .json
  | .yaml, .folder => .error .yaml
  | .yaml, .file bytes =>
    match String.fromUTF8? bytes with
    | some text => r.parse .yaml text
    | none => .error .yaml

/-- Loads a value from a path. -/
def Reader.load {α : Type} (r : Reader α) (files : Files) (path : Path) : Except LoadError α := do
  let format ← path.format
  let content ← (files path).mapError .file
  r.ofContent format content

/-- The stored text of a tree. -/
def write : Format → Tree → String
  | .json => Tree.pretty
  | .yaml => Tree.yaml

/-- Saves a tree at a path.  The format is settled before the file is made. -/
def save (t : Tree) (files : FileTree) (path : Path) : Except LoadError FileTree := do
  let format ← path.format
  (files.create path (format.write t).toUTF8).mapError .file

end Format

/-! ### Documents -/

namespace Document

def reader : Format.Reader Document where
  ofOutline := Document.ofOutline
  ofNode := Document.ofNode

/-- The document of a text. -/
def parse (format : Format) (text : String) : Except LoadError Document :=
  reader.parse format text

/-- The document stored at a path. -/
def load (files : Files) (path : Path) : Except LoadError Document :=
  reader.load files path

/-- Stores a document at a path. -/
def save (d : Document) (files : FileTree) (path : Path) : Except LoadError FileTree :=
  Format.save d.toTree files path

end Document

/-- The registry of the document stored at a path. -/
def Registry.load (files : Files) (path : Path) : Except LoadError Registry := do
  let d ← Document.load files path
  d.toRegistry.mapError .definition

/-! ### Records -/

/-- The error of a stream of records. -/
def LoadError.ofStream : Record.StreamError → LoadError
  | .json e => .json e
  | .invalidRecord index e => .invalidRecord index e

/-- The records of what a path leads to. -/
def Record.ofContent (content : Content) : Except LoadError (List Record) := do
  let text ← content.text.mapError .file
  (Record.readStream text.toList).mapError .ofStream

end TaggedUnion
