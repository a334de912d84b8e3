import TaggedUnion.Files

/-!
# File trees

Files and folders below a root, as a value.  A path is walked piece by piece from the root or from
the working directory, which lies two levels below the root in folders that no path can name.

* `FileTree.files` says what each path leads to.
* `FileTree.create` replaces the content of a file or makes a new one in an existing folder.
* `FileTree.write` makes the folders of the path as well.
-/

namespace TaggedUnion

/-- A place in a file tree: the names on the way from the root, last name first. -/
abbrev Location : Type :=
  List String

/-- Files and folders by place. -/
structure FileTree where
  content? : Location → Option Content

namespace FileTree

/-- The working directory.  No path has an empty name. -/
def home : Location :=
  ["", ""]

/-- A tree with nothing below the working directory. -/
def empty : FileTree where
  content? l := if l.length ≤ home.length && l.all (· = "") then some .folder else none

/-- The tree with a place filled anew. -/
def set (t : FileTree) (place : Location) (content : Content) : FileTree where
  content? l := if l = place then some content else t.content? l

@[simp]
theorem content?_set_self (t : FileTree) (place : Location) (content : Content) :
    (t.set place content).content? place = some content := by
  simp [set]

theorem content?_set_of_ne (t : FileTree) {place l : Location} (h : l ≠ place)
    (content : Content) : (t.set place content).content? l = t.content? l := by
  simp [set, h]

/-- The longest name a file can have, in bytes. -/
def maxNameLength : Nat :=
  255

/-- Goes one piece further from a place.  What the place holds must be a folder. -/
def step (t : FileTree) (place : Location) (piece : List Char) : Except FileError Location :=
  match t.content? place with
  | none => .error .notFound
  | some (.file _) => .error .notDirectory
  | some .folder =>
    if Path.isIdle piece then .ok place
    else if piece = ['.', '.'] then .ok place.tail
    else if maxNameLength < (String.ofList piece).utf8ByteSize then .error .nameTooLong
    else .ok (String.ofList piece :: place)

/-- Goes along some pieces. -/
def walk (t : FileTree) (place : Location) : List (List Char) → Except FileError Location
  | [] => .ok place
  | piece :: rest => do t.walk (← t.step place piece) rest

/-- Where a path starts. -/
def start (path : Path) : Location :=
  if path.isAbsolute then [] else home

/-- The place that a path leads to, whether it is taken or not. -/
def locate (t : FileTree) (path : Path) : Except FileError Location :=
  if path.text = "" then .error .notFound
  else if path.text.toList.contains '\x00' then .error .nulCharacter
  else t.walk (start path) (Path.pieces path.text.toList)

/-- What each path leads to. -/
def files (t : FileTree) : Files := fun path => do
  match t.content? (← t.locate path) with
  | some content => return content
  | none => throw .notFound

/-- Whether a path ends in a slash. -/
def endsInSlash (path : Path) : Bool :=
  path.text.toList.getLast? = some '/'

/-- Makes a file with the given bytes, or gives these bytes to a file that exists. -/
def create (t : FileTree) (path : Path) (bytes : ByteArray) : Except FileError FileTree := do
  if endsInSlash path then
    let pieces := (Path.pieces path.text.toList).reverse.dropWhile (· = [])
    discard <| t.walk (start path) pieces.reverse
    throw .isDirectory
  else
    let place ← t.locate path
    match t.content? place with
    | some .folder => throw .isDirectory
    | _ => return t.set place (.file bytes)

/-- Makes the folders along some pieces where they are missing. -/
def makeFolders (t : FileTree) (place : Location) : List (List Char) → Except FileError FileTree
  | [] => .ok t
  | piece :: rest => do
    let next ← t.step place piece
    match t.content? next with
    | none => (t.set next .folder).makeFolders next rest
    | some _ => t.makeFolders next rest

/-- Makes a file and the folders that lead to it. -/
def write (t : FileTree) (path : Path) (bytes : ByteArray) : Except FileError FileTree := do
  let t ← t.makeFolders (start path) (Path.pieces path.text.toList).dropLast
  t.create path bytes

end FileTree

end TaggedUnion
