/-!
# Paths

A path is a text in which slashes divide pieces.  Empty pieces and single dots inside a path say
nothing, and a path that starts with a slash does not depend on the working directory.
-/

namespace TaggedUnion

/-- A path as it is written. -/
structure Path where
  text : String
deriving DecidableEq

namespace Path

/-- The pieces of a text between slashes, at least one. -/
def pieces : List Char → List (List Char)
  | [] => [[]]
  | c :: rest =>
    if c = '/' then [] :: pieces rest
    else match pieces rest with
      | [] => [[c]]
      | piece :: others => (c :: piece) :: others

/-- Puts pieces together with slashes. -/
def ofPieces : List (List Char) → List Char
  | [] => []
  | [piece] => piece
  | piece :: rest => piece ++ '/' :: ofPieces rest

theorem pieces_ne_nil (cs : List Char) : pieces cs ≠ [] := by
  cases cs with
  | nil => simp [pieces]
  | cons c rest =>
    rw [pieces]
    split
    · simp
    · split <;> simp

/-- Whether a piece says nothing about where the path leads. -/
def isIdle (piece : List Char) : Bool :=
  piece = [] || piece = ['.']

/-- Whether a path starts at the root. -/
def isAbsolute (p : Path) : Bool :=
  p.text.toList.head? = some '/'

/-- The slash or dot that a path starts with. -/
def lead (p : Path) : List Char :=
  match p.text.toList with
  | '/' :: _ => ['/']
  | ['.'] => ['.']
  | '.' :: '/' :: _ => ['.']
  | _ => []

/-- The pieces behind the lead, without idle ones at the end, last piece first. -/
def backward (p : Path) : List (List Char) :=
  (pieces (p.text.toList.drop p.lead.length)).reverse.dropWhile isIdle

/-- The name of what a path leads to, unless the path ends in a step up or has no name. -/
def name? (p : Path) : Option (List Char) :=
  match p.backward with
  | [] => none
  | piece :: _ => if piece = ['.', '.'] then none else some piece

/-- What stands behind the last dot of a name, unless that dot is its first character. -/
def extension? (p : Path) : Option (List Char) := do
  let name ← p.name?
  let ending := name.reverse.takeWhile (· ≠ '.')
  if ending.length + 1 < name.length then some ending.reverse else none

/-- The path without its last piece. -/
def parent? (p : Path) : Option Path :=
  match p.backward with
  | _ :: rest => some ⟨String.ofList (p.lead ++ ofPieces (rest.dropWhile isIdle).reverse)⟩
  | [] => if p.lead = ['.'] then some ⟨""⟩ else none

/-- A path inside a folder.  An absolute path stays as it is. -/
def join (folder path : Path) : Path :=
  if path.isAbsolute || folder.text = "" then path
  else if folder.text.toList.getLast? = some '/' then ⟨folder.text ++ path.text⟩
  else ⟨folder.text ++ "/" ++ path.text⟩

end Path

end TaggedUnion
