import TaggedUnion.Shape
import TaggedUnion.Yaml.Node.Parser
import TaggedUnion.Yaml.Words

/-!
# Reading YAML nodes

What a node says when it is read as a text, a truth value, a list, a name or a keyed value.  Most
types take the text of a plain scalar as it stands.  Aliases are followed, but only so often, which
keeps a short document from standing for a huge one.
-/

namespace TaggedUnion.Yaml

/-- The nodes that aliases stand for, and how many aliases may still be followed. -/
structure Aliases where
  targets : List (Nat × Node Nat)
  left : Nat

/-- A computation that may follow aliases, and may fail. -/
abbrev Reading : Type → Type :=
  StateT Aliases Option

/-- Something that cannot be read. -/
def unreadable {α : Type} : Reading α :=
  StateT.lift none

/-- The name of a tag of the standard. -/
def standardTag (name : String) : String :=
  "tag:yaml.org,2002:" ++ name

namespace Node

/-- The node that a node stands for. -/
def follow : Node Nat → Reading (Node Nat)
  | .alias target => do
    let aliases ← get
    match aliases.left, aliases.targets.lookup target with
    | left + 1, some node => do
      set { aliases with left }
      return node
    | _, _ => unreadable
  | node => return node

/-- Reads any scalar as its text. -/
def text (node : Node Nat) : Reading String := do
  match ← node.follow with
  | .scalar _ _ s => return s
  | _ => unreadable

/-- Whether a plain scalar without tag stands for nothing. -/
def isNothing (s : String) : Bool :=
  s = "" || nullWords.contains s

/-- Reads a text, or nothing from a plain scalar that stands for nothing. -/
def optionalText (node : Node Nat) : Reading (Option String) := do
  match ← node.follow with
  | .scalar props .plain s =>
    match props.tag with
    | none => return if isNothing s then none else some s
    | some tag =>
      if tag = standardTag "null" then
        if nullWords.contains s then return none else unreadable
      else return some s
  | .scalar _ _ s => return some s
  | _ => unreadable

/-- Reads a truth value from a plain scalar. -/
def boolean (node : Node Nat) : Reading Bool := do
  match ← node.follow with
  | .scalar props style s =>
    if style = .plain || (style = .literal && props.tag = some (standardTag "bool")) then
      StateT.lift (boolWords.lookup s)
    else unreadable
  | _ => unreadable

/-- Reads a sequence with the given reader.  A plain scalar without text is an empty one. -/
def list {α : Type} (read : Node Nat → Reading α) (node : Node Nat) : Reading (List α) := do
  match ← node.follow with
  | .sequence _ items => items.mapM read
  | .scalar _ .plain s => if s = "" then return [] else unreadable
  | _ => unreadable

/-- The name after the exclamation mark of a tag. -/
def localTag? (props : Properties Nat) : Option String :=
  match props.tag.map String.toList with
  | some ('!' :: name) => some (String.ofList name)
  | _ => none

/-- Reads one of some names: a scalar, or the tag of a scalar that stands for nothing. -/
def name {α : Type} (names : List (String × α)) (node : Node Nat) : Reading α := do
  match ← node.follow with
  | .scalar props style s =>
    match localTag? props with
    | none => StateT.lift (names.lookup s)
    | some name =>
      if style = .plain && isNothing s then StateT.lift (names.lookup name) else unreadable
  | _ => unreadable

/-! ### Keyed values -/

section Keyed

variable {Key α : Type} [DecidableEq Key] (S : Shape Key α)
  (read : (k : Key) → Node Nat → Reading (S.Value k))

/-- Reads the entries of a mapping into slots.  Unknown keys are passed over and a known key stands
at most once. -/
def readEntries (slots : S.Slots) : List (Node Nat × Node Nat) → Reading S.Slots
  | [] => return slots
  | (key, value) :: rest => do
    match S.key? (← key.text) with
    | none => readEntries slots rest
    | some k =>
      if (slots k).isSome then unreadable
      else do
        let part ← read k value
        readEntries (S.set slots k part) rest

/-- Reads a value with a shape from a mapping. -/
def keyed (node : Node Nat) : Reading α := do
  match ← node.follow with
  | .mapping _ entries => do
    match S.fill (← readEntries S read S.noSlots entries) with
    | .ok a => return a
    | .error _ => unreadable
  | _ => unreadable

end Keyed

end Node

/-- How many aliases may be followed for each part of a document. -/
def aliasRatio : Nat :=
  100

/-- Reads a text that holds one document. -/
def parseWith {α : Type} (read : Node Nat → Reading α) (text : List Char) : Option α := do
  let source ← parse? text
  let aliases := { targets := source.targets, left := aliasRatio * source.root.size }
  let (a, _) ← (read source.root).run aliases
  return a

end TaggedUnion.Yaml
