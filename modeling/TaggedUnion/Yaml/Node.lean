import TaggedUnion.Yaml.Token

/-!
# Nodes of YAML documents

The tree of a document.  Anchors and aliases carry names as they are written, or numbers once it is
settled which node an alias stands for.
-/

namespace TaggedUnion.Yaml

/-- What can stand in front of a node. -/
structure Properties (ι : Type) where
  anchor : Option ι := none
  tag : Option String := none

/-- A node of a document. -/
inductive Node (ι : Type) where
  | scalar (props : Properties ι) (style : Style) (text : String)
  | sequence (props : Properties ι) (items : List (Node ι))
  | mapping (props : Properties ι) (entries : List (Node ι × Node ι))
  | alias (target : ι)

namespace Node

/-- The scalar that stands for nothing written. -/
def empty {ι : Type} (props : Properties ι := {}) : Node ι :=
  .scalar props .plain ""

/-! ### Aliases -/

/-- The anchors met so far, each with a number. -/
abbrev Anchors : Type :=
  List (String × Nat)

/-- Gives an anchor the number of names met before it, as the latest meaning of its name. -/
def Anchors.add (anchors : Anchors) (name : String) : Nat × Anchors :=
  (anchors.length, (name, anchors.length) :: anchors.filter fun a => a.1 ≠ name)

def linkProperties (anchors : Anchors) (props : Properties String) : Properties Nat × Anchors :=
  match props.anchor with
  | none => ({ tag := props.tag }, anchors)
  | some name =>
    let (n, anchors) := anchors.add name
    ({ anchor := some n, tag := props.tag }, anchors)

mutual

/-- Replaces names by numbers, from left to right.  An alias must follow an anchor of its name. -/
def link (anchors : Anchors) : Node String → Option (Node Nat × Anchors)
  | .scalar props style text =>
    let (props, anchors) := linkProperties anchors props
    some (.scalar props style text, anchors)
  | .sequence props items => do
    let (props, anchors) := linkProperties anchors props
    let (items, anchors) ← linkItems anchors items
    return (.sequence props items, anchors)
  | .mapping props entries => do
    let (props, anchors) := linkProperties anchors props
    let (entries, anchors) ← linkEntries anchors entries
    return (.mapping props entries, anchors)
  | .alias name => (anchors.lookup name).map fun n => (.alias n, anchors)

def linkItems (anchors : Anchors) : List (Node String) → Option (List (Node Nat) × Anchors)
  | [] => some ([], anchors)
  | item :: rest => do
    let (item, anchors) ← link anchors item
    let (rest, anchors) ← linkItems anchors rest
    return (item :: rest, anchors)

def linkEntries (anchors : Anchors) :
    List (Node String × Node String) → Option (List (Node Nat × Node Nat) × Anchors)
  | [] => some ([], anchors)
  | (key, value) :: rest => do
    let (key, anchors) ← link anchors key
    let (value, anchors) ← link anchors value
    let (rest, anchors) ← linkEntries anchors rest
    return ((key, value) :: rest, anchors)

end

/-- The node under its own number, if it has an anchor. -/
def anchored (props : Properties Nat) (n : Node Nat) : List (Nat × Node Nat) :=
  match props.anchor with
  | some i => [(i, n)]
  | none => []

mutual

/-- The nodes with anchors, from left to right, a node before those inside it. -/
def targets : Node Nat → List (Nat × Node Nat)
  | .scalar props style text => anchored props (.scalar props style text)
  | .sequence props items => anchored props (.sequence props items) ++ itemTargets items
  | .mapping props entries => anchored props (.mapping props entries) ++ entryTargets entries
  | .alias _ => []

def itemTargets : List (Node Nat) → List (Nat × Node Nat)
  | [] => []
  | item :: rest => targets item ++ itemTargets rest

def entryTargets : List (Node Nat × Node Nat) → List (Nat × Node Nat)
  | [] => []
  | (key, value) :: rest => targets key ++ targets value ++ entryTargets rest

end

mutual

/-- The number of scalars, aliases, and starts and ends of collections. -/
def size {ι : Type} : Node ι → Nat
  | .scalar _ _ _ => 1
  | .sequence _ items => 2 + itemsSize items
  | .mapping _ entries => 2 + entriesSize entries
  | .alias _ => 1

def itemsSize {ι : Type} : List (Node ι) → Nat
  | [] => 0
  | item :: rest => size item + itemsSize rest

def entriesSize {ι : Type} : List (Node ι × Node ι) → Nat
  | [] => 0
  | (key, value) :: rest => size key + size value + entriesSize rest

end

end Node

end TaggedUnion.Yaml
