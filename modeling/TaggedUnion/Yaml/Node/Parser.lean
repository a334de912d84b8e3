import TaggedUnion.Yaml.Node
import TaggedUnion.Yaml.Token.Lexer

/-!
# From YAML text to nodes

The tokens of a text as a tree of nodes.  A text holds one document; the directives in front of it
say how its tags are expanded.
-/

namespace TaggedUnion.Yaml

/-- What the handles of tags stand for. -/
abbrev Handles : Type :=
  List (String × String)

namespace Handles

/-- The handles that need no directive. -/
def standard : Handles :=
  [("!", "!"), ("!!", "tag:yaml.org,2002:")]

/-- The full text of a tag.  A tag without handle is complete. -/
def expand (handles : Handles) (handle suffix : String) : Option String :=
  if handle = "" then some suffix else (handles.lookup handle).map (· ++ suffix)

end Handles

namespace Node

/-- Reads an anchor and a tag, in either order. -/
def parseProperties (handles : Handles) : List Token → Option (Properties String × List Token)
  | .anchor a :: .tag h s :: ts => do
    return ({ anchor := some a, tag := some (← handles.expand h s) }, ts)
  | .tag h s :: .anchor a :: ts => do
    return ({ anchor := some a, tag := some (← handles.expand h s) }, ts)
  | .anchor a :: ts => some ({ anchor := some a }, ts)
  | .tag h s :: ts => do return ({ tag := some (← handles.expand h s) }, ts)
  | ts => some ({}, ts)

/-- The properties of a written scalar, for which the tag `!` says nothing. -/
def scalarProperties (props : Properties String) : Properties String :=
  if props.tag = some "!" then { props with tag := none } else props

mutual

/-- Reads a node.  `block` allows block collections, and `indentless` a sequence that stands no
deeper than the mapping around it. -/
def parse (handles : Handles) (fuel : Nat) (block indentless : Bool) (ts : List Token) :
    Option (Node String × List Token) :=
  match fuel, ts with
  | 0, _ => none
  | _ + 1, .alias name :: ts => some (.alias name, ts)
  | fuel + 1, ts => do
    let (props, ts) ← parseProperties handles ts
    match ts, block, indentless with
    | .blockEntry :: _, _, true => do
      let (items, ts) ← parseIndentless handles fuel ts
      return (.sequence props items, ts)
    | .scalar style text :: ts, _, _ => some (.scalar (scalarProperties props) style text, ts)
    | .flowSequenceStart :: ts, _, _ => do
      let (items, ts) ← parseFlowItems handles fuel true ts
      return (.sequence props items, ts)
    | .flowMappingStart :: ts, _, _ => do
      let (entries, ts) ← parseFlowEntries handles fuel true ts
      return (.mapping props entries, ts)
    | .blockSequenceStart :: ts, true, _ => do
      let (items, ts) ← parseBlockItems handles fuel ts
      return (.sequence props items, ts)
    | .blockMappingStart :: ts, true, _ => do
      let (entries, ts) ← parseBlockEntries handles fuel ts
      return (.mapping props entries, ts)
    | ts, _, _ =>
      if props.anchor.isSome || props.tag.isSome then some (Node.empty props, ts) else none

/-- Reads the items of a block sequence. -/
def parseBlockItems (handles : Handles) (fuel : Nat) (ts : List Token) :
    Option (List (Node String) × List Token) :=
  match fuel, ts with
  | 0, _ => none
  | _ + 1, .blockEnd :: ts => some ([], ts)
  | fuel + 1, .blockEntry :: ts => do
    let (item, ts) ← match ts with
      | .blockEntry :: _ => some (Node.empty, ts)
      | .blockEnd :: _ => some (Node.empty, ts)
      | _ => parse handles fuel true false ts
    let (items, ts) ← parseBlockItems handles fuel ts
    return (item :: items, ts)
  | _, _ => none

/-- Reads the items of a sequence that ends with the first token that is no entry. -/
def parseIndentless (handles : Handles) (fuel : Nat) (ts : List Token) :
    Option (List (Node String) × List Token) :=
  match fuel, ts with
  | 0, _ => none
  | fuel + 1, .blockEntry :: ts => do
    let (item, ts) ← match ts with
      | .blockEntry :: _ => some (Node.empty, ts)
      | .key :: _ => some (Node.empty, ts)
      | .value :: _ => some (Node.empty, ts)
      | .blockEnd :: _ => some (Node.empty, ts)
      | _ => parse handles fuel true false ts
    let (items, ts) ← parseIndentless handles fuel ts
    return (item :: items, ts)
  | _ + 1, ts => some ([], ts)

/-- Reads a key or value of a block mapping behind its mark. -/
def parseBlockPart (handles : Handles) (fuel : Nat) (ts : List Token) :
    Option (Node String × List Token) :=
  match fuel, ts with
  | 0, _ => none
  | _, .key :: _ => some (Node.empty, ts)
  | _, .value :: _ => some (Node.empty, ts)
  | _, .blockEnd :: _ => some (Node.empty, ts)
  | fuel + 1, ts => parse handles fuel true true ts

/-- Reads the entries of a block mapping.  A key may lack its value. -/
def parseBlockEntries (handles : Handles) (fuel : Nat) (ts : List Token) :
    Option (List (Node String × Node String) × List Token) :=
  match fuel, ts with
  | 0, _ => none
  | _ + 1, .blockEnd :: ts => some ([], ts)
  | fuel + 1, .key :: ts => do
    let (key, ts) ← parseBlockPart handles fuel ts
    let (value, ts) ← match ts with
      | .value :: ts => parseBlockPart handles fuel ts
      | _ => some (Node.empty, ts)
    let (entries, ts) ← parseBlockEntries handles fuel ts
    return ((key, value) :: entries, ts)
  | _, _ => none

/-- Reads the items of a sequence in brackets.  An entry with a key is a mapping of its own. -/
def parseFlowItems (handles : Handles) (fuel : Nat) (first : Bool) (ts : List Token) :
    Option (List (Node String) × List Token) :=
  match fuel, ts with
  | 0, _ => none
  | _ + 1, .flowSequenceEnd :: ts => some ([], ts)
  | fuel + 1, ts => do
    let ts ← match first, ts with
      | true, ts => some ts
      | false, .flowEntry :: ts => some ts
      | false, _ => none
    match ts with
    | .flowSequenceEnd :: ts => some ([], ts)
    | .key :: ts => do
      let (entry, ts) ← parseFlowPair handles fuel ts
      let (items, ts) ← parseFlowItems handles fuel false ts
      return (.mapping {} [entry] :: items, ts)
    | _ => do
      let (item, ts) ← parse handles fuel false false ts
      let (items, ts) ← parseFlowItems handles fuel false ts
      return (item :: items, ts)

/-- Reads the one entry of a mapping inside brackets, behind the mark of its key. -/
def parseFlowPair (handles : Handles) (fuel : Nat) (ts : List Token) :
    Option ((Node String × Node String) × List Token) :=
  match fuel with
  | 0 => none
  | fuel + 1 => do
    let (key, ts) ← match ts with
      | .value :: ts => some (Node.empty, ts)
      | .flowEntry :: ts => some (Node.empty, ts)
      | .flowSequenceEnd :: ts => some (Node.empty, ts)
      | _ => parse handles fuel false false ts
    let (value, ts) ← match ts with
      | .value :: .flowEntry :: ts => some (Node.empty, .flowEntry :: ts)
      | .value :: .flowSequenceEnd :: ts => some (Node.empty, .flowSequenceEnd :: ts)
      | .value :: ts => parse handles fuel false false ts
      | _ => some (Node.empty, ts)
    return ((key, value), ts)

/-- Reads the entries of a mapping in braces. -/
def parseFlowEntries (handles : Handles) (fuel : Nat) (first : Bool) (ts : List Token) :
    Option (List (Node String × Node String) × List Token) :=
  match fuel, ts with
  | 0, _ => none
  | _ + 1, .flowMappingEnd :: ts => some ([], ts)
  | fuel + 1, ts => do
    let ts ← match first, ts with
      | true, ts => some ts
      | false, .flowEntry :: ts => some ts
      | false, _ => none
    match ts with
    | .flowMappingEnd :: ts => some ([], ts)
    | .key :: ts => do
      let (key, ts) ← match ts with
        | .value :: _ => some (Node.empty, ts)
        | .flowEntry :: _ => some (Node.empty, ts)
        | .flowMappingEnd :: _ => some (Node.empty, ts)
        | _ => parse handles fuel false false ts
      let (value, ts) ← match ts with
        | .value :: .flowEntry :: ts => some (Node.empty, .flowEntry :: ts)
        | .value :: .flowMappingEnd :: ts => some (Node.empty, .flowMappingEnd :: ts)
        | .value :: ts => parse handles fuel false false ts
        | _ => some (Node.empty, ts)
      let (entries, ts) ← parseFlowEntries handles fuel false ts
      return ((key, value) :: entries, ts)
    | _ => do
      let (key, ts) ← parse handles fuel false false ts
      let (entries, ts) ← parseFlowEntries handles fuel false ts
      return ((key, .empty) :: entries, ts)

end

end Node

/-! ### Documents -/

/-- The directives in front of a document: whether a version was given, and the handles. -/
structure Directives where
  version : Bool := false
  handles : Handles := []

/-- Reads directives.  The version is given at most once and each handle too. -/
def parseDirectives (d : Directives) : List Token → Option (Directives × List Token)
  | .versionDirective major minor :: ts =>
    if d.version || major ≠ 1 || (minor ≠ 1 && minor ≠ 2) then none
    else parseDirectives { d with version := true } ts
  | .tagDirective handle expansion :: ts =>
    if (d.handles.lookup handle).isSome then none
    else parseDirectives { d with handles := (handle, expansion) :: d.handles } ts
  | ts => some (d, ts)

/-- Reads the node of a document behind its start mark. -/
def parseContent (handles : Handles) (ts : List Token) : Option (Node String × List Token) :=
  match ts with
  | [] => some (Node.empty, [])
  | .versionDirective _ _ :: _ => some (Node.empty, ts)
  | .tagDirective _ _ :: _ => some (Node.empty, ts)
  | .documentStart :: _ => some (Node.empty, ts)
  | .documentEnd :: _ => some (Node.empty, ts)
  | _ => Node.parse handles (4 * ts.length + 4) true false ts

/-- The node of the only document of a text.  End marks may follow the document and nothing else. -/
def parseDocument (ts : List Token) : Option (Node String) := do
  if ts = [] then none
  else
    let (directives, ts') ← parseDirectives {} ts
    let handles := directives.handles ++ Handles.standard
    let (node, rest) ← match ts' with
      | .documentStart :: ts => parseContent handles ts
      | _ =>
        if ts'.length = ts.length then Node.parse handles (4 * ts.length + 4) true false ts'
        else none
    if rest.all (· = .documentEnd) then some node else none

/-- A document with its aliases settled. -/
structure Source where
  root : Node Nat
  /-- The nodes that aliases stand for. -/
  targets : List (Nat × Node Nat)

/-- The document of a text, if the text holds exactly one.  Of anchors with the same number the last
one counts. -/
def parse? (text : List Char) : Option Source := do
  let node ← parseDocument (← tokens? text)
  let (root, _) ← node.link []
  return { root, targets := root.targets.reverse }

end TaggedUnion.Yaml
