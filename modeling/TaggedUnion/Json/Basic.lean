import TaggedUnion.Tree

/-!
# JSON values

What a JSON text says: a number is a natural number of 64 bits, a negative integer of 64 bits or a
finite floating-point number, and the members of an object keep their order.
-/

namespace TaggedUnion

namespace Json

/-- A number of a JSON text. -/
inductive Number where
  | natural (n : UInt64)
  | negative (i : Int64) (lt : i < 0)
  | float (x : Binary64) (finite : x.isFinite)
deriving DecidableEq

/-- The number of a natural number, if it has at most 64 bits. -/
def Number.ofNat? (n : Nat) : Option Number :=
  if n < Nat.pow 2 64 then some (.natural n.toUInt64) else none

/-- The number of a negated natural number, if it is a negative integer of 64 bits. -/
def Number.ofNegNat? (n : Nat) : Option Number :=
  let i := Int64.ofInt (-n)
  if h : i < 0 then
    if n ≤ Nat.pow 2 63 then some (.negative i h) else none
  else none

/-- The number of a floating-point number, if it is finite. -/
def Number.ofFloat? (x : Binary64) : Option Number :=
  if h : x.isFinite then some (.float x h) else none

/-- The number of an integer of 64 bits. -/
def Number.ofInt64 (i : Int64) : Number :=
  if h : i < 0 then .negative i h else .natural i.toUInt64

def Number.toTree : Number → Tree
  | .natural n => .int n.toNat
  | .negative i _ => .int i.toInt
  | .float x _ => .float x

end Json

/-- A value of a JSON text. -/
inductive Json where
  | null
  | bool (b : Bool)
  | number (n : Json.Number)
  | string (s : String)
  | array (items : List Json)
  | object (members : List (String × Json))

namespace Json

mutual

/-- A value as a tree to be written. -/
def toTree : Json → Tree
  | .null => .null
  | .bool b => .bool b
  | .number n => n.toTree
  | .string s => .string s
  | .array items => .list (itemTrees items)
  | .object members => .map (memberTrees members)

def itemTrees : List Json → List Tree
  | [] => []
  | item :: rest => item.toTree :: itemTrees rest

def memberTrees : List (String × Json) → List (String × Tree)
  | [] => []
  | (name, value) :: rest => (name, value.toTree) :: memberTrees rest

end

end Json

end TaggedUnion
