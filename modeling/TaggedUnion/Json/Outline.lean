import TaggedUnion.Json.Token

/-!
# Outlines of JSON text

The outline of a text is its tree of values as far as the text can be followed.  Where the text goes
wrong the outline says how, at the place where a reader that goes from left to right meets the
fault.  Numbers and strings are not judged yet: what counts as readable is for the reader to say.
-/

namespace TaggedUnion.Json

/-- How an array or object ends. -/
inductive Ending where
  | closed
  /-- Wrong behind the last item, where a comma or the closing mark should stand. -/
  | cut (fault : Fault)
  /-- Wrong behind a comma. -/
  | dangling (fault : Fault)
  /-- Wrong inside the next key. -/
  | brokenKey (read skip : Fault)
deriving DecidableEq

/-- The tree of a text. -/
inductive Outline where
  | null
  | bool (b : Bool)
  | number (n : Numeral)
  | string (text : Option String)
  | array (items : List Outline) (ending : Ending)
  | object (members : List (Option String × Outline)) (ending : Ending)
  /-- An object that starts with something other than a key. -/
  | headless
  /-- The text ends where a value should start. -/
  | absent
  | brokenString (read skip : Fault)
  | broken (read skip : Fault)

namespace Outline

/-- What is left of some tokens. -/
abbrev Rest (ts : List Token) : Type :=
  { rest : List Token // rest.length ≤ ts.length }

mutual

/-- The value that starts with a token, and the tokens behind it. -/
def value (t : Token) (ts : List Token) : Outline × Rest ts :=
  match t with
  | .null => (.null, ⟨ts, Nat.le_refl _⟩)
  | .bool b => (.bool b, ⟨ts, Nat.le_refl _⟩)
  | .number n => (.number n, ⟨ts, Nat.le_refl _⟩)
  | .string text => (.string text, ⟨ts, Nat.le_refl _⟩)
  | .openArray =>
    let (items, ending, rest) := items ts
    (.array items ending, rest)
  | .openObject => members ts
  | .brokenString read skip => (.brokenString read skip, ⟨[], Nat.zero_le _⟩)
  | .broken read skip => (.broken read skip, ⟨[], Nat.zero_le _⟩)
  | _ => (.broken .malformed .malformed, ⟨[], Nat.zero_le _⟩)
termination_by 2 * ts.length + 1

/-- The items of an array behind its opening mark. -/
def items (ts : List Token) : List Outline × Ending × Rest ts :=
  match ts with
  | [] => ([], .cut .truncated, ⟨[], Nat.le_refl _⟩)
  | .closeArray :: ts => ([], .closed, ⟨ts, Nat.le_succ _⟩)
  | t :: ts =>
    let (item, ⟨rest, h⟩) := value t ts
    let (more, ending, ⟨rest', h'⟩) := moreItems rest
    (item :: more, ending, ⟨rest', Nat.le_succ_of_le (Nat.le_trans h' h)⟩)
termination_by 2 * ts.length
decreasing_by all_goals (simp only [List.length_cons]; omega)

/-- The items of an array behind an item. -/
def moreItems (ts : List Token) : List Outline × Ending × Rest ts :=
  match ts with
  | [] => ([], .cut .truncated, ⟨[], Nat.le_refl _⟩)
  | .closeArray :: ts => ([], .closed, ⟨ts, Nat.le_succ _⟩)
  | [.comma] => ([], .dangling .truncated, ⟨[], Nat.zero_le _⟩)
  | .comma :: .closeArray :: _ => ([], .dangling .malformed, ⟨[], Nat.zero_le _⟩)
  | .comma :: t :: ts =>
    let (item, ⟨rest, h⟩) := value t ts
    let (more, ending, ⟨rest', h'⟩) := moreItems rest
    (item :: more, ending,
      ⟨rest', Nat.le_succ_of_le (Nat.le_succ_of_le (Nat.le_trans h' h))⟩)
  | _ => ([], .cut .malformed, ⟨[], Nat.zero_le _⟩)
termination_by 2 * ts.length
decreasing_by all_goals (simp only [List.length_cons]; omega)

/-- An object behind its opening mark. -/
def members (ts : List Token) : Outline × Rest ts :=
  match ts with
  | [] => (.object [] (.cut .truncated), ⟨[], Nat.le_refl _⟩)
  | .closeObject :: ts => (.object [] .closed, ⟨ts, Nat.le_succ _⟩)
  | .brokenString read skip :: _ => (.object [] (.brokenKey read skip), ⟨[], Nat.zero_le _⟩)
  | .string key :: ts =>
    let (item, ⟨rest, h⟩) := memberValue ts
    let (more, ending, ⟨rest', h'⟩) := moreMembers rest
    (.object ((key, item) :: more) ending, ⟨rest', Nat.le_succ_of_le (Nat.le_trans h' h)⟩)
  | _ => (.headless, ⟨[], Nat.zero_le _⟩)
termination_by 2 * ts.length
decreasing_by all_goals (simp only [List.length_cons]; omega)

/-- The value of a member behind its key. -/
def memberValue (ts : List Token) : Outline × Rest ts :=
  match ts with
  | [] => (.absent, ⟨[], Nat.le_refl _⟩)
  | [.colon] => (.absent, ⟨[], Nat.zero_le _⟩)
  | .colon :: t :: ts =>
    let (item, ⟨rest, h⟩) := value t ts
    (item, ⟨rest, Nat.le_succ_of_le (Nat.le_succ_of_le h)⟩)
  | _ => (.broken .malformed .malformed, ⟨[], Nat.zero_le _⟩)
termination_by 2 * ts.length + 1
decreasing_by all_goals (simp only [List.length_cons]; omega)

/-- The members of an object behind a member. -/
def moreMembers (ts : List Token) : List (Option String × Outline) × Ending × Rest ts :=
  match ts with
  | [] => ([], .cut .truncated, ⟨[], Nat.le_refl _⟩)
  | .closeObject :: ts => ([], .closed, ⟨ts, Nat.le_succ _⟩)
  | [.comma] => ([], .dangling .truncated, ⟨[], Nat.zero_le _⟩)
  | .comma :: .brokenString read skip :: _ =>
    ([], .brokenKey read skip, ⟨[], Nat.zero_le _⟩)
  | .comma :: .string key :: ts =>
    let (item, ⟨rest, h⟩) := memberValue ts
    let (more, ending, ⟨rest', h'⟩) := moreMembers rest
    ((key, item) :: more, ending,
      ⟨rest', Nat.le_succ_of_le (Nat.le_succ_of_le (Nat.le_trans h' h))⟩)
  | .comma :: _ => ([], .dangling .malformed, ⟨[], Nat.zero_le _⟩)
  | _ => ([], .cut .malformed, ⟨[], Nat.zero_le _⟩)
termination_by 2 * ts.length
decreasing_by all_goals (simp only [List.length_cons]; omega)

end

/-- The first value of some tokens, and the tokens behind it. -/
def ofTokens : List Token → Outline × List Token
  | [] => (.absent, [])
  | t :: ts =>
    let (outline, rest) := value t ts
    (outline, rest.val)

end Outline

end TaggedUnion.Json
