import TaggedUnion.Proofs.Json.Locality

/-!
# Texts of objects

An object is written as its members with commas between them, in braces, and blanks may stand
wherever no token is cut (`Json.objectText`).  A member is a text of its name and a text of its
value (`Json.MemberText`), the latter without faults but not always one that is read: a numeral may
be too large.

The outline of the object has the outlines of the members (`Json.reads_objectText`).  So the text is
read as an object if each value is read (`Json.json_objectOutline`), and not otherwise
(`Json.exists_of_json_objectOutline`).
-/

namespace TaggedUnion.Json

open Outline

/-! ### Names -/

/-- A string is one token. -/
theorem eq_of_ofTokens_string {ts rest : List Token} {text : Option String}
    (h : ofTokens ts = (.string text, rest)) : ts = .string text :: rest := by
  cases ts with
  | nil => cases h
  | cons t ts =>
    rw [ofTokens] at h
    obtain ⟨hvalue, hrest⟩ := Prod.mk.inj h
    cases t with
    | string text' =>
      rw [value] at hvalue hrest
      rw [Outline.string.inj hvalue]
      exact congrArg _ hrest
    | openObject =>
      rw [value_openObject, members.eq_def] at hvalue
      split at hvalue <;> cases hvalue
    | _ =>
      rw [value.eq_def] at hvalue
      cases hvalue

theorem tokens_of_parse_string {text : List Char} {s : String} (h : parse text = .ok (.string s)) :
    tokens text = [.string (some s)] := by
  obtain ⟨o, htokens, hjson⟩ := ofTokens_of_readWith h
  cases gives_of_json hjson
  exact eq_of_ofTokens_string htokens

theorem parse_eq_string_iff {text : List Char} {s : String} :
    parse text = .ok (.string s) ↔ tokens text = [.string (some s)] := by
  refine ⟨tokens_of_parse_string, fun h => ?_⟩
  rw [parse, parseWith, h, readWith_of_ofTokens (o := .string (some s)) (by rw [ofTokens, value])]
  rfl

/-! ### Members -/

/-- A member as it is written: a text of its name and a text of its value. -/
structure MemberText where
  key : String
  name : List Char
  value : List Char
  parse_name : parse name = .ok (.string key)
  isValue : IsValue value

namespace MemberText

/-- The characters of a member. -/
def chars (m : MemberText) : List Char :=
  m.name ++ ':' :: m.value

theorem cuts_chars (m : MemberText) :
    Tree.Cuts m.chars (.string (some m.key) :: .colon :: tokens m.value) := by
  intro rest hrest
  have hname := (isValue_of_parse m.parse_name).1.cuts
  rw [chars, List.append_assoc, List.cons_append, hname _ rfl, tokens_colon,
    m.isValue.cuts rest hrest, tokens_of_parse_string m.parse_name]
  rfl

end MemberText

/-- The outline of an object with these members. -/
def objectOutline (members : List MemberText) : Outline :=
  .object (members.map fun m => (some m.key, outlineOf m.value)) .closed

/-- An object as it is written, with blanks around it. -/
def objectText (before after : List Char) (members : List MemberText) : List Char :=
  before ++ '\x7b' :: ([','].intercalate (members.map MemberText.chars) ++ '\x7d' :: after)

variable {members : List MemberText} {before after : List Char} {room : Nat} {v : Json}

theorem reads_objectText (hbefore : ∀ c ∈ before, isSpace c = true)
    (hafter : ∀ c ∈ after, isSpace c = true) :
    Reads (tokens (objectText before after members)) (objectOutline members) [] := by
  have hcuts := Tree.cuts_intercalate fun m (_ : m ∈ members) => m.cuts_chars
  have htokens : tokens (objectText before after members) = .openObject ::
      ((members.flatMap fun m =>
        .comma :: .string (some m.key) :: .colon :: tokens m.value).tail ++ [.closeObject]) := by
    rw [objectText, tokens_append_of_isSpace hbefore, tokens_openObject, hcuts _ rfl,
      tokens_closeObject, tokens_eq_nil_iff.mpr hafter]
  rw [htokens]
  exact reads_object_flatMap (fun m : MemberText => some m.key) (fun m _ => m.isValue.reads) []

/-! ### Values -/

theorem json_objectOutline {value : MemberText → Json}
    (h : ∀ m ∈ members, (outlineOf m.value).json room = .ok (value m)) :
    (objectOutline members).json (room + 1) =
      .ok (.object (Entries.insertAll [] (members.map fun m => (m.key, value m)))) := by
  apply json_object
  rw [List.forall₂_map_left_iff, List.forall₂_map_right_iff, List.forall₂_same]
  exact fun m hm => ⟨rfl, h m hm⟩

theorem exists_of_json_objectOutline (h : (objectOutline members).json room = .ok v) :
    ∃ room', ∀ m ∈ members, ∃ value, (outlineOf m.value).json room' = .ok value := by
  obtain ⟨room', entries, -, -, -, hentries⟩ := exists_of_json_object h
  refine ⟨room', fun m hm => ?_⟩
  rw [List.forall₂_map_left_iff] at hentries
  obtain ⟨entry, -, hentry⟩ := exists_of_forall₂ hentries m hm
  exact ⟨entry.2, hentry⟩

/-- A scalar is read whatever room there is for nesting. -/
theorem json_of_scalar {o : Outline} {room' : Nat} (h : o.json room = .ok v)
    (harray : ∀ items, v ≠ .array items) (hobject : ∀ members, v ≠ .object members) :
    o.json room' = .ok v := by
  refine json_of_depth_le h ?_
  cases gives_of_json h with
  | array _ values => exact absurd rfl (harray values)
  | object _ entries => exact absurd rfl (hobject _)
  | _ => exact Nat.zero_le _

end TaggedUnion.Json
