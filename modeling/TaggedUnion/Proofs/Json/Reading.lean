import TaggedUnion.Json.Reading
import TaggedUnion.Proofs.Except
import TaggedUnion.Proofs.Json.Outline
import Mathlib.Data.List.Forall2

/-!
# What reading a value asks for

An outline is complete when no fault is in it (`Outline.Complete`).  Only complete outlines are read
as values (`Outline.complete_of_json`), and every complete outline can be passed over
(`Outline.skip_of_complete`).

How deeply an outline is nested (`Outline.depth`) is all that the limit on nesting is about: an
outline that can be read is read as the same value with any room for as many levels
(`Outline.json_of_depth_le`).  The laws go by induction over outlines (`Outline.nested`) and rest on
what reading an array or an object comes down to, member by member (`Outline.exists_of_json_array`,
`Outline.exists_of_json_object`).

A text is read through the outline of the one value in it (`Json.readWith_of_ofTokens`); for the
text of a tree, in either layout, this is the outline of the tree (`Tree.parseWith_compact`,
`Tree.parseWith_pretty`).
-/

namespace TaggedUnion

section Forall₂

variable {α β : Type} {P Q : α → β → Prop} {as : List α} {bs : List β}

theorem forall₂_imp_of_mem (h : List.Forall₂ P as bs) (himp : ∀ a ∈ as, ∀ b, P a b → Q a b) :
    List.Forall₂ Q as bs :=
  ((List.forall₂_and_left as bs).mpr ⟨himp, h⟩).imp fun _ b hab => hab.1 b hab.2

theorem exists_of_forall₂ (h : List.Forall₂ P as bs) : ∀ a ∈ as, ∃ b, P a b :=
  ((List.forall₂_and_left as bs).mp (h.imp fun _ b hab => ⟨⟨b, hab⟩, hab⟩)).1

end Forall₂

namespace Json.Outline

/-! ### Outlines as trees -/

/-- Induction over outlines, through the lists in them. -/
@[elab_as_elim]
theorem nested {P : Outline → Prop} (null : P .null) (bool : ∀ b, P (.bool b))
    (number : ∀ n, P (.number n)) (string : ∀ text, P (.string text))
    (array : ∀ items e, (∀ o ∈ items, P o) → P (.array items e))
    (object : ∀ members e, (∀ m ∈ members, P m.2) → P (.object members e))
    (headless : P .headless) (absent : P .absent)
    (brokenString : ∀ read skip, P (.brokenString read skip))
    (broken : ∀ read skip, P (.broken read skip)) (o : Outline) : P o :=
  @Outline.rec P (fun items => ∀ o ∈ items, P o) (fun members => ∀ m ∈ members, P m.2)
    (fun m => P m.2) null bool number string array object headless absent brokenString broken
    (by simp) (by simp +contextual) (by simp) (by simp +contextual) (by simp) o

/-- The outline of a value without faults. -/
inductive Complete : Outline → Prop where
  | null : Complete .null
  | bool (b : Bool) : Complete (.bool b)
  | number (n : Numeral) : Complete (.number n)
  | string (text : Option String) : Complete (.string text)
  | array {items : List Outline} : (∀ o ∈ items, Complete o) → Complete (.array items .closed)
  | object {members : List (Option String × Outline)} :
    (∀ m ∈ members, Complete m.2) → Complete (.object members .closed)

mutual

/-- How deeply arrays and objects are nested. -/
def depth : Outline → Nat
  | .array items _ => itemsDepth items + 1
  | .object members _ => membersDepth members + 1
  | _ => 0

def itemsDepth : List Outline → Nat
  | [] => 0
  | item :: rest => max item.depth (itemsDepth rest)

def membersDepth : List (Option String × Outline) → Nat
  | [] => 0
  | (_, value) :: rest => max value.depth (membersDepth rest)

end

variable {o : Outline} {items : List Outline} {members : List (Option String × Outline)}
  {e : Ending} {room room' : Nat} {value : Json}

theorem complete_array_iff :
    (Outline.array items e).Complete ↔ e = .closed ∧ ∀ o ∈ items, o.Complete := by
  constructor
  · rintro ⟨⟩
    exact ⟨rfl, by assumption⟩
  · rintro ⟨rfl, h⟩
    exact .array h

theorem complete_object_iff :
    (Outline.object members e).Complete ↔ e = .closed ∧ ∀ m ∈ members, m.2.Complete := by
  constructor
  · rintro ⟨⟩
    exact ⟨rfl, by assumption⟩
  · rintro ⟨rfl, h⟩
    exact .object h

theorem itemsDepth_le_iff {n : Nat} : itemsDepth items ≤ n ↔ ∀ o ∈ items, o.depth ≤ n := by
  induction items with
  | nil => simp [itemsDepth]
  | cons item rest ih => rw [itemsDepth, Nat.max_le, ih, List.forall_mem_cons]

theorem membersDepth_le_iff {n : Nat} :
    membersDepth members ≤ n ↔ ∀ m ∈ members, m.2.depth ≤ n := by
  induction members with
  | nil => simp [membersDepth]
  | cons m rest ih => rw [membersDepth, Nat.max_le, ih, List.forall_mem_cons]

/-! ### Arrays and objects -/

theorem eq_closed_of_close {u : Unit} (h : e.close = .ok u) : e = .closed := by
  cases e with
  | closed => rfl
  | _ => cases h

theorem readString_eq_ok_iff {text : Option String} {s : String} :
    readString text = .ok s ↔ text = some s := by
  cases text <;> simp [readString]

/-- Items are read one by one. -/
theorem jsonItems_eq_ok_iff {values : List Json} :
    jsonItems room items = .ok values ↔
      List.Forall₂ (fun o value => o.json room = .ok value) items values := by
  induction items generalizing values with
  | nil => rw [jsonItems, List.forall₂_nil_left_iff, Except.ok.injEq, eq_comm]
  | cons item rest ih =>
    rw [jsonItems, List.forall₂_cons_left_iff]
    constructor
    · intro h
      obtain ⟨value, hvalue, h⟩ := bind_eq_ok_iff.mp h
      obtain ⟨more, hmore, h⟩ := bind_eq_ok_iff.mp h
      exact ⟨value, more, hvalue, ih.mp hmore, (Except.ok.inj h).symm⟩
    · rintro ⟨value, more, hvalue, hmore, rfl⟩
      exact bind_eq_ok_iff.mpr ⟨value, hvalue, bind_eq_ok_iff.mpr ⟨more, ih.mpr hmore, rfl⟩⟩

/-- A member is read as an entry. -/
def ReadAs (room : Nat) (member : Option String × Outline) (entry : String × Json) : Prop :=
  member.1 = some entry.1 ∧ member.2.json room = .ok entry.2

/-- Members are read one by one and inserted in their order. -/
theorem jsonMembers_eq_ok_iff {done values : List (String × Json)} :
    jsonMembers room done members = .ok values ↔
      ∃ entries, List.Forall₂ (ReadAs room) members entries ∧
        values = Entries.insertAll done entries := by
  induction members generalizing done with
  | nil =>
    rw [jsonMembers, Except.ok.injEq, eq_comm]
    simp only [List.forall₂_nil_left_iff, exists_eq_left]
    rfl
  | cons m rest ih =>
    obtain ⟨key, item⟩ := m
    rw [jsonMembers]
    constructor
    · intro h
      obtain ⟨name, hname, h⟩ := bind_eq_ok_iff.mp h
      obtain ⟨value, hvalue, h⟩ := bind_eq_ok_iff.mp h
      obtain ⟨entries, hentries, rfl⟩ := ih.mp h
      exact ⟨(name, value) :: entries, .cons ⟨readString_eq_ok_iff.mp hname, hvalue⟩ hentries, rfl⟩
    · rintro ⟨entries, hentries, rfl⟩
      cases hentries with
      | @cons _ entry _ more hm hmore =>
        refine bind_eq_ok_iff.mpr ⟨entry.1, readString_eq_ok_iff.mpr hm.1, ?_⟩
        exact bind_eq_ok_iff.mpr ⟨entry.2, hm.2, ih.mpr ⟨more, hmore, rfl⟩⟩

theorem json_array {values : List Json}
    (h : List.Forall₂ (fun o value => o.json room = .ok value) items values) :
    (Outline.array items .closed).json (room + 1) = .ok (.array values) := by
  rw [json]
  exact bind_eq_ok_iff.mpr ⟨values, jsonItems_eq_ok_iff.mpr h, rfl⟩

theorem json_object {entries : List (String × Json)}
    (h : List.Forall₂ (ReadAs room) members entries) :
    (Outline.object members .closed).json (room + 1) =
      .ok (.object (Entries.insertAll [] entries)) := by
  rw [json]
  exact bind_eq_ok_iff.mpr ⟨_, jsonMembers_eq_ok_iff.mpr ⟨entries, h, rfl⟩, rfl⟩

theorem exists_of_json_array (h : (Outline.array items e).json room = .ok value) :
    ∃ room' values, room = room' + 1 ∧ e = .closed ∧ value = .array values ∧
      List.Forall₂ (fun o value => o.json room' = .ok value) items values := by
  cases room with
  | zero => cases h
  | succ room =>
    rw [json] at h
    obtain ⟨values, hvalues, h⟩ := bind_eq_ok_iff.mp h
    obtain ⟨_, hclose, h⟩ := bind_eq_ok_iff.mp h
    exact ⟨room, values, rfl, eq_closed_of_close hclose, (Except.ok.inj h).symm,
      jsonItems_eq_ok_iff.mp hvalues⟩

theorem exists_of_json_object (h : (Outline.object members e).json room = .ok value) :
    ∃ room' entries, room = room' + 1 ∧ e = .closed ∧
      value = .object (Entries.insertAll [] entries) ∧
      List.Forall₂ (ReadAs room') members entries := by
  cases room with
  | zero => cases h
  | succ room =>
    rw [json] at h
    obtain ⟨values, hvalues, h⟩ := bind_eq_ok_iff.mp h
    obtain ⟨_, hclose, h⟩ := bind_eq_ok_iff.mp h
    obtain ⟨entries, hentries, rfl⟩ := jsonMembers_eq_ok_iff.mp hvalues
    exact ⟨room, entries, rfl, eq_closed_of_close hclose, (Except.ok.inj h).symm, hentries⟩

/-- The kinds of outlines and of the values that they are read as. -/
inductive Gives : Outline → Json → Prop where
  | null : Gives .null .null
  | bool (b : Bool) : Gives (.bool b) (.bool b)
  | number (n : Numeral) (value : Number) : Gives (.number n) (.number value)
  | string (s : String) : Gives (.string (some s)) (.string s)
  | array (items : List Outline) (values : List Json) : Gives (.array items .closed) (.array values)
  | object (members : List (Option String × Outline)) (entries : List (String × Json)) :
    Gives (.object members .closed) (.object (Entries.insertAll [] entries))

theorem gives_of_json (h : o.json room = .ok value) : o.Gives value := by
  cases o with
  | null =>
    cases h
    exact .null
  | bool b =>
    cases h
    exact .bool b
  | number n =>
    rw [json] at h
    cases hn : readNumber n <;> rw [hn] at h <;> cases h
    exact .number n _
  | string text =>
    rw [json] at h
    cases text <;> cases h
    exact .string _
  | array items e =>
    obtain ⟨_, values, -, rfl, rfl, -⟩ := exists_of_json_array h
    exact .array items values
  | object members e =>
    obtain ⟨_, entries, -, rfl, rfl, -⟩ := exists_of_json_object h
    exact .object members entries
  | _ => cases h

/-! ### Passing over -/

theorem skipItems_eq_ok (h : ∀ o ∈ items, o.skip = .ok ()) : skipItems items = .ok () := by
  induction items with
  | nil => rfl
  | cons item rest ih =>
    rw [skipItems, h item List.mem_cons_self]
    exact ih fun o ho => h o (List.mem_cons_of_mem _ ho)

theorem skipMembers_eq_ok (h : ∀ m ∈ members, m.2.skip = .ok ()) :
    skipMembers members = .ok () := by
  induction members with
  | nil => rfl
  | cons m rest ih =>
    rw [skipMembers, h m List.mem_cons_self]
    exact ih fun m hm => h m (List.mem_cons_of_mem _ hm)

/-- A value without faults can be passed over, whatever its numbers and texts. -/
theorem skip_of_complete (h : o.Complete) : o.skip = .ok () := by
  induction h with
  | array _ ih =>
    rw [skip, skipItems_eq_ok ih]
    rfl
  | object _ ih =>
    rw [skip, skipMembers_eq_ok ih]
    rfl
  | _ => rfl

/-! ### Values -/

/-- What can be read has no faults. -/
theorem complete_of_json (h : o.json room = .ok value) : o.Complete := by
  induction o using nested generalizing room value with
  | null => exact .null
  | bool b => exact .bool b
  | number n => exact .number n
  | string text => exact .string text
  | array items e ih =>
    obtain ⟨room', values, -, rfl, -, hvalues⟩ := exists_of_json_array h
    apply Complete.array
    intro o ho
    obtain ⟨value, hvalue⟩ := exists_of_forall₂ hvalues o ho
    exact ih o ho hvalue
  | object members e ih =>
    obtain ⟨room', entries, -, rfl, -, hentries⟩ := exists_of_json_object h
    apply Complete.object
    intro m hm
    obtain ⟨entry, -, hvalue⟩ := exists_of_forall₂ hentries m hm
    exact ih m hm hvalue
  | _ => cases h

/-- Room for the levels that an outline has is enough to read it. -/
theorem json_of_depth_le (h : o.json room = .ok value) (hdepth : o.depth ≤ room') :
    o.json room' = .ok value := by
  induction o using nested generalizing room room' value with
  | array items e ih =>
    obtain ⟨room, values, -, rfl, rfl, hvalues⟩ := exists_of_json_array h
    cases room' with
    | zero => cases hdepth
    | succ room' =>
      rw [depth, Nat.add_le_add_iff_right, itemsDepth_le_iff] at hdepth
      exact json_array (forall₂_imp_of_mem hvalues fun o ho v hv => ih o ho hv (hdepth o ho))
  | object members e ih =>
    obtain ⟨room, entries, -, rfl, rfl, hentries⟩ := exists_of_json_object h
    cases room' with
    | zero => cases hdepth
    | succ room' =>
      rw [depth, Nat.add_le_add_iff_right, membersDepth_le_iff] at hdepth
      exact json_object (forall₂_imp_of_mem hentries fun m hm entry hentry =>
        ⟨hentry.1, ih m hm hentry.2 (hdepth m hm)⟩)
  | _ => exact h

end Json.Outline

/-! ### Whole texts -/

namespace Json

/-- Reading tokens that are one value is reading its outline. -/
theorem readWith_of_ofTokens {α : Type} {read : Outline → Except Error α} {ts : List Token}
    {o : Outline} (h : Outline.ofTokens ts = (o, [])) : readWith read ts = read o := by
  unfold readWith
  rw [h]
  cases hread : read o with
  | error e => simp only [hread, bind, Except.bind]
  | ok a =>
    simp only [hread, bind, Except.bind]
    rfl

/-- What is read from tokens is read from the outline of one value with nothing behind it. -/
theorem ofTokens_of_readWith {α : Type} {read : Outline → Except Error α} {ts : List Token}
    {a : α} (h : readWith read ts = .ok a) :
    ∃ o, Outline.ofTokens ts = (o, []) ∧ read o = .ok a := by
  rcases hts : Outline.ofTokens ts with ⟨o, rest⟩
  rw [readWith, hts] at h
  obtain ⟨b, hread, h⟩ := bind_eq_ok_iff.mp h
  cases rest with
  | nil =>
    obtain rfl := Except.ok.inj h
    exact ⟨o, rfl, hread⟩
  | cons t rest => cases h

end Json

namespace Tree

open Json

variable {α : Type}

theorem parseWith_compact (t : Tree) (read : Outline → Except Error α) :
    parseWith read t.compact.toList = read t.outline := by
  rw [compact, String.toList_ofList]
  exact readWith_of_ofTokens (ofTokens_compactChars t)

theorem parseWith_pretty (t : Tree) (read : Outline → Except Error α) :
    parseWith read t.pretty.toList = read t.outline := by
  rw [pretty, String.toList_ofList]
  exact readWith_of_ofTokens (ofTokens_prettyChars t 0)

end Tree

end TaggedUnion
