import TaggedUnion.Proofs.Document
import Mathlib.Logic.Relation

/-!
# Definitions written differently

The document that is read does not depend on how its definition is written
(`Document.ofOutline_of_respelled`).  A single change puts the members of an object in another
order, adds one that the shape does not know, writes out what an absent part stands for, or changes
how one part is written (`Outline.Edit`).  Fields, variants and documents are changed so, each
through a part of the next: a field through its type, which has two names (`FieldType.Renaming`), a
variant through its fields and a document through its variants.

* An object is read as a value exactly when its members spell the parts of the value
  (`Outline.keyed_object_eq_ok_iff`), so a change keeps the value if it keeps what is spelled
  (`Outline.Spells.perm`, `Outline.spells_cons_of_unknown`, `Outline.spells_cons_of_default`,
  `Outline.Spells.congr_member`).
* A value can be given as the list of its parts too, where one part can still be changed
  (`Outline.readItems_item_iff`).
* What one change keeps, any sequence of changes and their reverses keeps
  (`Outline.sameReading_of_eqvGen`).
-/

namespace TaggedUnion

namespace Json.Outline

variable {α : Type} {read : Outline → Except Error α} {a b c o o' : Outline}

/-- Two outlines are read as the same values. -/
def SameReading (read : Outline → Except Error α) (a b : Outline) : Prop :=
  ∀ x, read a = .ok x ↔ read b = .ok x

/-! ### Lists -/

/-- A list with one item written differently. -/
inductive ItemEdit (edit : Outline → Outline → Prop) : Outline → Outline → Prop where
  | item {o o' : Outline} (h : edit o o') (before after : List Outline) (ending : Ending) :
    ItemEdit edit (.array (before ++ o :: after) ending) (.array (before ++ o' :: after) ending)

theorem mapM_item_iff (h : SameReading read o o') (before after : List Outline)
    (values : List α) :
    (before ++ o :: after).mapM read = .ok values ↔
      (before ++ o' :: after).mapM read = .ok values := by
  induction before generalizing values with
  | nil => simp only [List.nil_append, List.mapM_cons, bind_eq_ok_iff, h _]
  | cons first before ih => simp only [List.cons_append, List.mapM_cons, bind_eq_ok_iff, ih]

theorem ItemEdit.sameReading {edit : Outline → Outline → Prop}
    (hedit : ∀ o o', edit o o' → SameReading read o o') (h : ItemEdit edit a b) :
    SameReading (list read) a b := by
  obtain ⟨h, before, after, ending⟩ := h
  intro x
  simp only [list, bind_eq_ok_iff, mapM_item_iff (hedit _ _ h)]

/-! ### Objects -/

section Shapes

variable {Key : Type} {S : Shape Key α} {parts : (k : Key) → S.Value k}
  {members members' : List (String × Outline)} {m : String × Outline} {k : Key}

/-- A value with a shape written differently: the members of an object in another order, one more
member with a name that the shape does not know, a part that was left out written as what it stands
for, or one part written differently. -/
inductive Edit (S : Shape Key α) (defaults : List (String × Outline))
    (part : Key → Outline → Outline → Prop) : Outline → Outline → Prop where
  | permute {members members' : List (String × Outline)} (h : members.Perm members') :
    Edit S defaults part (.object (spelled members) .closed) (.object (spelled members') .closed)
  | addUnknown {name : String} {value : Outline} (hname : name ∉ S.keys.map S.label)
      (hvalue : value.Complete) (members : List (String × Outline)) :
    Edit S defaults part (.object (spelled members) .closed)
      (.object (spelled ((name, value) :: members)) .closed)
  | writeDefault {m : String × Outline} (h : m ∈ defaults) {members : List (String × Outline)}
      (habsent : m.1 ∉ Entries.keys members) :
    Edit S defaults part (.object (spelled members) .closed)
      (.object (spelled (m :: members)) .closed)
  | member {k : Key} {o o' : Outline} (h : part k o o') (members : List (String × Outline)) :
    Edit S defaults part (.object (spelled ((S.label k, o) :: members)) .closed)
      (.object (spelled ((S.label k, o') :: members)) .closed)
  /-- A value is also written as the list of its parts. -/
  | item {k : Key} {o o' : Outline} (h : part k o o') {before : List Outline}
      (hk : S.keys[before.length]? = some k) (after : List Outline) (ending : Ending) :
    Edit S defaults part (.array (before ++ o :: after) ending)
      (.array (before ++ o' :: after) ending)

theorem label_of_key? {name : String} (h : S.key? name = some k) : S.label k = name := by
  simpa using List.find?_some h

theorem key?_eq_none {name : String} (h : name ∉ S.keys.map S.label) : S.key? name = none := by
  rw [Shape.key?, List.find?_eq_none]
  intro k hk
  rw [decide_eq_true_eq]
  exact fun heq => h (List.mem_map.mpr ⟨k, hk, heq⟩)

/-- A name that no member has names no part. -/
theorem not_mem_named (h : S.label k ∉ Entries.keys members) : k ∉ named S members := by
  intro hmem
  obtain ⟨m, hm, hk⟩ := List.mem_filterMap.mp hmem
  rw [label_of_key? hk] at h
  exact h (List.mem_map_of_mem hm)

variable {read : (k : Key) → Outline → Except Error (S.Value k)}

theorem Spells.perm (hperm : members.Perm members') (h : Spells S read parts members) :
    Spells S read parts members' := by
  have hnamed : (named S members).Perm (named S members') := hperm.filterMap _
  exact ⟨hnamed.nodup h.distinct, fun m hm => h.known m (hperm.mem_iff.mpr hm),
    fun m hm => h.unknown m (hperm.mem_iff.mpr hm),
    fun k hk => h.absent k fun hmem => hk (hnamed.mem_iff.mp hmem)⟩

/-- A member that names no part is beside the point. -/
theorem spells_cons_of_unknown (hk : S.key? m.1 = none) (hskip : m.2.skip = .ok ()) :
    Spells S read parts (m :: members) ↔ Spells S read parts members := by
  have hnamed := named_cons_of_unknown hk members
  constructor
  · intro h
    exact ⟨hnamed ▸ h.distinct, (List.forall_mem_cons.mp h.known).2,
      (List.forall_mem_cons.mp h.unknown).2, hnamed ▸ h.absent⟩
  · intro h
    refine ⟨hnamed ▸ h.distinct, ?_, ?_, hnamed ▸ h.absent⟩
    · exact List.forall_mem_cons.mpr ⟨fun k hk' => by simp [hk] at hk', h.known⟩
    · exact List.forall_mem_cons.mpr ⟨fun _ => hskip, h.unknown⟩

/-- A member that gives a part as what it stands for anyway says nothing new. -/
theorem spells_cons_of_default {part : S.Value k} (hk : S.key? m.1 = some k)
    (hnew : k ∉ named S members) (hdefault : S.fallback k = some part)
    (hread : read k m.2 = .ok part) :
    Spells S read parts (m :: members) ↔ Spells S read parts members := by
  have hnamed := named_cons_of_known hk members
  constructor
  · intro h
    have hparts : part = parts k :=
      Except.ok.inj (hread.symm.trans (h.known m List.mem_cons_self k hk))
    have hdistinct := h.distinct
    rw [hnamed, List.nodup_cons] at hdistinct
    refine ⟨hdistinct.2, (List.forall_mem_cons.mp h.known).2,
      (List.forall_mem_cons.mp h.unknown).2, fun k' hk' => ?_⟩
    by_cases heq : k' = k
    · subst heq
      rw [hdefault, hparts]
    · apply h.absent k'
      rw [hnamed, List.mem_cons, not_or]
      exact ⟨heq, hk'⟩
  · intro h
    have hparts : part = parts k := Option.some.inj (hdefault.symm.trans (h.absent k hnew))
    refine ⟨?_, ?_, ?_, fun k' hk' => h.absent k' fun hmem => hk' ?_⟩
    · rw [hnamed]
      exact List.nodup_cons.mpr ⟨hnew, h.distinct⟩
    · refine List.forall_mem_cons.mpr ⟨fun k' hk' => ?_, h.known⟩
      obtain rfl : k = k' := Option.some.inj (hk.symm.trans hk')
      rw [hread, hparts]
    · exact List.forall_mem_cons.mpr ⟨fun hk' => by simp [hk] at hk', h.unknown⟩
    · rw [hnamed]
      exact List.mem_cons_of_mem k hmem

theorem Spells.congr_member {name : String} (hk : S.key? name = some k)
    (hread : ∀ x, read k o = .ok x → read k o' = .ok x)
    (h : Spells S read parts ((name, o) :: members)) :
    Spells S read parts ((name, o') :: members) := by
  refine ⟨h.distinct, ?_, ?_, h.absent⟩
  · refine List.forall_mem_cons.mpr ⟨fun k' hk' => ?_, (List.forall_mem_cons.mp h.known).2⟩
    obtain rfl : k = k' := Option.some.inj (hk.symm.trans hk')
    exact hread _ (h.known _ List.mem_cons_self k hk)
  · refine List.forall_mem_cons.mpr ⟨fun hk' => ?_, (List.forall_mem_cons.mp h.unknown).2⟩
    simp [hk] at hk'

variable [DecidableEq Key]

theorem sameReading_of_spells
    (h : ∀ parts, Spells S read parts members ↔ Spells S read parts members') :
    SameReading (keyed S read) (.object (spelled members) .closed)
      (.object (spelled members') .closed) := by
  intro x
  simp only [keyed_object_eq_ok_iff, h]

theorem readItems_item_iff (before after : List Outline) (keys : List Key) (slots slots' : S.Slots)
    (h : ∀ k, keys[before.length]? = some k → SameReading (read k) o o') :
    readItems S read slots keys (before ++ o :: after) = .ok slots' ↔
      readItems S read slots keys (before ++ o' :: after) = .ok slots' := by
  induction before generalizing keys slots with
  | nil =>
    cases keys with
    | nil => simp only [readItems]
    | cons k keys => simp only [List.nil_append, readItems, bind_eq_ok_iff, h k rfl _]
  | cons first before ih =>
    cases keys with
    | nil => simp only [readItems]
    | cons k keys => simp only [List.cons_append, readItems, bind_eq_ok_iff, ih keys _ h]

theorem Edit.sameReading {defaults : List (String × Outline)}
    {part : Key → Outline → Outline → Prop} (hS : S.Sound)
    (hdefaults : ∀ m ∈ defaults, ∃ k v, S.label k = m.1 ∧ S.fallback k = some v ∧
      read k m.2 = .ok v)
    (hpart : ∀ k o o', part k o o' → SameReading (read k) o o') (h : Edit S defaults part a b) :
    SameReading (keyed S read) a b := by
  induction h with
  | permute h => exact sameReading_of_spells fun parts => ⟨Spells.perm h, Spells.perm h.symm⟩
  | addUnknown hname hvalue members =>
    exact sameReading_of_spells fun parts =>
      (spells_cons_of_unknown (key?_eq_none hname) (skip_of_complete hvalue)).symm
  | writeDefault h habsent =>
    obtain ⟨k, v, hlabel, hdefault, hread⟩ := hdefaults _ h
    rw [← hlabel] at habsent
    have hk := hS.key?_label k
    rw [hlabel] at hk
    exact sameReading_of_spells fun parts =>
      (spells_cons_of_default hk (not_mem_named habsent) hdefault hread).symm
  | @member k _ _ h members =>
    have hsame := hpart _ _ _ h
    exact sameReading_of_spells fun parts =>
      ⟨Spells.congr_member (hS.key?_label k) fun x => (hsame x).mp,
        Spells.congr_member (hS.key?_label k) fun x => (hsame x).mpr⟩
  | @item k o o' h before hk after ending =>
    have hitem : ∀ k', S.keys[before.length]? = some k' → SameReading (read k') o o' := by
      intro k' hk'
      obtain rfl : k = k' := Option.some.inj (hk.symm.trans hk')
      exact hpart k o o' h
    have hlength : (before ++ o :: after).length = (before ++ o' :: after).length := by simp
    intro x
    rw [keyed, keyed, bind_eq_ok_iff, bind_eq_ok_iff, hlength]
    simp only [readItems_item_iff before after S.keys _ _ hitem]

end Shapes

/-- What no single change affects, no sequence of changes affects, back and forth. -/
theorem sameReading_of_eqvGen {edit : Outline → Outline → Prop}
    (hedit : ∀ a b, edit a b → SameReading read a b) (h : Relation.EqvGen edit a b) :
    SameReading read a b := by
  induction h with
  | rel a b h => exact hedit a b h
  | refl a => exact fun x => Iff.rfl
  | symm a b _ ih => exact fun x => (ih x).symm
  | trans a b c _ _ hab hbc => exact fun x => (hab x).trans (hbc x)

end Json.Outline

open Json Outline

/-! ### Field types -/

namespace FieldType

/-- The two names of each type. -/
def aliases : List (String × String) :=
  [("int", "integer"), ("bool", "boolean"), ("string", "str"), ("float", "number")]

/-- A type under its other name, which is given as a text or as the key of a null. -/
inductive Renaming : Outline → Outline → Prop where
  | text {x y : String} (h : (x, y) ∈ aliases) : Renaming (.string (some x)) (.string (some y))
  | key {x y : String} (h : (x, y) ∈ aliases) :
    Renaming (.object [(some x, .null)] .closed) (.object [(some y, .null)] .closed)

theorem nameValue_of_mem_aliases {x y : String} (h : (x, y) ∈ aliases) :
    nameValue names x = nameValue names y := by
  simp only [aliases, List.mem_cons, Prod.mk.injEq, List.not_mem_nil, or_false] at h
  rcases h with ⟨rfl, rfl⟩ | ⟨rfl, rfl⟩ | ⟨rfl, rfl⟩ | ⟨rfl, rfl⟩ <;> rfl

theorem Renaming.sameReading {a b : Outline} (h : Renaming a b) :
    SameReading FieldType.ofOutline a b := by
  have heq : FieldType.ofOutline a = FieldType.ofOutline b := by
    cases h with
    | text h => exact nameValue_of_mem_aliases h
    | key h => exact congrArg (fun value => value >>= fun t => pure t) (nameValue_of_mem_aliases h)
  intro t
  rw [heq]

end FieldType

/-! ### Definitions -/

namespace Field

/-- How the parts of a field that may be left out are written. -/
def defaults : List (String × Outline) :=
  [("required", .bool true), ("description", .null)]

/-- A field written differently. -/
abbrev Edit : Outline → Outline → Prop :=
  Outline.Edit Field.shape defaults fun
    | .type => FieldType.Renaming
    | _ => fun _ _ => False

theorem Edit.sameReading {a b : Outline} (h : Field.Edit a b) :
    SameReading Field.ofOutline a b := by
  refine Outline.Edit.sameReading shape_sound ?_ ?_ h
  · intro m hm
    simp only [defaults, List.mem_cons, List.not_mem_nil, or_false] at hm
    rcases hm with rfl | rfl
    · exact ⟨.required, true, rfl, rfl, rfl⟩
    · exact ⟨.description, none, rfl, rfl, rfl⟩
  · intro k o o' h
    cases k with
    | type => exact FieldType.Renaming.sameReading h
    | _ => exact h.elim

end Field

namespace Variant

/-- How the parts of a variant that may be left out are written. -/
def defaults : List (String × Outline) :=
  [("name", .string (some "")), ("fields", .array [] .closed), ("description", .null)]

/-- A variant written differently. -/
abbrev Edit : Outline → Outline → Prop :=
  Outline.Edit Variant.shape defaults fun
    | .fields => ItemEdit Field.Edit
    | _ => fun _ _ => False

theorem Edit.sameReading {a b : Outline} (h : Variant.Edit a b) :
    SameReading Variant.ofOutline a b := by
  refine Outline.Edit.sameReading shape_sound ?_ ?_ h
  · intro m hm
    simp only [defaults, List.mem_cons, List.not_mem_nil, or_false] at hm
    rcases hm with rfl | rfl | rfl
    · exact ⟨.name, "", rfl, rfl, rfl⟩
    · exact ⟨.fields, [], rfl, rfl, rfl⟩
    · exact ⟨.description, none, rfl, rfl, rfl⟩
  · intro k o o' h
    cases k with
    | fields => exact ItemEdit.sameReading (fun _ _ => Field.Edit.sameReading) h
    | _ => exact h.elim

end Variant

namespace Document

/-- How the parts of a document that may be left out are written. -/
def defaults : List (String × Outline) :=
  [("tagFieldName", .string (some "tag")), ("schemaVersion", .null)]

/-- A document written differently. -/
abbrev Edit : Outline → Outline → Prop :=
  Outline.Edit Document.shape defaults fun
    | .variants => ItemEdit Variant.Edit
    | _ => fun _ _ => False

theorem Edit.sameReading {a b : Outline} (h : Document.Edit a b) :
    SameReading Document.ofOutline a b := by
  refine Outline.Edit.sameReading shape_sound ?_ ?_ h
  · intro m hm
    simp only [defaults, List.mem_cons, List.not_mem_nil, or_false] at hm
    rcases hm with rfl | rfl
    · exact ⟨.tagField, "tag", rfl, rfl, rfl⟩
    · exact ⟨.schemaVersion, none, rfl, rfl, rfl⟩
  · intro k o o' h
    cases k with
    | variants => exact ItemEdit.sameReading (fun _ _ => Variant.Edit.sameReading) h
    | _ => exact h.elim

/-- Two ways to write the same document, by any sequence of changes and their reverses. -/
def Respelled : Outline → Outline → Prop :=
  Relation.EqvGen Document.Edit

/-- However a document is written, it is the same document.  So it has the same problems, defines
the same registry and has the same fingerprint. -/
theorem ofOutline_of_respelled {a b : Outline} {d : Document} (hab : Respelled a b)
    (ha : Document.ofOutline a = .ok d) :
    Document.ofOutline b = .ok d ∧
    (∀ text : String, Outline.ofTokens (Json.tokens text.toList) = (b, []) →
      Document.parse .json text = .ok d) ∧
    ∀ d', Document.ofOutline b = .ok d' → d'.problems = d.problems ∧
      d'.toRegistry = d.toRegistry ∧ d'.fingerprint = d.fingerprint := by
  have hb : Document.ofOutline b = .ok d :=
    (sameReading_of_eqvGen (fun _ _ => Edit.sameReading) hab d).mp ha
  refine ⟨hb, fun text htext => ?_, fun d' hd' => ?_⟩
  · apply mapError_eq_ok_iff.mpr
    rw [Json.parseWith, readWith_of_ofTokens htext]
    exact hb
  · obtain rfl : d' = d := Except.ok.inj (hd'.symm.trans hb)
    exact ⟨rfl, rfl, rfl⟩

end Document

/-! ### A document to try the law on -/

namespace Sample

/-- A document with one variant of one field, whose type is given under a name, and with some more
members. -/
def outlineWith (members : List (String × Outline)) (type : String) : Outline :=
  let field := [("type", .string (some type)), ("name", .string (some "x"))]
  let variant := [("fields", .array [.object (spelled field) .closed] .closed),
    ("tagValue", .string (some "a"))]
  .object (spelled (members ++ [("variants", .array [.object (spelled variant) .closed] .closed)]))
    .closed

theorem respelled_outlineWith :
    Document.Respelled (outlineWith [("schemaVersion", .null)] "int")
      (outlineWith [("note", .array [.bool true] .closed)] "integer") := by
  have homit : Document.Edit (outlineWith [] "int")
      (outlineWith [("schemaVersion", .null)] "int") :=
    .writeDefault (by simp [Document.defaults]) (by decide)
  have htype : FieldType.Renaming (.string (some "int")) (.string (some "integer")) :=
    .text (by simp [FieldType.aliases])
  have hfield : Field.Edit
      (.object (spelled [("type", .string (some "int")), ("name", .string (some "x"))]) .closed)
      (.object (spelled [("type", .string (some "integer")), ("name", .string (some "x"))])
        .closed) :=
    Outline.Edit.member (k := Field.Key.type) htype _
  have hrename : Document.Edit (outlineWith [] "int") (outlineWith [] "integer") :=
    Outline.Edit.member (k := Document.Key.variants)
      (.item (Outline.Edit.member (k := Variant.Key.fields) (.item hfield [] [] .closed) _) [] []
        .closed) []
  have hadd : Document.Edit (outlineWith [] "integer")
      (outlineWith [("note", .array [.bool true] .closed)] "integer") :=
    .addUnknown (by decide) (.array (by simp [Complete.bool])) _
  exact (Relation.EqvGen.symm _ _ (.rel _ _ homit)).trans _ _ _
    ((Relation.EqvGen.rel _ _ hrename).trans _ _ _ (.rel _ _ hadd))

end Sample

theorem Document.ofOutline_sample_respelled :
    Document.ofOutline (Sample.outlineWith [("note", .array [.bool true] .closed)] "integer") =
      .ok
        { schemaVersion := none, tagField := "tag"
          variants := [{ tag := "a", fields := [{ name := "x", type := .int }] }] } :=
  (ofOutline_of_respelled Sample.respelled_outlineWith rfl).1

end TaggedUnion
