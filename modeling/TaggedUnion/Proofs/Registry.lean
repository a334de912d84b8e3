import TaggedUnion.Registry
import Mathlib.Data.List.Nodup

/-!
# What a registry guarantees

A definition has no problems exactly when it is well-formed (`Definition.problems_eq_nil_iff`): the
tag field is not blank, there are variants, and all names can be told apart where they have to be.
The scans for duplicates carry the names seen so far, so their laws are stated for names that are
`Fresh` with respect to a list of earlier ones.

A registry is therefore what a well-formed definition gives (`Registry.ofDefinition_eq_ok_iff`).  In
it a tag value finds the variant that has it (`Registry.get?_eq_some_iff`), and the tag field
followed by the fields of a variant are distinct names (`Registry.nodup_canonicalNames`).
-/

namespace TaggedUnion

namespace Definition

/-! ### Names seen before -/

/-- The names are distinct, and none is among those seen before. -/
structure Fresh (seen names : List String) : Prop where
  distinct : names.Nodup
  unseen : ∀ name ∈ names, name ∉ seen

theorem fresh_nil (seen : List String) : Fresh seen [] :=
  ⟨List.nodup_nil, fun _ h => absurd h List.not_mem_nil⟩

/-- A scan over fresh names adds each one to those seen. -/
theorem fresh_cons {seen names : List String} {name : String} :
    Fresh seen (name :: names) ↔ name ∉ seen ∧ Fresh (name :: seen) names := by
  constructor
  · rintro ⟨hdistinct, hunseen⟩
    rw [List.nodup_cons] at hdistinct
    refine ⟨hunseen name List.mem_cons_self, hdistinct.2, ?_⟩
    intro other hother hmem
    rcases List.mem_cons.mp hmem with rfl | hseen
    · exact hdistinct.1 hother
    · exact hunseen other (List.mem_cons_of_mem _ hother) hseen
  · rintro ⟨hname, hdistinct, hunseen⟩
    have hnot : name ∉ names := fun hmem => hunseen name hmem List.mem_cons_self
    refine ⟨List.nodup_cons.mpr ⟨hnot, hdistinct⟩, ?_⟩
    intro other hother
    rcases List.mem_cons.mp hother with rfl | hother
    · exact hname
    · exact fun hseen => hunseen other hother (List.mem_cons_of_mem _ hseen)

theorem fresh_nil_left {names : List String} : Fresh [] names ↔ names.Nodup :=
  ⟨Fresh.distinct, fun h => ⟨h, fun _ _ => List.not_mem_nil⟩⟩

/-! ### Well-formed definitions -/

/-- The names of the fields of a variant: none is empty or the tag field, and none occurs twice. -/
structure FieldsWellFormed (tagField : String) (names : List String) : Prop where
  nonempty : ∀ name ∈ names, name ≠ ""
  unreserved : tagField ∉ names
  distinct : names.Nodup

structure WellFormed (tagField : String) (variants : List Variant) : Prop where
  tagField_nonblank : ¬ Text.isBlankText tagField
  variants_nonempty : variants ≠ []
  tags_nonempty : ∀ v ∈ variants, v.tag ≠ ""
  tags_distinct : (variants.map Variant.tag).Nodup
  fields : ∀ v ∈ variants, FieldsWellFormed tagField v.fieldNames

/-- What the scan over fields checks, when `seen` holds the names of the fields before. -/
theorem fieldProblems_eq_nil_iff (tagField tag : String) (seen : List String)
    (fields : List Field) :
    fieldProblems tagField tag seen fields = [] ↔
      (∀ f ∈ fields, f.name ≠ "" ∧ f.name ≠ tagField) ∧ Fresh seen (fields.map Field.name) := by
  induction fields generalizing seen with
  | nil => simp [fieldProblems, fresh_nil]
  | cons f rest ih =>
    rw [fieldProblems, List.map_cons, fresh_cons]
    -- A name that is reported makes both sides false; a new one moves to those seen.
    by_cases hempty : f.name = ""
    · rw [if_pos hempty]
      simp [hempty]
    rw [if_neg hempty]
    by_cases hreserved : f.name = tagField
    · rw [if_pos hreserved]
      simp [hreserved]
    rw [if_neg hreserved]
    by_cases hseen : f.name ∈ seen
    · rw [if_pos hseen]
      simp [hseen]
    rw [if_neg hseen, ih, List.forall_mem_cons]
    simp [hempty, hreserved, hseen]

theorem tagProblems_eq_nil_iff (seen : List String) (tag : String) :
    tagProblems seen tag = [] ↔ tag ≠ "" ∧ tag ∉ seen := by
  unfold tagProblems
  split_ifs with hempty hseen
  · simp [hempty]
  · simp [hseen]
  · simp [hempty, hseen]

/-- Fields without problems are well-formed. -/
theorem fieldProblems_nil_eq_nil_iff (tagField : String) (v : Variant) :
    fieldProblems tagField v.tag [] v.fields = [] ↔ FieldsWellFormed tagField v.fieldNames := by
  rw [fieldProblems_eq_nil_iff, fresh_nil_left]
  constructor
  · rintro ⟨hnames, hdistinct⟩
    refine ⟨?_, ?_, hdistinct⟩
    · intro name hname
      obtain ⟨f, hf, rfl⟩ := List.mem_map.mp hname
      exact (hnames f hf).1
    · intro hname
      obtain ⟨f, hf, heq⟩ := List.mem_map.mp hname
      exact (hnames f hf).2 heq
  · rintro ⟨hnonempty, hunreserved, hdistinct⟩
    refine ⟨fun f hf => ?_, hdistinct⟩
    have hname : f.name ∈ v.fieldNames := List.mem_map_of_mem hf
    exact ⟨hnonempty _ hname, fun heq => hunreserved (heq ▸ hname)⟩

/-- What the scan over variants checks, when `seen` holds the tag values of the variants before. -/
theorem variantProblems_eq_nil_iff (tagField : String) (seen : List String)
    (variants : List Variant) :
    variantProblems tagField seen variants = [] ↔
      (∀ v ∈ variants, v.tag ≠ "") ∧ Fresh seen (variants.map Variant.tag) ∧
        ∀ v ∈ variants, FieldsWellFormed tagField v.fieldNames := by
  induction variants generalizing seen with
  | nil => simp [variantProblems, fresh_nil]
  | cons v rest ih =>
    rw [variantProblems, List.append_eq_nil_iff, List.append_eq_nil_iff, tagProblems_eq_nil_iff,
      fieldProblems_nil_eq_nil_iff, ih, List.map_cons, fresh_cons, List.forall_mem_cons,
      List.forall_mem_cons]
    tauto

/-- A definition has no problems exactly when it is well-formed. -/
theorem problems_eq_nil_iff (tagField : String) (variants : List Variant) :
    problems tagField variants = [] ↔ WellFormed tagField variants := by
  unfold problems
  split_ifs with hblank hempty
  · exact iff_of_false (by simp) fun h => h.tagField_nonblank hblank
  · exact iff_of_false (by simp) fun h => h.variants_nonempty hempty
  · rw [variantProblems_eq_nil_iff, fresh_nil_left]
    constructor
    · rintro ⟨htags, hdistinct, hfields⟩
      exact ⟨hblank, hempty, htags, hdistinct, hfields⟩
    · intro h
      exact ⟨h.tags_nonempty, h.tags_distinct, h.fields⟩

end Definition

namespace Registry

/-- The registries are the results of `ofDefinition`, with what they were defined by. -/
theorem ofDefinition_eq_ok_iff {tagField : String} {variants : List Variant} {R : Registry} :
    ofDefinition tagField variants = .ok R ↔ R.tagField = tagField ∧ R.variants = variants := by
  obtain ⟨tagField', variants', sound⟩ := R
  unfold ofDefinition
  split
  · next h => simp [eq_comm]
  · next problem rest h =>
    refine iff_of_false (by simp) ?_
    rintro ⟨rfl, rfl⟩
    rw [sound] at h
    cases h

theorem wellFormed (R : Registry) : Definition.WellFormed R.tagField R.variants :=
  (Definition.problems_eq_nil_iff _ _).mp R.sound

/-- A tag value finds the variant that has it, which no other variant does. -/
theorem get?_eq_some_iff {R : Registry} {tag : String} {v : Variant} :
    R.get? tag = some v ↔ v ∈ R.variants ∧ v.tag = tag := by
  constructor
  · intro h
    exact ⟨List.mem_of_find?_eq_some h, by simpa using List.find?_some h⟩
  · rintro ⟨hv, rfl⟩
    cases hfind : R.get? v.tag with
    | none =>
      have := List.find?_eq_none.mp hfind v hv
      simp at this
    | some w =>
      -- What is found has the tag value of `v`, so it is `v`.
      have hw : w ∈ R.variants := List.mem_of_find?_eq_some hfind
      have htag : w.tag = v.tag := by simpa using List.find?_some hfind
      rw [List.inj_on_of_nodup_map R.wellFormed.tags_distinct hw hv htag]

theorem get?_tag {R : Registry} {v : Variant} (hv : v ∈ R.variants) : R.get? v.tag = some v :=
  get?_eq_some_iff.mpr ⟨hv, rfl⟩

/-- The names of a record of a variant in canonical order: the tag field, then the fields of the
variant as declared. -/
def canonicalNames (R : Registry) (v : Variant) : List String :=
  R.tagField :: v.fieldNames

theorem nodup_canonicalNames {R : Registry} {v : Variant} (hv : v ∈ R.variants) :
    (R.canonicalNames v).Nodup :=
  List.nodup_cons.mpr ⟨(R.wellFormed.fields v hv).unreserved, (R.wellFormed.fields v hv).distinct⟩

end Registry

end TaggedUnion
