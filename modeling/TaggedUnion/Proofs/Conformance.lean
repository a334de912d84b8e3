import TaggedUnion.Decoding
import TaggedUnion.Proofs.Record
import TaggedUnion.Proofs.Registry

/-!
# Decoding accepts the records that conform

`R.Resolves r v` says that the record `r` carries the tag value of the variant `v` of `R`, and
`v.Conforms tagField options r` that the fields of `r` are what `v` declares.  Neither mentions the
scans of the decoder.  Each part of the decoder has its law here: `resolve` finds the variant that
`Resolves` describes (`resolve_eq_ok_iff`), a field is without violation exactly when its
declaration admits what the record has (`Field.violation?_eq_none_iff`), and no violation at all is
conformance (`Variant.violations_eq_nil_iff`).

Together they say when decoding gives an instance and which one (`decode_eq_ok_iff`): the tag value
of the variant with the declared fields that the record has, in declaration order.
-/

namespace TaggedUnion

/-! ### Types and kinds -/

namespace FieldType

/-- The kind of values that a type is named for. -/
def kind : FieldType → Kind
  | .int => .int
  | .bool => .bool
  | .string => .string
  | .float => .float

/-- A type takes the values of its own kind, and the floating-point type takes integers too. -/
def Takes (t : FieldType) (k : Kind) : Prop :=
  k = t.kind ∨ t = .float ∧ k = .int

theorem accepts_iff (t : FieldType) (value : Scalar) :
    t.accepts value = true ↔ t.Takes value.kind := by
  cases t <;> cases value <;> simp [accepts, Takes, kind, Scalar.kind]

end FieldType

/-! ### Fields -/

/-- What a declaration admits under its name, `none` standing for no field of the name. -/
structure Field.Admits (f : Field) (value? : Option Scalar) : Prop where
  /-- A required field is there, not null, and of a kind that the type takes. -/
  required : f.required = true →
    ∃ value, value? = some value ∧ value ≠ .null ∧ f.type.Takes value.kind
  /-- An optional field that is there is null or of a kind that the type takes. -/
  optional : f.required = false →
    ∀ value, value? = some value → value = .null ∨ f.type.Takes value.kind

namespace Field

variable {f : Field} {value : Scalar}

theorem admits_none_iff : f.Admits none ↔ f.required = false := by
  constructor
  · intro h
    rw [← Bool.not_eq_true]
    intro hrequired
    obtain ⟨value, hvalue, -⟩ := h.required hrequired
    cases hvalue
  · intro h
    exact ⟨fun hrequired => by simp [h] at hrequired, fun _ value hvalue => by cases hvalue⟩

theorem admits_null_iff : f.Admits (some .null) ↔ f.required = false := by
  constructor
  · intro h
    rw [← Bool.not_eq_true]
    intro hrequired
    obtain ⟨value, hvalue, hnull, -⟩ := h.required hrequired
    exact hnull (Option.some.inj hvalue).symm
  · intro h
    refine ⟨fun hrequired => by simp [h] at hrequired, fun _ value hvalue => ?_⟩
    exact Or.inl (Option.some.inj hvalue).symm

/-- Whether a field is required makes no difference to values other than null. -/
theorem admits_some_iff (hvalue : value ≠ .null) :
    f.Admits (some value) ↔ f.type.Takes value.kind := by
  constructor
  · intro h
    cases hrequired : f.required with
    | true =>
      obtain ⟨value', heq, -, htakes⟩ := h.required hrequired
      rwa [Option.some.inj heq]
    | false =>
      rcases h.optional hrequired value rfl with hnull | htakes
      · exact absurd hnull hvalue
      · exact htakes
  · intro h
    refine ⟨fun _ => ⟨value, rfl, hvalue, h⟩, fun _ value' heq => ?_⟩
    rw [← Option.some.inj heq]
    exact Or.inr h

/-- A field is without violation exactly when its declaration admits what the record has. -/
theorem violation?_eq_none_iff (f : Field) (value? : Option Scalar) :
    f.violation? value? = none ↔ f.Admits value? := by
  cases value? with
  | none =>
    rw [admits_none_iff, violation?]
    simp
  | some value =>
    -- Null is judged like an absent field, before the type is asked.
    by_cases hnull : value = .null
    · subst hnull
      rw [admits_null_iff, violation?]
      simp
    · rw [admits_some_iff hnull, ← FieldType.accepts_iff]
      cases value <;> simp [violation?] at hnull ⊢

end Field

/-! ### Variants -/

/-- The fields of a record with the tag value of the variant are what the variant declares. -/
structure Variant.Conforms (v : Variant) (tagField : String) (options : DecodeOptions)
    (r : Record) : Prop where
  fields : ∀ f ∈ v.fields, f.Admits (r.get? f.name)
  /-- Where undeclared fields are rejected, there are none. -/
  declared : options.unknownFields = .reject →
    ∀ name ∈ r.keys, name = tagField ∨ name ∈ v.fieldNames

namespace Variant

variable {v : Variant}

theorem declares_iff {name : String} : v.declares name = true ↔ name ∈ v.fieldNames := by
  unfold declares field? fieldNames
  rw [List.find?_isSome, List.mem_map]
  simp only [decide_eq_true_eq]

theorem fieldViolations_eq_nil_iff (v : Variant) (r : Record) :
    v.fieldViolations r = [] ↔ ∀ f ∈ v.fields, f.Admits (r.get? f.name) := by
  unfold fieldViolations
  rw [List.filterMap_eq_nil_iff]
  simp only [Field.violation?_eq_none_iff]

theorem undeclared_eq_nil_iff (v : Variant) (tagField : String) (r : Record) :
    v.undeclared tagField r = [] ↔ ∀ name ∈ r.keys, name = tagField ∨ name ∈ v.fieldNames := by
  unfold undeclared
  rw [List.filter_eq_nil_iff]
  simp only [← declares_iff]
  refine forall₂_congr fun name _ => ?_
  by_cases htag : name = tagField <;> simp [htag]

theorem violations_eq_nil_iff (v : Variant) (tagField : String) (options : DecodeOptions)
    (r : Record) : v.violations tagField options r = [] ↔ v.Conforms tagField options r := by
  unfold violations
  rw [List.append_eq_nil_iff, fieldViolations_eq_nil_iff]
  cases hunknown : options.unknownFields with
  | reject =>
    rw [List.map_eq_nil_iff, undeclared_eq_nil_iff]
    exact ⟨fun h => ⟨h.1, fun _ => h.2⟩, fun h => ⟨h.fields, h.declared hunknown⟩⟩
  | ignore =>
    simp only [and_true]
    exact ⟨fun h => ⟨h, fun hreject => by simp [hunknown] at hreject⟩, Conforms.fields⟩

theorem select_eq (v : Variant) (r : Record) :
    v.select r =
      v.fieldNames.filterMap fun name => (r.get? name).map fun value => (name, value) := by
  rw [select, fieldNames, List.filterMap_map]
  rfl

/-- `select` picks the declared fields. -/
theorem picks_select (v : Variant) (r : Record) : r.Picks v.fieldNames (v.select r) := by
  rw [select_eq]
  exact r.picks_filterMap v.fieldNames

/-- Whether a record conforms depends on its declared fields and, for the undeclared ones, on its
names. -/
theorem Conforms.congr {tagField : String} {options options' : DecodeOptions} {r s : Record}
    (hget : ∀ name ∈ v.fieldNames, s.get? name = r.get? name)
    (hkeys : ∀ name ∈ s.keys, name = tagField ∨ name ∈ v.fieldNames)
    (h : v.Conforms tagField options r) : v.Conforms tagField options' s := by
  refine ⟨fun f hf => ?_, fun _ => hkeys⟩
  rw [hget f.name (List.mem_map_of_mem hf)]
  exact h.fields f hf

end Variant

/-! ### Readings to try the laws on -/

namespace Sample

/-- A variant with required and optional fields. -/
def reading : Variant where
  tag := "reading"
  fields := [{ name := "sensor", type := .string }, { name := "value", type := .float },
    { name := "calibrated", type := .bool, required := false },
    { name := "seq", type := .int, required := false }]

def readings : Registry where
  tagField := "type"
  variants := [reading, { tag := "heartbeat" }]
  sound := by decide

/-- A reading out of order, with an integer for a floating-point number, a null and an absent
field. -/
def record : Record where
  entries := [("value", .int 20), ("type", .string "reading"), ("calibrated", .null),
    ("sensor", .string "t1")]
  nodup := by decide

/-- The record with a field that no variant declares. -/
def noisyRecord : Record :=
  record.insert "note" (.bool true)

/-- What both records are decoded to. -/
def decoded : Instance where
  tag := "reading"
  fields := ⟨[("sensor", .string "t1"), ("value", .int 20), ("calibrated", .null)], by decide⟩

end Sample

/-! ### Registries -/

namespace Registry

/-- The record carries the tag value of `v`, a variant of `R`. -/
structure Resolves (R : Registry) (r : Record) (v : Variant) : Prop where
  registered : v ∈ R.variants
  tagged : r.get? R.tagField = some (.string v.tag)

variable {R : Registry} {options : DecodeOptions} {r : Record} {v w : Variant} {i : Instance}

theorem Resolves.unique (hv : R.Resolves r v) (hw : R.Resolves r w) : v = w := by
  have htag : Scalar.string v.tag = Scalar.string w.tag :=
    Option.some.inj (hv.tagged.symm.trans hw.tagged)
  exact List.inj_on_of_nodup_map R.wellFormed.tags_distinct hv.registered hw.registered
    (Scalar.string.inj htag)

theorem resolve_eq_ok_iff : R.resolve r = .ok v ↔ R.Resolves r v := by
  constructor
  · intro h
    unfold resolve at h
    split at h
    · cases h
    · cases h
    · next tag htag =>
      split at h
      · next w hw =>
        obtain rfl := Except.ok.inj h
        obtain ⟨hmem, rfl⟩ := get?_eq_some_iff.mp hw
        exact ⟨hmem, htag⟩
      · cases h
    · cases h
  · intro h
    unfold resolve
    rw [h.tagged]
    simp only [get?_tag h.registered]

/-- The fields that decoding selects have distinct names, so the instance holds them as they are. -/
theorem picks_ofEntries_select (hv : v ∈ R.variants) (r : Record) :
    r.Picks v.fieldNames (Record.ofEntries (v.select r)).entries := by
  have hpicks := v.picks_select r
  rw [Record.entries_ofEntries (hpicks.nodup_keys (R.wellFormed.fields v hv).distinct)]
  exact hpicks

theorem decode_eq_ok_iff : R.decode options r = .ok i ↔
    ∃ v, R.Resolves r v ∧ v.Conforms R.tagField options r ∧ i.tag = v.tag ∧
      r.Picks v.fieldNames i.fields.entries := by
  constructor
  · intro h
    unfold decode at h
    split at h
    · cases h
    · next v hv =>
      have hv := resolve_eq_ok_iff.mp hv
      split at h
      · next hnil =>
        obtain rfl := Except.ok.inj h
        exact ⟨v, hv, (v.violations_eq_nil_iff _ _ _).mp hnil, rfl,
          picks_ofEntries_select hv.registered r⟩
      · cases h
  · rintro ⟨v, hv, hconforms, htag, hpicks⟩
    unfold decode
    rw [resolve_eq_ok_iff.mpr hv]
    simp only [(v.violations_eq_nil_iff _ _ _).mpr hconforms]
    -- The instance is determined: its fields are picked, and picking has one outcome.
    obtain ⟨tag, fields⟩ := i
    have hfields : Record.ofEntries (v.select r) = fields :=
      Record.ext ((picks_ofEntries_select hv.registered r).unique hpicks)
    rw [hfields, ← htag]

/-- Decoding gives an instance exactly for the records that resolve and conform.  The instance has
the tag value of the variant and the declared fields of the record in declaration order, with the
values of the record; the tag field and undeclared fields are not among them. -/
theorem decode_accepts_iff_conforms (R : Registry) (options : DecodeOptions) (r : Record) :
    ((∃ i, R.decode options r = .ok i) ↔
      ∃ v, R.Resolves r v ∧ v.Conforms R.tagField options r) ∧
    ∀ i, R.decode options r = .ok i → ∀ v, R.Resolves r v →
      i.tag = v.tag ∧ r.Picks v.fieldNames i.fields.entries ∧
      R.tagField ∉ i.fields.keys ∧ ∀ name ∈ i.fields.keys, name ∈ v.fieldNames := by
  refine ⟨⟨?_, ?_⟩, ?_⟩
  · rintro ⟨i, h⟩
    obtain ⟨v, hv, hconforms, -⟩ := decode_eq_ok_iff.mp h
    exact ⟨v, hv, hconforms⟩
  · rintro ⟨v, hv, hconforms⟩
    refine ⟨⟨v.tag, .ofEntries (v.select r)⟩, decode_eq_ok_iff.mpr ?_⟩
    exact ⟨v, hv, hconforms, rfl, picks_ofEntries_select hv.registered r⟩
  · intro i h v hv
    obtain ⟨w, hw, -, htag, hpicks⟩ := decode_eq_ok_iff.mp h
    obtain rfl := hw.unique hv
    have hdeclared : ∀ name ∈ i.fields.keys, name ∈ w.fieldNames :=
      fun name hname => (hpicks.mem_keys_iff.mp hname).1
    refine ⟨htag, hpicks, fun hmem => ?_, hdeclared⟩
    exact (R.wellFormed.fields w hw.registered).unreserved (hdeclared _ hmem)

theorem decode_accepts_reading :
    (∃ v, Sample.readings.Resolves Sample.record v ∧
      v.Conforms Sample.readings.tagField .strict Sample.record) ∧
    Sample.record.Picks Sample.reading.fieldNames Sample.decoded.fields.entries := by
  obtain ⟨hiff, hdecoded⟩ := decode_accepts_iff_conforms Sample.readings .strict Sample.record
  refine ⟨hiff.mp ⟨Sample.decoded, rfl⟩, ?_⟩
  exact (hdecoded Sample.decoded rfl Sample.reading ⟨List.mem_cons_self, rfl⟩).2.1

end Registry

end TaggedUnion
