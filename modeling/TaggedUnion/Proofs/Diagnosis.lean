import TaggedUnion.Proofs.Construction
import TaggedUnion.Proofs.Violations

/-!
# Every violation is reported once

A declared field is faulty in one way at most (`Field.Faulty.unique`), so the scan over the declared
fields gives one violation for each that is not admitted, in declaration order
(`Field.forall₂_faulty`).  `v.Reports` puts this together with the undeclared fields of the record,
and it determines the report (`Variant.exists_reports_iff`).

Each violation is at one field (`Variant.Reports.map_path`), and no field is reported twice:
declared names are distinct, the names of the record are distinct, and the second scan leaves out
what the first one covers (`Variant.Reports.nodup_paths`).
-/

namespace TaggedUnion

/-! ### Fields -/

namespace Field

variable {f : Field} {value? : Option Scalar} {e e' : Violation}

instance (f : Field) (value? : Option Scalar) : Decidable (f.Admits value?) :=
  decidable_of_iff _ (violation?_eq_none_iff f value?)

/-- A field is faulty in one way at most. -/
theorem Faulty.unique (h : f.Faulty value? e) (h' : f.Faulty value? e') : e = e' := by
  rw [← violation?_eq_some_iff] at h h'
  exact Option.some.inj (h.symm.trans h')

theorem Faulty.path_eq (h : f.Faulty value? e) : e.path = [f.name] := by
  cases h with
  | missing => rfl
  | mismatched => rfl

/-- The scan over declared fields reports each one that is not admitted, in order. -/
theorem forall₂_faulty (r : Record) (fields : List Field) :
    List.Forall₂ (fun f e => f.Faulty (r.get? f.name) e)
      (fields.filter fun f => ¬ f.Admits (r.get? f.name))
      (fields.filterMap fun f => f.violation? (r.get? f.name)) := by
  induction fields with
  | nil => exact .nil
  | cons f fields ih =>
    cases hviolation : f.violation? (r.get? f.name) with
    | none =>
      have hadmits := (f.violation?_eq_none_iff _).mp hviolation
      rw [List.filter_cons_of_neg (by simpa using hadmits),
        List.filterMap_cons_none (by exact hviolation)]
      exact ih
    | some e =>
      have hadmits : ¬ f.Admits (r.get? f.name) := by
        rw [← violation?_eq_none_iff, hviolation]
        exact Option.some_ne_none e
      rw [List.filter_cons_of_pos (by simpa using hadmits),
        List.filterMap_cons_some (by exact hviolation)]
      exact .cons (violation?_eq_some_iff.mp hviolation) ih

end Field

/-! ### Variants -/

namespace Variant

/-- What there is to report of a record with the tag value of the variant: violations of declared
fields, and the names of undeclared ones. -/
structure Reports (v : Variant) (tagField : String) (options : DecodeOptions) (r : Record)
    (declared : List Violation) (undeclared : List String) : Prop where
  /-- One violation for each declared field that is not admitted, in declaration order. -/
  faulty : List.Forall₂ (fun f e => f.Faulty (r.get? f.name) e)
    (v.fields.filter fun f => ¬ f.Admits (r.get? f.name)) declared
  /-- Each name that is neither the tag field nor declared, in record order. -/
  rejected : options.unknownFields = .reject →
    undeclared = r.keys.filter fun name => name ≠ tagField ∧ name ∉ v.fieldNames
  ignored : options.unknownFields = .ignore → undeclared = []

variable {v : Variant} {tagField : String} {options : DecodeOptions} {r : Record}

theorem reports_violations (v : Variant) (tagField : String) (options : DecodeOptions)
    (r : Record) :
    v.Reports tagField options r (v.fieldViolations r) (v.unexpected tagField options r) := by
  refine ⟨Field.forall₂_faulty r v.fields, fun hreject => ?_, fun hignore => ?_⟩
  · rw [unexpected, hreject]
    exact v.undeclared_eq tagField r
  · rw [unexpected, hignore]

variable {declared declared' : List Violation} {undeclared undeclared' : List String}

theorem Reports.unique (h : v.Reports tagField options r declared undeclared)
    (h' : v.Reports tagField options r declared' undeclared') :
    declared = declared' ∧ undeclared = undeclared' := by
  constructor
  · have hunique : Relator.RightUnique fun (f : Field) e => f.Faulty (r.get? f.name) e :=
      fun _ _ _ he he' => he.unique he'
    exact List.right_unique_forall₂' hunique h.faulty h'.faulty
  · cases hunknown : options.unknownFields with
    | reject => rw [h.rejected hunknown, h'.rejected hunknown]
    | ignore => rw [h.ignored hunknown, h'.ignored hunknown]

/-- The violations of a record are what there is to report. -/
theorem exists_reports_iff {es : List Violation} :
    (∃ declared undeclared, es = declared ++ undeclared.map .unexpectedField ∧
      v.Reports tagField options r declared undeclared) ↔
    es = v.violations tagField options r := by
  have hreports := v.reports_violations tagField options r
  constructor
  · rintro ⟨declared, undeclared, rfl, h⟩
    obtain ⟨rfl, rfl⟩ := h.unique hreports
    exact (v.violations_eq tagField options r).symm
  · rintro rfl
    exact ⟨_, _, v.violations_eq tagField options r, hreports⟩

/-! ### Where the violations are -/

/-- Each violation is at one field: the faulty ones come first, then the undeclared ones. -/
theorem Reports.map_path (h : v.Reports tagField options r declared undeclared) :
    (declared ++ undeclared.map Violation.unexpectedField).map Violation.path =
      ((v.fields.filter fun f => ¬ f.Admits (r.get? f.name)).map Field.name ++
        undeclared).map fun name => [name] := by
  have hdeclared : ((v.fields.filter fun f => ¬ f.Admits (r.get? f.name)).map
      fun f => [f.name]) = declared.map Violation.path := by
    rw [← List.forall₂_eq_eq_eq, List.forall₂_map_left_iff, List.forall₂_map_right_iff]
    exact h.faulty.imp fun f e he => he.path_eq.symm
  rw [List.map_append, List.map_append, ← hdeclared, List.map_map, List.map_map]
  rfl

theorem Reports.nodup_undeclared (h : v.Reports tagField options r declared undeclared) :
    undeclared.Nodup ∧ ∀ name ∈ undeclared, name ∉ v.fieldNames := by
  cases hunknown : options.unknownFields with
  | reject =>
    rw [h.rejected hunknown]
    refine ⟨r.nodup.filter _, fun name hname => ?_⟩
    exact (of_decide_eq_true (List.mem_filter.mp hname).2).2
  | ignore =>
    rw [h.ignored hunknown]
    exact ⟨List.nodup_nil, fun name hname => absurd hname List.not_mem_nil⟩

/-- No field is reported twice. -/
theorem Reports.nodup_paths (hnames : v.fieldNames.Nodup)
    (h : v.Reports tagField options r declared undeclared) :
    ((declared ++ undeclared.map Violation.unexpectedField).map Violation.path).Nodup := by
  have hfaulty : ((v.fields.filter fun f => ¬ f.Admits (r.get? f.name)).map Field.name).Sublist
      v.fieldNames := List.filter_sublist.map Field.name
  obtain ⟨hundeclared, hdisjoint⟩ := h.nodup_undeclared
  rw [h.map_path]
  apply List.Nodup.map fun _ _ heq => List.head_eq_of_cons_eq heq
  refine List.nodup_append.mpr ⟨hfaulty.nodup hnames, hundeclared, ?_⟩
  -- A faulty field is declared, and an undeclared one is not.
  rintro name hname _ hname' rfl
  exact hdisjoint name hname' (hfaulty.subset hname)

end Variant

/-! ### Registries -/

namespace Registry

variable {R : Registry} {options : DecodeOptions} {r : Record} {v : Variant}

theorem resolve_of_lacks (h : r.get? R.tagField = none ∨ r.get? R.tagField = some .null) :
    R.resolve r = .error (.missingTag R.tagField) := by
  unfold resolve
  rcases h with h | h
  · rw [h]
  · rw [h]

theorem resolve_of_mistyped {value : Scalar} (h : r.get? R.tagField = some value)
    (hnull : value.kind ≠ .null) (hstring : value.kind ≠ .string) :
    R.resolve r = .error (.typeMismatch R.tagField .string value.kind) := by
  unfold resolve
  rw [h]
  cases value with
  | null => exact absurd rfl hnull
  | string tag => exact absurd rfl hstring
  | _ => rfl

theorem resolve_of_unregistered {tag : String} (h : r.get? R.tagField = some (.string tag))
    (htag : tag ∉ R.tags) : R.resolve r = .error (.unknownTag R.tagField tag) := by
  unfold resolve
  rw [h]
  simp only [get?_eq_none_iff.mpr htag]

/-- The paths of a report are distinct. -/
theorem nodup_paths_of_decode {es : List Violation} (h : R.decode options r = .error es) :
    (es.map Violation.path).Nodup := by
  cases hresolve : R.resolve r with
  | error e =>
    rw [decode_of_resolve_error hresolve] at h
    rw [← Except.error.inj h]
    exact List.nodup_singleton _
  | ok v =>
    have hv := resolve_eq_ok_iff.mp hresolve
    have hnames := (R.wellFormed.fields v hv.registered).distinct
    rw [((decode_eq_error_iff hv).mp h).2, v.violations_eq]
    exact (v.reports_violations R.tagField options r).nodup_paths hnames

/-- What decoding reports.  A tag field that names no variant is the only violation: it is missing,
holds no text, or holds a text that is not registered.  Otherwise there is one violation for each
declared field that the record lacks or has with a wrong kind of value, in declaration order, and
then, if undeclared fields are rejected, one for each of them in record order.  No field is reported
twice. -/
theorem decode_reports_each_violation (R : Registry) (options : DecodeOptions) (r : Record) :
    (r.get? R.tagField = none ∨ r.get? R.tagField = some .null →
      R.decode options r = .error [.missingTag R.tagField]) ∧
    (∀ value, r.get? R.tagField = some value → value.kind ≠ .null → value.kind ≠ .string →
      R.decode options r = .error [.typeMismatch R.tagField .string value.kind]) ∧
    (∀ tag, r.get? R.tagField = some (.string tag) → tag ∉ R.tags →
      R.decode options r = .error [.unknownTag R.tagField tag]) ∧
    (∀ v, R.Resolves r v → ∀ es, R.decode options r = .error es ↔
      es ≠ [] ∧ ∃ declared undeclared, es = declared ++ undeclared.map .unexpectedField ∧
        v.Reports R.tagField options r declared undeclared) ∧
    ∀ es, R.decode options r = .error es →
      (es.map Violation.path).Nodup ∧ ∀ e ∈ es, ∃ name, e.path = [name] := by
  refine ⟨?_, ?_, ?_, ?_, ?_⟩
  · exact fun h => decode_of_resolve_error (resolve_of_lacks h)
  · exact fun value h hnull hstring =>
      decode_of_resolve_error (resolve_of_mistyped h hnull hstring)
  · exact fun tag h htag => decode_of_resolve_error (resolve_of_unregistered h htag)
  · intro v hv es
    rw [decode_eq_error_iff hv, Variant.exists_reports_iff]
  · intro es h
    refine ⟨nodup_paths_of_decode h, fun e _ => ?_⟩
    cases e <;> exact ⟨_, rfl⟩

end Registry

/-! ### A reading to try the law on -/

/-- A reading with a null for a required field, a text for a number, a null for an optional field
and two fields that are not declared. -/
def Sample.botched : Record where
  entries := [("note", .null), ("value", .string "high"), ("type", .string "reading"),
    ("seq", .null), ("sensor", .null), ("unit", .int 1)]
  nodup := by decide

theorem Registry.decode_reports_botched :
    Sample.readings.Resolves Sample.botched Sample.reading ∧
    Sample.readings.decode .strict Sample.botched =
      .error [.missingField "sensor", .typeMismatch "value" .float .string,
        .unexpectedField "note", .unexpectedField "unit"] ∧
    ([.missingField "sensor", .typeMismatch "value" .float .string, .unexpectedField "note",
      .unexpectedField "unit"].map Violation.path).Nodup ∧
    Sample.readings.decode .strict ⟨[("type", .null), ("unit", .int 1)], by decide⟩ =
      .error [.missingTag "type"] ∧
    Sample.readings.decode .strict ⟨[("type", .int 3)], by decide⟩ =
      .error [.typeMismatch "type" .string .int] ∧
    Sample.readings.decode .strict ⟨[("type", .string "alarm")], by decide⟩ =
      .error [.unknownTag "type" "alarm"] := by
  have hresolves : Sample.readings.Resolves Sample.botched Sample.reading :=
    ⟨List.mem_cons_self, rfl⟩
  have htakes : ¬ FieldType.Takes .float .string := by
    rintro (h | ⟨-, h⟩)
    · cases h
    · cases h
  have hreports : Sample.reading.Reports "type" .strict Sample.botched
      [.missingField "sensor", .typeMismatch "value" .float .string] ["note", "unit"] :=
    ⟨.cons (.missing rfl (.inr rfl)) (.cons (.mismatched (by decide) htakes) .nil),
      fun _ => rfl, fun h => by cases h⟩
  obtain ⟨-, -, -, hresolved, hpaths⟩ :=
    decode_reports_each_violation Sample.readings .strict Sample.botched
  have hrefused : Sample.readings.decode .strict Sample.botched =
      .error [.missingField "sensor", .typeMismatch "value" .float .string,
        .unexpectedField "note", .unexpectedField "unit"] :=
    (hresolved _ hresolves _).mpr ⟨List.cons_ne_nil _ _, _, _, rfl, hreports⟩
  refine ⟨hresolves, hrefused, (hpaths _ hrefused).1, ?_, ?_, ?_⟩
  · exact (decode_reports_each_violation _ _ _).1 (.inr rfl)
  · exact (decode_reports_each_violation _ _ _).2.1 (.int 3) rfl (by decide) (by decide)
  · exact (decode_reports_each_violation _ _ _).2.2.1 "alarm" rfl (by decide)

end TaggedUnion
