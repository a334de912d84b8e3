import TaggedUnion.Proofs.Conformance

/-!
# What decoding reports

Decoding has three outcomes, by what the tag field and the fields of the record give:

* `decode_of_resolve_error`: a tag field that names no variant is the only violation reported;
* `decode_of_violations_ne_nil`: otherwise all violations of the record are reported;
* `decode_of_violations_eq_nil`: without violations the declared fields make up an instance.

`f.Faulty value? e` says what there is to report of a declared field, without mention of how it is
found: a required field that the record lacks, or a value of a kind that the type does not take.  It
is what the decoder reports of the field (`Field.violation?_eq_some_iff`).

The violations of a record fall into two parts that can be told apart again.  Those of declared
fields depend on what the record has under the declared names
(`Variant.fieldViolations_congr`) and are never about unexpected fields
(`Variant.filter_declared_violations`); the rest is about the undeclared names of the record
(`Variant.filter_unexpected_violations`).
-/

namespace TaggedUnion

/-- Whether a violation is a field that the variant does not declare. -/
def Violation.isUnexpected : Violation → Bool
  | .unexpectedField _ => true
  | _ => false

/-! ### Outcomes -/

namespace Registry

variable {R : Registry} {options : DecodeOptions} {r : Record} {v : Variant}

theorem decode_of_resolve_error {e : Violation} (h : R.resolve r = .error e) :
    R.decode options r = .error [e] := by
  unfold decode
  rw [h]

theorem decode_of_violations_eq_nil (hv : R.resolve r = .ok v)
    (h : v.violations R.tagField options r = []) :
    R.decode options r = .ok { tag := v.tag, fields := .ofEntries (v.select r) } := by
  unfold decode
  rw [hv]
  simp only [h]

theorem decode_of_violations_ne_nil (hv : R.resolve r = .ok v)
    (h : v.violations R.tagField options r ≠ []) :
    R.decode options r = .error (v.violations R.tagField options r) := by
  unfold decode
  rw [hv]
  dsimp only
  split
  · next hnil => exact absurd hnil h
  · rfl

/-- A record that resolves is refused exactly with its violations, if it has any. -/
theorem decode_eq_error_iff (hv : R.Resolves r v) {es : List Violation} :
    R.decode options r = .error es ↔ es ≠ [] ∧ es = v.violations R.tagField options r := by
  have hresolve := resolve_eq_ok_iff.mpr hv
  by_cases hnil : v.violations R.tagField options r = []
  · rw [decode_of_violations_eq_nil hresolve hnil, hnil]
    exact iff_of_false (fun h => by cases h) fun h => h.1 h.2
  · rw [decode_of_violations_ne_nil hresolve hnil, Except.error.injEq]
    constructor
    · rintro rfl
      exact ⟨hnil, rfl⟩
    · exact fun h => h.2.symm

/-- The tag field alone decides which variant a record belongs to. -/
theorem resolve_congr {s : Record} (h : s.get? R.tagField = r.get? R.tagField) :
    R.resolve s = R.resolve r := by
  unfold resolve
  rw [h]

end Registry

/-! ### The violation of a field -/

/-- What there is to report of a field, `none` standing for no field of the name in the record. -/
inductive Field.Faulty (f : Field) : Option Scalar → Violation → Prop where
  /-- A required field is absent or null. -/
  | missing {value? : Option Scalar} (hrequired : f.required = true)
    (hlacks : value? = none ∨ value? = some .null) : Faulty f value? (.missingField f.name)
  /-- A value other than null is of a kind that the type does not take. -/
  | mismatched {value : Scalar} (hnull : value ≠ .null) (htakes : ¬ f.type.Takes value.kind) :
    Faulty f (some value) (.typeMismatch f.name f.type value.kind)

namespace Field

variable {f : Field} {value? : Option Scalar} {e : Violation}

theorem violation?_of_lacks (h : value? = none ∨ value? = some .null) :
    f.violation? value? = if f.required then some (.missingField f.name) else none := by
  rcases h with rfl | rfl
  · rfl
  · rfl

theorem violation?_of_ne_null {value : Scalar} (h : value ≠ .null) :
    f.violation? (some value) =
      if f.type.accepts value then none else some (.typeMismatch f.name f.type value.kind) := by
  cases value with
  | null => exact absurd rfl h
  | _ => rfl

theorem violation?_eq_some_iff : f.violation? value? = some e ↔ f.Faulty value? e := by
  constructor
  · intro h
    by_cases hlacks : value? = none ∨ value? = some .null
    · rw [violation?_of_lacks hlacks, Option.ite_none_right_eq_some] at h
      obtain ⟨hrequired, heq⟩ := h
      rw [← Option.some.inj heq]
      exact .missing hrequired hlacks
    · rw [not_or] at hlacks
      obtain ⟨value, rfl⟩ := Option.ne_none_iff_exists'.mp hlacks.1
      have hnull : value ≠ .null := fun hvalue => hlacks.2 (congrArg some hvalue)
      rw [violation?_of_ne_null hnull, Option.ite_none_left_eq_some, FieldType.accepts_iff] at h
      rw [← Option.some.inj h.2]
      exact .mismatched hnull h.1
  · rintro (⟨hrequired, hlacks⟩ | ⟨hnull, htakes⟩)
    · rw [violation?_of_lacks hlacks, if_pos hrequired]
    · rw [← FieldType.accepts_iff] at htakes
      rw [violation?_of_ne_null hnull, if_neg htakes]

/-- The violation of a declared field is about what the field lacks or holds. -/
theorem violation?_cases (h : f.violation? value? = some e) :
    e = .missingField f.name ∨ ∃ kind, e = .typeMismatch f.name f.type kind := by
  cases violation?_eq_some_iff.mp h with
  | missing => exact .inl rfl
  | @mismatched value => exact .inr ⟨value.kind, rfl⟩

end Field

/-! ### The two parts of the violations -/

namespace Variant

variable {v : Variant} {r s : Record}

theorem fieldViolations_congr (h : ∀ name ∈ v.fieldNames, s.get? name = r.get? name) :
    v.fieldViolations s = v.fieldViolations r := by
  unfold fieldViolations
  apply List.filterMap_congr
  intro f hf
  rw [h f.name (List.mem_map_of_mem hf)]

theorem select_congr (h : ∀ name ∈ v.fieldNames, s.get? name = r.get? name) :
    v.select s = v.select r := by
  unfold select
  apply List.filterMap_congr
  intro f hf
  rw [h f.name (List.mem_map_of_mem hf)]

theorem isUnexpected_of_mem_fieldViolations {e : Violation} (h : e ∈ v.fieldViolations r) :
    e.isUnexpected = false := by
  obtain ⟨f, -, hviolation⟩ := List.mem_filterMap.mp h
  rcases Field.violation?_cases hviolation with rfl | ⟨kind, rfl⟩
  · rfl
  · rfl

theorem undeclared_eq (v : Variant) (tagField : String) (r : Record) :
    v.undeclared tagField r =
      r.keys.filter fun name => name ≠ tagField ∧ name ∉ v.fieldNames := by
  unfold undeclared
  apply List.filter_congr
  intro name _
  rw [Bool.eq_iff_iff, Bool.and_eq_true, Bool.not_eq_true', ← Bool.not_eq_true, declares_iff,
    decide_eq_true_eq, decide_eq_true_eq]

/-- The undeclared names, as far as the options make them violations. -/
def unexpected (v : Variant) (tagField : String) (options : DecodeOptions) (r : Record) :
    List String :=
  match options.unknownFields with
  | .reject => v.undeclared tagField r
  | .ignore => []

theorem violations_eq (v : Variant) (tagField : String) (options : DecodeOptions) (r : Record) :
    v.violations tagField options r =
      v.fieldViolations r ++ (v.unexpected tagField options r).map .unexpectedField := by
  unfold violations unexpected
  cases options.unknownFields <;> rfl

/-- A record without undeclared names has no unexpected ones, whatever the options. -/
theorem unexpected_of_declared {tagField : String} (options : DecodeOptions)
    (h : ∀ name ∈ r.keys, name = tagField ∨ name ∈ v.fieldNames) :
    v.unexpected tagField options r = [] := by
  unfold unexpected
  cases options.unknownFields with
  | reject => exact (v.undeclared_eq_nil_iff tagField r).mpr h
  | ignore => rfl

theorem isUnexpected_of_mem_map {names : List String} {e : Violation}
    (h : e ∈ names.map Violation.unexpectedField) : e.isUnexpected = true := by
  obtain ⟨name, -, rfl⟩ := List.mem_map.mp h
  rfl

theorem filter_declared_violations (v : Variant) (tagField : String) (options : DecodeOptions)
    (r : Record) :
    (v.violations tagField options r).filter (fun e => !e.isUnexpected) = v.fieldViolations r := by
  rw [violations_eq, List.filter_append, List.filter_eq_self.mpr, List.filter_eq_nil_iff.mpr,
    List.append_nil]
  · intro e he
    simp [isUnexpected_of_mem_map he]
  · intro e he
    simp [isUnexpected_of_mem_fieldViolations he]

theorem filter_unexpected_violations (v : Variant) (tagField : String) (options : DecodeOptions)
    (r : Record) :
    (v.violations tagField options r).filter Violation.isUnexpected =
      (v.unexpected tagField options r).map .unexpectedField := by
  rw [violations_eq, List.filter_append, List.filter_eq_nil_iff.mpr, List.filter_eq_self.mpr,
    List.nil_append]
  · intro e he
    exact isUnexpected_of_mem_map he
  · intro e he
    simp [isUnexpected_of_mem_fieldViolations he]

end Variant

/-- Decoding depends on what the record has under the names of its variant, and on the names that
are unexpected. -/
theorem Registry.decode_congr {R : Registry} {v : Variant} {r s : Record}
    {options options' : DecodeOptions} (hv : R.Resolves r v)
    (hget : ∀ name ∈ R.canonicalNames v, s.get? name = r.get? name)
    (hunexpected : v.unexpected R.tagField options s = v.unexpected R.tagField options' r) :
    R.decode options s = R.decode options' r := by
  have hr : R.resolve r = .ok v := resolve_eq_ok_iff.mpr hv
  have hs : R.resolve s = .ok v := (resolve_congr (hget _ List.mem_cons_self)).trans hr
  have hfields : ∀ name ∈ v.fieldNames, s.get? name = r.get? name :=
    fun name hname => hget name (List.mem_cons_of_mem _ hname)
  have hviolations : v.violations R.tagField options s = v.violations R.tagField options' r := by
    rw [v.violations_eq, v.violations_eq, Variant.fieldViolations_congr hfields, hunexpected]
  unfold decode
  rw [hs, hr]
  dsimp only
  rw [hviolations, Variant.select_congr hfields]

end TaggedUnion
