import TaggedUnion.Proofs.Violations

/-!
# Lenient decoding forgets the unexpected fields

The violations that lenient decoding finds are the strict ones without the unexpected fields
(`Variant.violations_permissive`).  A record therefore meets one of three fates
(`Registry.decode_modes`): both ways of decoding accept it, only the lenient way does since nothing
but unexpected fields is wrong with it, or both refuse it for what is wrong with its declared
fields.

Leaving the undeclared fields out of the record comes to the same.  The fields that stay keep their
values (`Record.get?_filter`), so strict decoding finds the same violations but no unexpected field
(`Registry.decode_permissive_eq`).  The fields left out are just those that strict decoding calls
unexpected (`Registry.filter_unexpectedNames`).
-/

namespace TaggedUnion

/-! ### Records with fields left out -/

namespace Record

variable {r : Record} {keep : String → Bool} {name : String}

/-- The fields of a record whose names are to be kept, in order. -/
def filter (r : Record) (keep : String → Bool) : Record where
  entries := r.entries.filter fun entry => keep entry.1
  nodup := (List.filter_sublist.map Prod.fst).nodup r.nodup

theorem keys_filter (r : Record) (keep : String → Bool) :
    (r.filter keep).keys = r.keys.filter keep := by
  unfold keys Entries.keys filter
  rw [List.filter_map]
  rfl

theorem get?_filter (h : keep name = true) : (r.filter keep).get? name = r.get? name := by
  apply Option.ext
  intro value
  rw [get?_eq_some_iff, get?_eq_some_iff, filter, List.mem_filter]
  exact and_iff_left h

theorem filter_congr {keep' : String → Bool} (h : ∀ name ∈ r.keys, keep name = keep' name) :
    r.filter keep = r.filter keep' := by
  apply Record.ext
  apply List.filter_congr
  intro entry hentry
  exact h entry.1 (Entries.mem_keys_of_mem hentry)

theorem filter_eq_self (h : ∀ name ∈ r.keys, keep name = true) : r.filter keep = r := by
  apply Record.ext
  apply List.filter_eq_self.mpr
  intro entry hentry
  exact h entry.1 (Entries.mem_keys_of_mem hentry)

end Record

/-! ### Violations without the unexpected fields -/

/-- The field that a violation calls unexpected. -/
def Violation.unexpectedName? : Violation → Option String
  | .unexpectedField name => some name
  | _ => none

/-- The fields that a report calls unexpected, in order. -/
def Violation.unexpectedNames (es : List Violation) : List String :=
  es.filterMap unexpectedName?

theorem Violation.unexpectedName?_eq_none {e : Violation} (h : e.isUnexpected = false) :
    e.unexpectedName? = none := by
  cases e with
  | unexpectedField name => cases h
  | _ => rfl

namespace Variant

variable (v : Variant) (tagField : String) (r : Record)

theorem violations_permissive :
    v.violations tagField .permissive r =
      (v.violations tagField .strict r).filter fun e => !e.isUnexpected := by
  rw [filter_declared_violations, violations_eq]
  exact List.append_nil _

theorem unexpectedNames_violations :
    Violation.unexpectedNames (v.violations tagField .strict r) = v.undeclared tagField r := by
  have hdeclared : (v.fieldViolations r).filterMap Violation.unexpectedName? = [] := by
    apply List.filterMap_eq_nil_iff.mpr
    intro e he
    exact Violation.unexpectedName?_eq_none (isUnexpected_of_mem_fieldViolations he)
  have hundeclared : ((v.undeclared tagField r).map Violation.unexpectedField).filterMap
      Violation.unexpectedName? = v.undeclared tagField r := by
    rw [List.filterMap_map]
    exact List.filterMap_some
  rw [Violation.unexpectedNames, violations_eq, List.filterMap_append, hdeclared, List.nil_append]
  exact hundeclared

end Variant

/-! ### The two ways of decoding -/

namespace Registry

variable {R : Registry} {r : Record} {v : Variant}

/-- A tag field that names no variant is not an unexpected field. -/
theorem isUnexpected_of_resolve_error {e : Violation} (h : R.resolve r = .error e) :
    e.isUnexpected = false := by
  unfold resolve at h
  split at h
  · rw [← Except.error.inj h]
    rfl
  · rw [← Except.error.inj h]
    rfl
  · split at h
    · cases h
    · rw [← Except.error.inj h]
      rfl
  · rw [← Except.error.inj h]
    rfl

/-- Both ways of decoding accept a record, or only the lenient one does since all violations are
unexpected fields, or both refuse it. -/
theorem decode_modes (R : Registry) (r : Record) :
    (∃ i, R.decode .strict r = .ok i ∧ R.decode .permissive r = .ok i) ∨
    (∃ es i, R.decode .strict r = .error es ∧ (∀ e ∈ es, e.isUnexpected = true) ∧
      R.decode .permissive r = .ok i) ∨
    ∃ es, R.decode .strict r = .error es ∧ (∃ e ∈ es, e.isUnexpected = false) ∧
      R.decode .permissive r = .error (es.filter fun e => !e.isUnexpected) := by
  cases hresolve : R.resolve r with
  | error e =>
    have he := isUnexpected_of_resolve_error hresolve
    refine .inr (.inr ⟨[e], decode_of_resolve_error hresolve, ⟨e, by simp, he⟩, ?_⟩)
    rw [decode_of_resolve_error hresolve, List.filter_cons_of_pos (by simp [he]), List.filter_nil]
  | ok v =>
    have hlenient := v.violations_permissive R.tagField r
    by_cases hstrict : v.violations R.tagField .strict r = []
    · rw [hstrict, List.filter_nil] at hlenient
      exact .inl ⟨_, decode_of_violations_eq_nil hresolve hstrict,
        decode_of_violations_eq_nil hresolve hlenient⟩
    have hrefused := decode_of_violations_ne_nil hresolve hstrict
    by_cases hall : ∀ e ∈ v.violations R.tagField .strict r, e.isUnexpected = true
    · -- Nothing is left of the violations.
      have hnone : v.violations R.tagField .permissive r = [] := by
        rw [hlenient, List.filter_eq_nil_iff]
        intro e he
        simp [hall e he]
      exact .inr (.inl ⟨_, _, hrefused, hall, decode_of_violations_eq_nil hresolve hnone⟩)
    · push Not at hall
      obtain ⟨e, he, hdeclared⟩ := hall
      have hsome : v.violations R.tagField .permissive r ≠ [] := by
        rw [hlenient]
        apply List.ne_nil_of_mem (a := e)
        rw [List.mem_filter]
        exact ⟨he, by simp [hdeclared]⟩
      refine .inr (.inr ⟨_, hrefused, ⟨e, he, by simpa using hdeclared⟩, ?_⟩)
      rw [decode_of_violations_ne_nil hresolve hsome, hlenient]

/-- Lenient decoding is strict decoding of what the variant knows. -/
theorem decode_permissive_eq (hv : R.Resolves r v) :
    R.decode .permissive r =
      R.decode .strict (r.filter fun name => name ∈ R.canonicalNames v) := by
  refine (decode_congr hv (fun name hname => ?_) ?_).symm
  · exact Record.get?_filter (decide_eq_true hname)
  · -- The names that stay are those of the variant.
    apply Variant.unexpected_of_declared
    intro name hname
    rw [Record.keys_filter, List.mem_filter, decide_eq_true_eq] at hname
    exact List.mem_cons.mp hname.2

/-- Without the fields that strict decoding calls unexpected, a record has those that the variant
knows. -/
theorem filter_unexpectedNames (hv : R.Resolves r v) {es : List Violation}
    (h : R.decode .strict r = .error es) :
    (r.filter fun name => name ∉ Violation.unexpectedNames es) =
      r.filter fun name => name ∈ R.canonicalNames v := by
  rw [((decode_eq_error_iff hv).mp h).2, v.unexpectedNames_violations]
  apply Record.filter_congr
  intro name hname
  rw [decide_eq_decide, v.undeclared_eq, List.mem_filter, decide_eq_true_eq, canonicalNames,
    List.mem_cons]
  tauto

/-- Lenient decoding is strict decoding of what is left when the fields called unexpected are gone;
without a variant, none is. -/
theorem decode_permissive_of_strict_error {es : List Violation}
    (h : R.decode .strict r = .error es) :
    R.decode .permissive r =
      R.decode .strict (r.filter fun name => name ∉ Violation.unexpectedNames es) := by
  cases hresolve : R.resolve r with
  | error e =>
    have hes : es = [e] := Except.error.inj (h.symm.trans (decode_of_resolve_error hresolve))
    have hnames : Violation.unexpectedNames es = [] := by
      rw [hes, Violation.unexpectedNames, List.filterMap_cons_none, List.filterMap_nil]
      exact Violation.unexpectedName?_eq_none (isUnexpected_of_resolve_error hresolve)
    rw [hnames, Record.filter_eq_self (by simp), decode_of_resolve_error hresolve,
      decode_of_resolve_error hresolve]
  | ok v =>
    have hv := resolve_eq_ok_iff.mp hresolve
    rw [decode_permissive_eq hv, filter_unexpectedNames hv h]

/-- Lenient decoding only forgets the unexpected fields.  It accepts what strict decoding accepts,
with the same instance, and besides the records with nothing but unexpected fields wrong; it refuses
the others for the other violations, in the same order.  Leaving out of a record what its variant
does not know, or what strict decoding calls unexpected, makes strict decoding do the same. -/
theorem decode_permissive_forgets (R : Registry) (r : Record) :
    (∀ i, R.decode .strict r = .ok i → R.decode .permissive r = .ok i) ∧
    ((∃ i, R.decode .permissive r = .ok i) ↔
      (∃ i, R.decode .strict r = .ok i) ∨
        ∃ es, R.decode .strict r = .error es ∧ ∀ e ∈ es, e.isUnexpected = true) ∧
    (∀ es, R.decode .permissive r = .error es →
      ∃ es', R.decode .strict r = .error es' ∧ es = es'.filter fun e => !e.isUnexpected) ∧
    (∀ v, R.Resolves r v → R.decode .permissive r =
      R.decode .strict (r.filter fun name => name ∈ R.canonicalNames v)) ∧
    ∀ es, R.decode .strict r = .error es → R.decode .permissive r =
      R.decode .strict (r.filter fun name => name ∉ Violation.unexpectedNames es) := by
  have hmodes := R.decode_modes r
  refine ⟨fun i hi => ?_, ⟨?_, ?_⟩, fun es hes => ?_, fun v hv => decode_permissive_eq hv,
    fun es => decode_permissive_of_strict_error⟩
  · rcases hmodes with ⟨j, hstrict, hlenient⟩ | ⟨es, j, hstrict, -⟩ | ⟨es, hstrict, -⟩
    · rwa [← Except.ok.inj (hstrict.symm.trans hi)]
    · cases hstrict.symm.trans hi
    · cases hstrict.symm.trans hi
  · rintro ⟨i, hi⟩
    rcases hmodes with ⟨j, hstrict, -⟩ | ⟨es, j, hstrict, hall, -⟩ | ⟨es, -, -, hlenient⟩
    · exact .inl ⟨j, hstrict⟩
    · exact .inr ⟨es, hstrict, hall⟩
    · cases hlenient.symm.trans hi
  · intro h
    rcases hmodes with ⟨j, -, hlenient⟩ | ⟨es, j, -, -, hlenient⟩ | ⟨es, hstrict, hdeclared, -⟩
    · exact ⟨j, hlenient⟩
    · exact ⟨j, hlenient⟩
    · -- A violation of a declared field rules both alternatives out.
      obtain ⟨e, he, hfalse⟩ := hdeclared
      rcases h with ⟨i, hi⟩ | ⟨es', hes', hall⟩
      · cases hstrict.symm.trans hi
      · rw [← Except.error.inj (hstrict.symm.trans hes')] at hall
        rw [hall e he] at hfalse
        cases hfalse
  · rcases hmodes with ⟨j, -, hlenient⟩ | ⟨es', j, -, -, hlenient⟩ | ⟨es', hstrict, -, hlenient⟩
    · cases hlenient.symm.trans hes
    · cases hlenient.symm.trans hes
    · exact ⟨es', hstrict, Except.error.inj (hes.symm.trans hlenient)⟩

/-- A reading with an undeclared field is refused strictly for that field alone, and one without a
sensor is refused both ways. -/
theorem decode_permissive_noisy :
    (∃ i, Sample.readings.decode .strict Sample.record = .ok i ∧
      Sample.readings.decode .permissive Sample.record = .ok i) ∧
    Sample.readings.Resolves Sample.noisyRecord Sample.reading ∧
    Sample.readings.decode .permissive Sample.noisyRecord =
      Sample.readings.decode .strict (Sample.noisyRecord.filter fun name =>
        name ∈ Sample.readings.canonicalNames Sample.reading) ∧
    Sample.readings.decode .strict Sample.noisyRecord = .error [.unexpectedField "note"] ∧
    (∃ i, Sample.readings.decode .permissive Sample.noisyRecord = .ok i) ∧
    Sample.readings.decode .permissive Sample.noisyRecord =
      Sample.readings.decode .strict Sample.record ∧
    ∃ es, Sample.readings.decode .strict (Sample.noisyRecord.filter (· ≠ "sensor")) = .error es ∧
      [.missingField "sensor"] = es.filter fun e => !e.isUnexpected := by
  have hstrict : Sample.readings.decode .strict Sample.noisyRecord =
      .error [.unexpectedField "note"] := rfl
  have hlenient : Sample.readings.decode .permissive (Sample.noisyRecord.filter (· ≠ "sensor")) =
      .error [.missingField "sensor"] := rfl
  have hresolves : Sample.readings.Resolves Sample.noisyRecord Sample.reading :=
    ⟨List.mem_cons_self, rfl⟩
  have haccepted : Sample.readings.decode .strict Sample.record = .ok _ := rfl
  obtain ⟨hkept, -⟩ := decode_permissive_forgets Sample.readings Sample.record
  obtain ⟨-, haccepts, -, hknown, hleft⟩ :=
    decode_permissive_forgets Sample.readings Sample.noisyRecord
  obtain ⟨-, -, hrefuses, -⟩ :=
    decode_permissive_forgets Sample.readings (Sample.noisyRecord.filter (· ≠ "sensor"))
  refine ⟨⟨_, haccepted, hkept _ haccepted⟩, hresolves, hknown _ hresolves, hstrict,
    haccepts.mpr (.inr ⟨_, hstrict, by simp [Violation.isUnexpected]⟩), ?_, hrefuses _ hlenient⟩
  rw [hleft _ hstrict]
  rfl

end Registry

end TaggedUnion
