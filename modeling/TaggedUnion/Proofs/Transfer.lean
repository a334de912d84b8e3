import TaggedUnion.Proofs.Construction
import TaggedUnion.Proofs.RoundTrip
import TaggedUnion.Proofs.Violations

/-!
# Encoding for another registry

An instance that one registry decoded can be given to any other one to encode.  Encoding fails only
on a tag value that is not registered (`Registry.encode_eq_error_iff`).  Otherwise `R.Writes v i r`
says what is written: the tag field of the encoding registry and what the instance has under the
names of its variant `v`, in its order (`Registry.exists_writes`).  The tag field is none of these
names, whatever it is called in the registry that decoded the instance.

The record has no names but those of the variant (`Registry.Writes.declared`), and without
undeclared names the violations are those of declared fields
(`Variant.violations_of_declared`).  So the options make no difference to decoding the record
(`Registry.Writes.decode_eq`).
-/

namespace TaggedUnion

/-! ### Records without undeclared fields -/

namespace Variant

variable {v : Variant} {r : Record}

/-- What is wrong with declared fields: one is missing or holds a value of a wrong kind. -/
theorem exists_field_of_mem_fieldViolations {e : Violation} (h : e ∈ v.fieldViolations r) :
    ∃ f ∈ v.fields, e = .missingField f.name ∨ ∃ kind, e = .typeMismatch f.name f.type kind := by
  obtain ⟨f, hf, hviolation⟩ := List.mem_filterMap.mp h
  exact ⟨f, hf, Field.violation?_cases hviolation⟩

theorem violations_of_declared {tagField : String} (options : DecodeOptions)
    (h : ∀ name ∈ r.keys, name = tagField ∨ name ∈ v.fieldNames) :
    v.violations tagField options r = v.fieldViolations r := by
  rw [violations_eq, unexpected_of_declared options h, List.map_nil, List.append_nil]

end Variant

namespace Registry

variable {R S : Registry} {options : DecodeOptions} {v : Variant} {i j : Instance} {r s : Record}

/-! ### What is written -/

theorem encode_eq_error_iff {e : UnregisteredTag} :
    S.encode i = .error e ↔ i.tag ∉ S.tags ∧ e = ⟨i.tag⟩ := by
  unfold encode
  cases hget : S.get? i.tag with
  | none => simp [get?_eq_none_iff.mp hget, eq_comm]
  | some v =>
    have hmem : i.tag ∈ S.tags := by
      rw [← contains_iff, contains, hget]
      rfl
    simp [hmem]

/-- The record holds the tag value of the instance under the tag field of the registry, and then
what the instance has under the names of the variant. -/
structure Writes (S : Registry) (v : Variant) (i : Instance) (r : Record)
    (rest : List (String × Scalar)) : Prop where
  registered : v ∈ S.variants
  tag : v.tag = i.tag
  entries : r.entries = (S.tagField, .string i.tag) :: rest
  picks : i.fields.Picks v.fieldNames rest

theorem exists_writes (h : S.encode i = .ok r) : ∃ v rest, S.Writes v i r rest := by
  cases hget : S.get? i.tag with
  | none =>
    rw [encode, hget] at h
    cases h
  | some v =>
    obtain ⟨hv, htag⟩ := get?_eq_some_iff.mp hget
    have hpicks := v.picks_select i.fields
    obtain ⟨r', hencode, hentries⟩ := exists_encode hv htag.symm hpicks
    obtain rfl : r = r' := Except.ok.inj (h.symm.trans hencode)
    rw [htag] at hentries
    exact ⟨v, v.select i.fields, hv, htag, hentries, hpicks⟩

namespace Writes

variable {rest : List (String × Scalar)}

theorem keys_eq (h : S.Writes v i r rest) : r.keys = S.tagField :: Entries.keys rest := by
  rw [Record.keys, h.entries, Entries.keys_cons]

theorem declared (h : S.Writes v i r rest) :
    ∀ name ∈ r.keys, name = S.tagField ∨ name ∈ v.fieldNames := by
  intro name hname
  rw [h.keys_eq, List.mem_cons] at hname
  exact hname.imp_right fun hrest => (h.picks.mem_keys_iff.mp hrest).1

theorem resolves (h : S.Writes v i r rest) : S.Resolves r v := by
  refine ⟨h.registered, Record.get?_eq_some_iff.mpr ?_⟩
  rw [h.entries, h.tag]
  exact List.mem_cons_self

/-- The record gives the values of the instance under the names of the variant. -/
theorem get?_eq (h : S.Writes v i r rest) {name : String} (hname : name ∈ v.fieldNames) :
    r.get? name = i.fields.get? name := by
  -- The tag field comes first in the record, but it is not the name that is looked up.
  have hne : name ≠ S.tagField := by
    rintro rfl
    exact (S.wellFormed.fields v h.registered).unreserved hname
  apply Option.ext
  intro value
  rw [Record.get?_eq_some_iff, h.entries, List.mem_cons, h.picks.mem_iff]
  constructor
  · rintro (heq | hpicked)
    · exact absurd (Prod.mk.inj heq).1 hne
    · exact hpicked.2
  · intro hvalue
    exact .inr ⟨hname, hvalue⟩

theorem picks_self (h : S.Writes v i r rest) : r.Picks v.fieldNames rest :=
  h.picks.congr fun _ hname => h.get?_eq hname

/-! ### Decoding what is written -/

/-- The options make no difference to what is written. -/
theorem decode_eq (h : S.Writes v i r rest) (options options' : DecodeOptions) :
    S.decode options r = S.decode options' r := by
  apply decode_congr h.resolves fun _ _ => rfl
  rw [Variant.unexpected_of_declared options h.declared,
    Variant.unexpected_of_declared options' h.declared]

theorem of_decode_ok (h : S.Writes v i r rest) (hdecode : S.decode options r = .ok j) :
    j.tag = i.tag ∧ j.fields.entries = rest := by
  obtain ⟨w, hw, -, htag, hpicks⟩ := decode_eq_ok_iff.mp hdecode
  obtain rfl := hw.unique h.resolves
  exact ⟨htag.trans h.tag, hpicks.unique h.picks_self⟩

theorem of_decode_error (h : S.Writes v i r rest) {errors : List Violation}
    (hdecode : S.decode options r = .error errors) : errors = v.fieldViolations r := by
  rw [((decode_eq_error_iff h.resolves).mp hdecode).2,
    Variant.violations_of_declared options h.declared]

end Writes

/-- What one registry decoded, another one encodes exactly if the tag value is registered there.
The record then starts with the tag field of that registry and goes on with what the instance has
under the names that its variant declares, in declaration order; all values come from the record
that was decoded.  Decoding it there does not depend on the options: it gives an instance with the
same tag value and just these fields, or finds declared fields that are missing or mismatched. -/
theorem encode_elsewhere (h : R.decode options s = .ok i) :
    ((∃ e, S.encode i = .error e) ↔ i.tag ∉ S.tags) ∧
    (∀ e, S.encode i = .error e → e = ⟨i.tag⟩) ∧
    ∀ r, S.encode i = .ok r → ∃ v rest, v ∈ S.variants ∧ v.tag = i.tag ∧
      r.entries = (S.tagField, .string i.tag) :: rest ∧ i.fields.Picks v.fieldNames rest ∧
      (∀ entry ∈ rest, entry ∈ s.entries) ∧
      S.decode .strict r = S.decode .permissive r ∧
      ((∃ j, S.decode .strict r = .ok j ∧ j.tag = i.tag ∧ j.fields.entries = rest) ∨
        ∃ errors, S.decode .strict r = .error errors ∧ ∀ e ∈ errors, ∃ f ∈ v.fields,
          e = .missingField f.name ∨ ∃ kind, e = .typeMismatch f.name f.type kind) := by
  refine ⟨?_, fun e he => (encode_eq_error_iff.mp he).2, fun r hr => ?_⟩
  · constructor
    · rintro ⟨e, he⟩
      exact (encode_eq_error_iff.mp he).1
    · intro htag
      exact ⟨_, encode_eq_error_iff.mpr ⟨htag, rfl⟩⟩
  obtain ⟨v, rest, hwrites⟩ := exists_writes hr
  obtain ⟨w, -, -, -, hdecoded⟩ := decode_eq_ok_iff.mp h
  refine ⟨v, rest, hwrites.registered, hwrites.tag, hwrites.entries, hwrites.picks, ?_,
    hwrites.decode_eq .strict .permissive, ?_⟩
  · rintro ⟨name, value⟩ hentry
    have hvalue := hwrites.picks.get?_eq name value hentry
    exact Record.get?_eq_some_iff.mp (hdecoded.get?_eq name value (Record.get?_eq_some_iff.mp hvalue))
  · cases hdecode : S.decode .strict r with
    | ok j => exact .inl ⟨j, rfl, hwrites.of_decode_ok hdecode⟩
    | error errors =>
      refine .inr ⟨errors, rfl, fun e he => ?_⟩
      rw [hwrites.of_decode_error hdecode] at he
      exact Variant.exists_field_of_mem_fieldViolations he

end Registry

/-! ### Another registry to try the laws on -/

/-- A registry whose tag field is an ordinary field of the readings, and in which a field of theirs
is required, one is of another type and one is gone. -/
def Sample.archive : Registry where
  tagField := "sensor"
  variants := [{ tag := "reading", fields := [{ name := "calibrated", type := .bool },
    { name := "site", type := .string, required := false }, { name := "value", type := .string }] }]
  sound := by decide

theorem Registry.encode_reading_elsewhere :
    Sample.readings.decode .strict Sample.record = .ok Sample.decoded ∧
    ∃ r rest, Sample.archive.encode Sample.decoded = .ok r ∧
      r.entries = ("sensor", .string "reading") :: rest ∧
      (∀ entry ∈ rest, entry ∈ Sample.record.entries) ∧
      Sample.archive.decode .strict r = Sample.archive.decode .permissive r ∧
      Sample.archive.decode .strict r =
        .error [.missingField "calibrated", .typeMismatch "value" .string .int] := by
  have hdecode : Sample.readings.decode .strict Sample.record = .ok Sample.decoded := rfl
  obtain ⟨-, -, hencode⟩ := encode_elsewhere (S := Sample.archive) hdecode
  obtain ⟨r, hr⟩ : ∃ r, Sample.archive.encode Sample.decoded = .ok r := ⟨_, rfl⟩
  obtain ⟨v, rest, -, -, hentries, -, hvalues, hsame, -⟩ := hencode r hr
  refine ⟨hdecode, r, rest, hr, hentries, hvalues, hsame, ?_⟩
  obtain rfl := Except.ok.inj hr
  rfl

end TaggedUnion
