import TaggedUnion.Proofs.Conformance
import TaggedUnion.Proofs.Widening

/-!
# Typed access to decoded fields

An instance has an accessor for each type of fields (`Instance.read?`), and `t.Reads value a` says
what the accessor of the type `t` makes of a value; an integer read as a floating-point number is
the nearest one (`Binary64.IsNearest`).  Accessors and types differ in what they are asked: a type
takes values that are there, an accessor gives something or nothing for any field of any instance.
They agree on the values (`FieldType.exists_reads_iff`), so for a field that its declaration admits
the accessor of its own type gives something exactly if the field holds a value other than null
(`Field.Admits.exists_reads_iff`), and the accessors of other types help only with integers
(`Field.Admits.exists_reads_other_iff`).

An instance that decoding gave has the values of the record under the declared names and nothing
else (`Registry.get?_of_decode`), which makes these laws ones about its accessors
(`Registry.accessors_of_decode`).
-/

namespace TaggedUnion

/-! ### Accessors by type -/

namespace FieldType

/-- What the accessor of a type gives. -/
def Carrier : FieldType → Type
  | .int => Int64
  | .bool => Bool
  | .string => String
  | .float => Binary64

/-- A value as the accessor of a type gives it: as it is, or the nearest floating-point number if an
integer is read as one. -/
inductive Reads : (t : FieldType) → Scalar → t.Carrier → Prop where
  | int (n : Int64) : Reads .int (.int n) n
  | bool (b : Bool) : Reads .bool (.bool b) b
  | string (s : String) : Reads .string (.string s) s
  | float (x : Binary64) : Reads .float (.float x) x
  | widened (n : Int64) {x : Binary64} (h : x.IsNearest n.toInt) : Reads .float (.int n) x

theorem Reads.ne_null {t : FieldType} {value : Scalar} {a : t.Carrier} (h : t.Reads value a) :
    value ≠ .null := by
  rintro rfl
  cases h

/-- The accessor of a type gives something for the values that the type takes. -/
theorem exists_reads_iff {t : FieldType} {value : Scalar} :
    (∃ a, t.Reads value a) ↔ t.Takes value.kind := by
  constructor
  · rintro ⟨a, h⟩
    cases h with
    | widened n hx => exact .inr ⟨rfl, rfl⟩
    | _ => exact .inl rfl
  · rintro (h | ⟨rfl, h⟩)
    · cases t <;> cases value <;> cases h
      · exact ⟨_, .int _⟩
      · exact ⟨_, .bool _⟩
      · exact ⟨_, .string _⟩
      · exact ⟨_, .float _⟩
    · cases value <;> cases h
      exact ⟨_, .widened _ (Binary64.isNearest_ofInt64 _)⟩

theorem eq_of_kind_eq {t u : FieldType} (h : t.kind = u.kind) : t = u := by
  cases t <;> cases u <;> first | rfl | cases h

end FieldType

/-- The accessor of a type, for a value. -/
def Scalar.read? : (t : FieldType) → Scalar → Option t.Carrier
  | .int => Scalar.int?
  | .bool => Scalar.bool?
  | .string => Scalar.string?
  | .float => Scalar.float?

theorem Scalar.read?_eq_some_iff {t : FieldType} {value : Scalar} {a : t.Carrier} :
    value.read? t = some a ↔ t.Reads value a := by
  constructor
  · intro h
    cases t <;> cases value <;> cases h
    · exact .int _
    · exact .bool _
    · exact .string _
    · exact .widened _ (Binary64.isNearest_ofInt64 _)
    · exact .float _
  · intro h
    cases h with
    | widened n hx => exact congrArg some ((Binary64.isNearest_ofInt64 n).unique hx)
    | _ => rfl

/-- The accessor of a type, for a field of an instance. -/
def Instance.read? (i : Instance) : (t : FieldType) → String → Option t.Carrier
  | .int => i.int?
  | .bool => i.bool?
  | .string => i.string?
  | .float => i.float?

namespace Instance

variable {i : Instance} {t : FieldType} {name : String}

theorem read?_eq (i : Instance) (t : FieldType) (name : String) :
    i.read? t name = (i.get? name).bind (Scalar.read? t) := by
  cases t <;> rfl

theorem read?_eq_some_iff {a : t.Carrier} :
    i.read? t name = some a ↔ ∃ value, i.get? name = some value ∧ t.Reads value a := by
  simp only [read?_eq, Option.bind_eq_some_iff, Scalar.read?_eq_some_iff]

end Instance

/-! ### Fields that their declarations admit -/

namespace Field

variable {f : Field} {value? : Option Scalar} {t : FieldType}

/-- A field that its declaration admits holds no value but null and those that its type takes. -/
theorem Admits.takes (h : f.Admits value?) {value : Scalar} (hvalue : value? = some value)
    (hnull : value ≠ .null) : f.type.Takes value.kind := by
  subst hvalue
  exact (admits_some_iff hnull).mp h

theorem Admits.exists_reads_iff (h : f.Admits value?) :
    (∃ value, value? = some value ∧ ∃ a, f.type.Reads value a) ↔
      ∃ value, value? = some value ∧ value ≠ .null := by
  constructor
  · rintro ⟨value, hvalue, a, ha⟩
    exact ⟨value, hvalue, ha.ne_null⟩
  · rintro ⟨value, hvalue, hnull⟩
    exact ⟨value, hvalue, FieldType.exists_reads_iff.mpr (h.takes hvalue hnull)⟩

/-- The accessor of another type gives something only for integers, which are read as they are from
a field of floating-point numbers, and widened from a field of integers. -/
theorem Admits.exists_reads_other_iff (h : f.Admits value?) (ht : t ≠ f.type) :
    (∃ value, value? = some value ∧ ∃ a, t.Reads value a) ↔
      (f.type = .int ∧ t = .float ∧ ∃ value, value? = some value ∧ value ≠ .null) ∨
      (f.type = .float ∧ t = .int ∧ ∃ n, value? = some (.int n)) := by
  constructor
  · rintro ⟨value, hvalue, a, ha⟩
    have hnull := ha.ne_null
    -- The value is of a kind that both types take, which only integers are.
    rcases FieldType.exists_reads_iff.mp ⟨a, ha⟩, h.takes hvalue hnull with
      ⟨hkind | ⟨rfl, hkind⟩, hkind' | ⟨hfloat, hkind'⟩⟩
    · exact absurd (FieldType.eq_of_kind_eq (hkind.symm.trans hkind')) ht
    · have hint : t = .int := FieldType.eq_of_kind_eq (hkind.symm.trans hkind')
      cases value <;> cases hkind'
      exact .inr ⟨hfloat, hint, _, hvalue⟩
    · have hint : f.type = .int := FieldType.eq_of_kind_eq (hkind'.symm.trans hkind)
      exact .inl ⟨hint, rfl, value, hvalue, hnull⟩
    · exact absurd hfloat.symm ht
  · rintro (⟨hint, rfl, value, hvalue, hnull⟩ | ⟨-, rfl, n, hvalue⟩)
    · -- A field of integers holds one, which can be widened.
      rcases h.takes hvalue hnull with hkind | ⟨hfloat, -⟩
      · rw [hint] at hkind
        exact ⟨value, hvalue, FieldType.exists_reads_iff.mpr (.inr ⟨rfl, hkind⟩)⟩
      · rw [hint] at hfloat
        cases hfloat
    · exact ⟨_, hvalue, n, .int n⟩

end Field

/-! ### Decoded instances -/

namespace Registry

variable {R : Registry} {options : DecodeOptions} {r : Record} {i : Instance}

/-- A decoded instance has the values of the record under the declared names, and no others. -/
theorem get?_of_decode (h : R.decode options r = .ok i) :
    ∃ v, R.Resolves r v ∧ (∀ f ∈ v.fields, f.Admits (r.get? f.name)) ∧
      (∀ name ∈ v.fieldNames, i.get? name = r.get? name) ∧
      ∀ name ∉ v.fieldNames, i.get? name = none := by
  obtain ⟨v, hv, hconforms, -, hpicks⟩ := decode_eq_ok_iff.mp h
  refine ⟨v, hv, hconforms.fields, fun name hname => hpicks.get?_of_entries hname, ?_⟩
  intro name hname
  rw [Instance.get?, Record.get?_eq_none_iff]
  exact fun hmem => hname (hpicks.mem_keys_iff.mp hmem).1

/-- The accessors of a decoded instance, by what its variant declares.  For a declared field the
accessor of its type gives the value of the record, and does so whenever there is one other than
null, hence always if the field is required; any other accessor gives nothing, apart from integers
read as floating-point numbers and integers in a field of floating-point numbers.  Under all other
names, the tag field among them, there is nothing. -/
theorem accessors_of_decode (h : R.decode options r = .ok i) :
    ∃ v, R.Resolves r v ∧
      (∀ f ∈ v.fields,
        (f.required = true → ∃ a, i.read? f.type f.name = some a) ∧
        ((∃ a, i.read? f.type f.name = some a) ↔
          ∃ value, r.get? f.name = some value ∧ value ≠ .null) ∧
        (∀ t a, i.read? t f.name = some a →
          ∃ value, r.get? f.name = some value ∧ t.Reads value a) ∧
        (∀ t ≠ f.type, (∃ a, i.read? t f.name = some a) ↔
          (f.type = .int ∧ t = .float ∧ ∃ value, r.get? f.name = some value ∧ value ≠ .null) ∨
          (f.type = .float ∧ t = .int ∧ ∃ n, r.get? f.name = some (.int n))) ∧
        (i.contains f.name = true ↔ f.name ∈ r.keys)) ∧
      R.tagField ∉ v.fieldNames ∧
      ∀ name ∉ v.fieldNames, i.contains name = false ∧ ∀ t, i.read? t name = none := by
  obtain ⟨v, hv, hadmits, hdeclared, hundeclared⟩ := get?_of_decode h
  refine ⟨v, hv, fun f hf => ?_, (R.wellFormed.fields v hv.registered).unreserved,
    fun name hname => ?_⟩
  · have hget : i.get? f.name = r.get? f.name := hdeclared _ (List.mem_map_of_mem hf)
    have hadmits := hadmits f hf
    have hread : ∀ t, (∃ a, i.read? t f.name = some a) ↔
        ∃ value, r.get? f.name = some value ∧ ∃ a, t.Reads value a := by
      intro t
      simp only [Instance.read?_eq_some_iff, hget]
      exact ⟨fun ⟨a, value, hvalue, ha⟩ => ⟨value, hvalue, a, ha⟩,
        fun ⟨value, hvalue, a, ha⟩ => ⟨a, value, hvalue, ha⟩⟩
    refine ⟨fun hrequired => ?_, ?_, fun t a ha => ?_, fun t ht => ?_, ?_⟩
    · obtain ⟨value, hvalue, -, htakes⟩ := hadmits.required hrequired
      exact (hread f.type).mpr ⟨value, hvalue, FieldType.exists_reads_iff.mpr htakes⟩
    · rw [hread, hadmits.exists_reads_iff]
    · rwa [Instance.read?_eq_some_iff, hget] at ha
    · rw [hread, hadmits.exists_reads_other_iff ht]
    · rw [Instance.contains, Record.contains, ← Instance.get?, hget, Option.isSome_iff_exists,
        Record.mem_keys_iff]
  · have hget := hundeclared name hname
    refine ⟨?_, fun t => ?_⟩
    · rw [Instance.contains, Record.contains, ← Instance.get?, hget]
      rfl
    · rw [Instance.read?_eq, hget]
      rfl

/-- From a reading that has the integer 20 for its floating-point value, which is 20.0, and null for
one of its optional fields. -/
theorem accessors_of_decoded_reading :
    Sample.readings.decode .strict Sample.record = .ok Sample.decoded ∧
    Sample.decoded.float? "value" = some ⟨0x4034000000000000⟩ ∧
    Sample.decoded.int? "value" = some 20 ∧
    ¬ (∃ b, Sample.decoded.bool? "calibrated" = some b) ∧
    Sample.decoded.contains "calibrated" = true ∧ Sample.decoded.string? "type" = none := by
  have hdecode : Sample.readings.decode .strict Sample.record = .ok Sample.decoded := rfl
  obtain ⟨v, hv, hfields, htagField, hothers⟩ := accessors_of_decode hdecode
  obtain rfl := hv.unique (w := Sample.reading) ⟨List.mem_cons_self, rfl⟩
  obtain ⟨hrequired, -, hread, hother, -⟩ :=
    hfields { name := "value", type := .float } (by decide)
  obtain ⟨-, hoptional, -, -, hcontains⟩ :=
    hfields { name := "calibrated", type := .bool, required := false } (by decide)
  refine ⟨hdecode, ?_, ?_, ?_, hcontains.mpr (by decide), (hothers _ htagField).2 .string⟩
  · obtain ⟨x, hx⟩ := hrequired rfl
    obtain ⟨value, hvalue, hreads⟩ := hread .float x hx
    obtain rfl : Scalar.int 20 = value := Option.some.inj hvalue
    cases hreads with
    | widened n hnearest =>
      have htwenty : ⟨0x4034000000000000⟩ = Binary64.ofInt (Int64.toInt 20) := by decide +kernel
      rw [htwenty, (Binary64.isNearest_ofInt64 20).unique hnearest]
      exact hx
  · obtain ⟨n, hn⟩ := (hother .int (by decide)).mpr (.inr ⟨rfl, rfl, 20, rfl⟩)
    obtain ⟨value, hvalue, hreads⟩ := hread .int n hn
    obtain rfl : Scalar.int 20 = value := Option.some.inj hvalue
    cases hreads
    exact hn
  · intro hsome
    obtain ⟨value, hvalue, hnull⟩ := hoptional.mp hsome
    exact hnull (Option.some.inj hvalue).symm

end Registry

end TaggedUnion
