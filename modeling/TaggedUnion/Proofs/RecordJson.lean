import TaggedUnion.Record.Json
import TaggedUnion.Proofs.Except
import TaggedUnion.Proofs.Json.Reading

/-!
# Records as JSON objects and back

Integers and floating-point numbers keep apart on the way through JSON, although JSON has three
kinds of numbers and records have two:

* whatever a scalar is read from, it is written as again (`Scalar.toJson_of_ofMember`);
* a scalar that is written is read back, except that NaN and the infinities turn into null
  (`Scalar.ofMember_toJson`, `Scalar.storable`);
* reading fails on arrays, objects and the natural numbers beyond the integers, and on nothing else
  (`Scalar.ofMember_eq_error_iff`, `Json.Unfit`).

For a record the same holds of all fields at once, in order, and of the failures the first one is
reported (`Record.ofJson_object_eq_error_iff`).
-/

namespace TaggedUnion

open Json

/-! ### Integers -/

namespace Json

variable {i : Int64} {n : UInt64}

/-- As a natural number, an integer that is not negative keeps its value. -/
theorem toNat_toUInt64 (h : ¬ i < 0) : (i.toUInt64.toNat : Int) = i.toInt := by
  rw [Int64.lt_iff_toInt_lt, Int64.toInt_zero] at h
  have hcond := BitVec.toInt_eq_toNat_cond i.toBitVec
  rw [Int64.toInt_toBitVec] at hcond
  show (i.toBitVec.toNat : Int) = i.toInt
  split at hcond <;> omega

theorem natInt64?_toUInt64 (h : ¬ i < 0) : natInt64? i.toUInt64 = some i := by
  have hlt : i.toUInt64.toNat < Nat.pow 2 63 := by
    have := i.toInt_lt
    rw [← toNat_toUInt64 h] at this
    show i.toUInt64.toNat < 2 ^ 63
    omega
  rw [natInt64?, if_pos hlt, Int64.toInt64_toUInt64]

/-- The natural numbers that are no integers of 64 bits are those beyond the greatest one. -/
theorem natInt64?_eq_none_iff : natInt64? n = none ↔ Int64.maxValue.toInt < n.toNat := by
  have hmax : Int64.maxValue.toInt = 2 ^ 63 - 1 := by decide
  rw [natInt64?, hmax, ite_eq_right_iff]
  show (n.toNat < 2 ^ 63 → _) ↔ _
  constructor
  · intro h
    by_contra hle
    cases h (by omega)
  · intro h hlt
    omega

theorem ofInt64_of_neg (h : i < 0) : Number.ofInt64 i = .negative i h :=
  dif_pos h

theorem ofInt64_of_nonneg (h : ¬ i < 0) : Number.ofInt64 i = .natural i.toUInt64 :=
  dif_neg h

/-- A natural number taken for an integer is written as the same natural number. -/
theorem ofInt64_of_natInt64? (h : natInt64? n = some i) : Number.ofInt64 i = .natural n := by
  obtain ⟨hlt, hi⟩ := Option.ite_none_right_eq_some.mp h
  obtain rfl := Option.some.inj hi
  -- With the sign bit clear, the signed and the unsigned value of a word agree.
  have hnonneg : ¬ n.toInt64 < 0 := by
    have htwice : 2 * n.toBitVec.toNat < 2 ^ 64 := by
      have : n.toBitVec.toNat < 2 ^ 63 := hlt
      omega
    rw [Int64.lt_iff_toInt_lt, Int64.toInt_zero]
    show ¬ n.toBitVec.toInt < 0
    rw [BitVec.toInt_eq_toNat_of_lt htwice]
    omega
  rw [ofInt64_of_nonneg hnonneg, UInt64.toUInt64_toInt64]

/-! ### Values that no field holds -/

/-- A value that no field can hold, with the complaint about the field that has it. -/
inductive Unfit : Json → (String → RecordError) → Prop
  | array (items : List Json) : Unfit (.array items) .nonScalar
  | object (members : List (String × Json)) : Unfit (.object members) .nonScalar
  | beyond {n : UInt64} (h : Int64.maxValue.toInt < n.toNat) :
    Unfit (.number (.natural n)) .integerOutOfRange

/-- In an object that was read, no name stands twice. -/
theorem Outline.nodup_keys_of_json {o : Outline} {room : Nat} {members : List (String × Json)}
    (h : o.json room = .ok (.object members)) : (Entries.keys members).Nodup := by
  cases gives_of_json h
  exact Entries.nodup_keys_insertAll _ List.nodup_nil

end Json

/-! ### Scalars -/

namespace Scalar

/-- The scalar as JSON keeps it: NaN and the infinities are lost. -/
def storable : Scalar → Scalar
  | .float x => if x.isNaN ∨ x.isInfinite then .null else .float x
  | s => s

variable {s : Scalar} {field : String} {value : Json} {e : RecordError}

theorem storable_float_of_isFinite {x : Binary64} (h : x.isFinite) :
    storable (.float x) = .float x := by
  obtain ⟨hnan, hinfinite⟩ := Binary64.isFinite_iff.mp h
  exact if_neg (not_or.mpr ⟨hnan, hinfinite⟩)

theorem storable_float_of_not_isFinite {x : Binary64} (h : ¬ x.isFinite) :
    storable (.float x) = .null := by
  rw [Binary64.isFinite_iff, ← not_or, not_not] at h
  exact if_pos h

/-- Only floating-point numbers are lost. -/
theorem storable_eq_self_iff : s.storable = s ↔ ∀ x, s = .float x → x.isFinite := by
  cases s with
  | float x =>
    by_cases h : x.isFinite
    · refine iff_of_true (storable_float_of_isFinite h) ?_
      rintro _ ⟨⟩
      exact h
    · rw [storable_float_of_not_isFinite h]
      exact iff_of_false (fun heq => by cases heq) fun hall => h (hall x rfl)
  | _ => exact iff_of_true rfl (fun _ heq => by cases heq)

theorem ofMember_toJson (s : Scalar) (field : String) :
    ofMember field s.toJson = .ok s.storable := by
  cases s with
  | int i =>
    rw [toJson]
    by_cases hneg : i < 0
    · rw [ofInt64_of_neg hneg]
      rfl
    · rw [ofInt64_of_nonneg hneg, ofMember, natInt64?_toUInt64 hneg]
      rfl
  | float x =>
    rw [toJson, Number.ofFloat?]
    by_cases h : x.isFinite
    · rw [dif_pos h, storable_float_of_isFinite h]
      rfl
    · rw [dif_neg h, storable_float_of_not_isFinite h]
      rfl
  | _ => rfl

theorem ofMember_natural_of_some {n : UInt64} {i : Int64} (h : natInt64? n = some i) :
    ofMember field (.number (.natural n)) = .ok (.int i) := by
  rw [ofMember, h]

theorem ofMember_natural_of_none {n : UInt64} (h : natInt64? n = none) :
    ofMember field (.number (.natural n)) = .error (.integerOutOfRange field) := by
  rw [ofMember, h]

/-- What a scalar was read from is what it is written as. -/
theorem toJson_of_ofMember (h : ofMember field value = .ok s) : s.toJson = value := by
  cases value with
  | number number =>
    cases number with
    | natural n =>
      cases hn : natInt64? n with
      | none => rw [ofMember_natural_of_none hn] at h; cases h
      | some i =>
        rw [ofMember_natural_of_some hn] at h
        cases h
        rw [toJson, ofInt64_of_natInt64? hn]
    | negative i hneg =>
      cases h
      rw [toJson, ofInt64_of_neg hneg]
    | float x hfinite =>
      cases h
      rw [toJson, Number.ofFloat?, dif_pos hfinite]
  | _ => cases h <;> rfl

/-- Reading a scalar fails on the values that no field can hold. -/
theorem ofMember_eq_error_iff :
    ofMember field value = .error e ↔ ∃ complaint, value.Unfit complaint ∧ e = complaint field := by
  constructor
  · intro h
    cases value with
    | number number =>
      cases number with
      | natural n =>
        cases hn : natInt64? n with
        | none =>
          rw [ofMember_natural_of_none hn] at h
          cases h
          exact ⟨_, .beyond (natInt64?_eq_none_iff.mp hn), rfl⟩
        | some i => rw [ofMember_natural_of_some hn] at h; cases h
      | negative i hneg => cases h
      | float x hfinite => cases h
    | array items => cases h; exact ⟨_, .array items, rfl⟩
    | object members => cases h; exact ⟨_, .object members, rfl⟩
    | _ => cases h
  · rintro ⟨complaint, hunfit, rfl⟩
    cases hunfit with
    | array items => rfl
    | object members => rfl
    | beyond h => exact ofMember_natural_of_none (natInt64?_eq_none_iff.mpr h)

theorem exists_ofMember_iff :
    (∃ s, ofMember field value = .ok s) ↔ ∀ complaint, ¬ value.Unfit complaint := by
  cases h : ofMember field value with
  | ok s =>
    refine iff_of_true ⟨s, rfl⟩ fun complaint hunfit => ?_
    have herror : ofMember field value = .error (complaint field) :=
      ofMember_eq_error_iff.mpr ⟨complaint, hunfit, rfl⟩
    rw [h] at herror
    cases herror
  | error e =>
    obtain ⟨complaint, hunfit, -⟩ := ofMember_eq_error_iff.mp h
    exact iff_of_false (fun ⟨s, hs⟩ => by cases hs) fun hall => hall complaint hunfit

end Scalar

/-! ### Records -/

namespace Record

/-- The record as JSON keeps it: the same fields in the same order, NaN and the infinities lost. -/
def storable (r : Record) : Record :=
  ⟨r.entries.map fun e => (e.1, e.2.storable), by
    rw [Entries.keys_map]
    exact r.nodup⟩

variable {r : Record} {members : List (String × Json)} {e : RecordError}

/-- A member of an object becomes an entry of the record under the same name. -/
theorem member_eq_ok_iff {name : String} {value : Json} {entry : String × Scalar} :
    (do return (name, ← Scalar.ofMember name value) : Except RecordError (String × Scalar)) =
      .ok entry ↔ name = entry.1 ∧ Scalar.ofMember name value = .ok entry.2 := by
  rw [bind_eq_ok_iff]
  constructor
  · rintro ⟨s, hs, h⟩
    obtain rfl := Except.ok.inj h
    exact ⟨rfl, hs⟩
  · rintro ⟨rfl, hs⟩
    exact ⟨entry.2, hs, rfl⟩

theorem member_eq_error_iff {name : String} {value : Json} :
    (do return (name, ← Scalar.ofMember name value) : Except RecordError (String × Scalar)) =
      .error e ↔ Scalar.ofMember name value = .error e := by
  rw [bind_eq_error_iff, or_iff_left]
  rintro ⟨s, -, h⟩
  cases h

theorem ofJson_object_eq_ok_iff :
    Record.ofJson (.object members) = .ok r ↔ ∃ entries,
      List.Forall₂ (fun m entry => m.1 = entry.1 ∧ Scalar.ofMember m.1 m.2 = .ok entry.2)
        members entries ∧ .ofEntries entries = r := by
  rw [ofJson, bind_eq_ok_iff]
  refine exists_congr fun entries => and_congr ?_ ⟨Except.ok.inj, congrArg Except.ok⟩
  rw [mapM_eq_ok_iff]
  constructor
  · exact fun h => h.imp fun _ _ => member_eq_ok_iff.mp
  · exact fun h => h.imp fun _ _ => member_eq_ok_iff.mpr

/-- The first member that no field can hold is reported. -/
theorem ofJson_object_eq_error_iff :
    Record.ofJson (.object members) = .error e ↔ ∃ before name value after complaint,
      members = before ++ (name, value) :: after ∧
      (∀ m ∈ before, ∀ other, ¬ m.2.Unfit other) ∧
      value.Unfit complaint ∧ e = complaint name := by
  rw [ofJson, bind_eq_error_iff, or_iff_left (by rintro ⟨_, -, h⟩; cases h), mapM_eq_error_iff]
  constructor
  · rintro ⟨before, ⟨name, value⟩, after, hmembers, hbefore, herror⟩
    obtain ⟨complaint, hunfit, he⟩ :=
      Scalar.ofMember_eq_error_iff.mp (member_eq_error_iff.mp herror)
    refine ⟨before, name, value, after, complaint, hmembers, fun m hm => ?_, hunfit, he⟩
    obtain ⟨entry, hentry⟩ := hbefore m hm
    exact Scalar.exists_ofMember_iff.mp ⟨_, (member_eq_ok_iff.mp hentry).2⟩
  · rintro ⟨before, name, value, after, complaint, hmembers, hbefore, hunfit, he⟩
    refine ⟨before, (name, value), after, hmembers, fun m hm => ?_, ?_⟩
    · obtain ⟨s, hs⟩ := Scalar.exists_ofMember_iff.mpr (hbefore m hm)
      exact ⟨(m.1, s), member_eq_ok_iff.mpr ⟨rfl, hs⟩⟩
    · exact member_eq_error_iff.mpr (Scalar.ofMember_eq_error_iff.mpr ⟨complaint, hunfit, he⟩)

/-- A record is written as the object that it was read from. -/
theorem toJson_of_ofJson (hnodup : (Entries.keys members).Nodup)
    (h : Record.ofJson (.object members) = .ok r) :
    r.keys = Entries.keys members ∧ r.toJson = .object members := by
  obtain ⟨entries, hentries, rfl⟩ := ofJson_object_eq_ok_iff.mp h
  -- Names are distinct, so no entry takes the place of another when the record is made.
  have hmembers : members = entries.map fun entry => (entry.1, entry.2.toJson) := by
    rw [← List.forall₂_eq_eq_eq, List.forall₂_map_right_iff]
    refine hentries.imp fun m entry hentry => Prod.ext hentry.1 ?_
    exact (Scalar.toJson_of_ofMember hentry.2).symm
  have hkeys : Entries.keys entries = Entries.keys members := by
    rw [hmembers, Entries.keys_map, Entries.keys]
  have hofEntries : (ofEntries entries).entries = entries := entries_ofEntries (hkeys ▸ hnodup)
  rw [keys, toJson, hofEntries, hmembers]
  exact ⟨hmembers ▸ hkeys, rfl⟩

/-- A record that is written is read back as JSON keeps it. -/
theorem ofJson_toJson (r : Record) : Record.ofJson r.toJson = .ok r.storable := by
  rw [toJson, ofJson_object_eq_ok_iff]
  refine ⟨r.storable.entries, ?_, Record.ext (entries_ofEntries r.storable.nodup)⟩
  rw [storable, List.forall₂_map_left_iff, List.forall₂_map_right_iff, List.forall₂_same]
  exact fun entry _ => ⟨rfl, Scalar.ofMember_toJson entry.2 entry.1⟩

theorem storable_eq_self_iff :
    r.storable = r ↔ ∀ name x, (name, Scalar.float x) ∈ r.entries → x.isFinite := by
  rw [Record.ext_iff]
  show r.entries.map (fun e => (e.1, e.2.storable)) = r.entries ↔ _
  nth_rewrite 2 [← List.map_id r.entries]
  rw [List.map_inj_left]
  constructor
  · intro h name x hmem
    have hself : Scalar.storable (.float x) = .float x := congrArg Prod.snd (h _ hmem)
    exact Scalar.storable_eq_self_iff.mp hself x rfl
  · rintro h ⟨name, s⟩ hmem
    exact Prod.ext rfl (Scalar.storable_eq_self_iff.mpr fun x hx => h name x (hx ▸ hmem))

theorem not_unfit_of_ofJson (h : Record.ofJson (.object members) = .ok r) :
    ∀ m ∈ members, ∀ complaint, ¬ m.2.Unfit complaint := by
  obtain ⟨entries, hentries, -⟩ := ofJson_object_eq_ok_iff.mp h
  intro m hm
  obtain ⟨entry, -, hentry⟩ := exists_of_forall₂ hentries m hm
  exact Scalar.exists_ofMember_iff.mp ⟨_, hentry⟩

theorem ofJson_of_not_object {j : Json} (h : ∀ members, j ≠ .object members) :
    Record.ofJson j = .error .notAnObject := by
  cases j with
  | object members => exact absurd rfl (h members)
  | _ => rfl

theorem ofJson_eq_error_iff {j : Json} :
    Record.ofJson j = .error e ↔
      ((∀ members, j ≠ .object members) ∧ e = .notAnObject) ∨
      ∃ before name value after complaint, j = .object (before ++ (name, value) :: after) ∧
        (∀ m ∈ before, ∀ other, ¬ m.2.Unfit other) ∧ value.Unfit complaint ∧
        e = complaint name := by
  by_cases hobject : ∃ members, j = .object members
  · obtain ⟨members, rfl⟩ := hobject
    rw [ofJson_object_eq_error_iff, or_iff_right fun h => h.1 members rfl]
    simp only [Json.object.injEq]
  · push Not at hobject
    rw [ofJson_of_not_object hobject, or_iff_left]
    · exact ⟨fun h => ⟨hobject, (Except.error.inj h).symm⟩, fun h => congrArg Except.error h.2.symm⟩
    · rintro ⟨_, _, _, _, _, hj, -⟩
      exact hobject _ hj

theorem exists_ofJson_eq_error_iff {j : Json} :
    (∃ e, Record.ofJson j = .error e) ↔
      (∀ members, j ≠ .object members) ∨
      ∃ members, j = .object members ∧ ∃ m ∈ members, ∃ complaint, m.2.Unfit complaint := by
  constructor
  · rintro ⟨e, he⟩
    rcases ofJson_eq_error_iff.mp he with
      ⟨hobject, -⟩ | ⟨before, name, value, after, complaint, rfl, -, hunfit, -⟩
    · exact .inl hobject
    · exact .inr ⟨_, rfl, (name, value), by simp, complaint, hunfit⟩
  · rintro (hobject | ⟨members, rfl, m, hm, complaint, hunfit⟩)
    · exact ⟨_, ofJson_of_not_object hobject⟩
    · cases h : Record.ofJson (.object members) with
      | ok r => exact absurd hunfit (not_unfit_of_ofJson h m hm complaint)
      | error e => exact ⟨e, rfl⟩

/-- Objects, whose names are distinct once they are read, and records go over into each other
without loss, apart from the floating-point numbers that JSON lacks.  What is refused is no object,
or the refusal is about the first of its members that no field can hold. -/
theorem json_conversion_exact :
    (∀ (o : Outline) room members, o.json room = .ok (.object members) →
      (Entries.keys members).Nodup) ∧
    (∀ members r, (Entries.keys members).Nodup → Record.ofJson (.object members) = .ok r →
      r.keys = Entries.keys members ∧ r.toJson = .object members) ∧
    (∀ r : Record, Record.ofJson r.toJson = .ok r.storable ∧
      (Record.ofJson r.toJson = .ok r ↔
        ∀ name x, (name, Scalar.float x) ∈ r.entries → ¬ x.isNaN ∧ ¬ x.isInfinite)) ∧
    (∀ j, (∃ e, Record.ofJson j = .error e) ↔
      (∀ members, j ≠ .object members) ∨
      ∃ members, j = .object members ∧ ∃ m ∈ members, ∃ complaint, m.2.Unfit complaint) ∧
    (∀ j e, Record.ofJson j = .error e ↔
      ((∀ members, j ≠ .object members) ∧ e = .notAnObject) ∨
      ∃ before name value after complaint, j = .object (before ++ (name, value) :: after) ∧
        (∀ m ∈ before, ∀ other, ¬ m.2.Unfit other) ∧ value.Unfit complaint ∧
        e = complaint name) := by
  refine ⟨fun _ _ _ => Outline.nodup_keys_of_json, fun _ _ => toJson_of_ofJson, fun r => ?_,
    fun _ => exists_ofJson_eq_error_iff, fun _ _ => ofJson_eq_error_iff⟩
  refine ⟨ofJson_toJson r, ?_⟩
  rw [ofJson_toJson, Except.ok.injEq, storable_eq_self_iff]
  simp only [Binary64.isFinite_iff]

end Record

/-! ### An object and a record at the limits -/

/-- The greatest and the least integer, a negative zero and the other scalars. -/
def Sample.limits : List (String × Json) :=
  [("greatest", .number (.natural 9223372036854775807)),
    ("least", .number (.negative Int64.minValue (by decide))),
    ("zero", .number (.float ⟨0x8000000000000000⟩ (by decide))),
    ("text", .string "1"), ("flag", .bool true), ("none", .null)]

/-- An infinity between an integer and a NaN. -/
def Sample.unbounded : Record :=
  ⟨[("low", .int (-1)), ("high", .float ⟨0x7ff0000000000000⟩),
    ("odd", .float ⟨0x7ff8000000000000⟩)], by decide⟩

/-- A name that stands twice is read as one field. -/
def Sample.twice : Outline :=
  .object [(some "a", .null), (some "b", .null), (some "a", .bool true)] .closed

theorem Record.json_conversion_limits :
    (∃ members, Sample.twice.json 1 = .ok (.object members) ∧ (Entries.keys members).Nodup) ∧
    (∃ r, Record.ofJson (.object Sample.limits) = .ok r ∧ r.toJson = .object Sample.limits) ∧
    Record.ofJson Sample.unbounded.toJson =
      .ok ⟨[("low", .int (-1)), ("high", .null), ("odd", .null)], by decide⟩ ∧
    Record.ofJson Sample.unbounded.toJson ≠ .ok Sample.unbounded ∧
    Record.ofJson (.object (Sample.limits ++
      [("beyond", .number (.natural 9223372036854775808)), ("many", .array [])])) =
      .error (.integerOutOfRange "beyond") := by
  obtain ⟨hdistinct, hback, hforth, -, herror⟩ := json_conversion_exact
  have htwice : Sample.twice.json 1 = .ok (.object [("a", .bool true), ("b", .null)]) := rfl
  have hread : Record.ofJson (.object Sample.limits) = .ok _ := rfl
  have hfit : ∀ m ∈ Sample.limits, ∀ other, ¬ m.2.Unfit other :=
    not_unfit_of_ofJson hread
  refine ⟨⟨_, htwice, hdistinct _ _ _ htwice⟩, ⟨_, hread, (hback _ _ (by decide) hread).2⟩,
    (hforth Sample.unbounded).1, ?_, ?_⟩
  · intro h
    have := (hforth Sample.unbounded).2.mp h "odd" ⟨0x7ff8000000000000⟩ (by decide)
    exact this.1 (by decide)
  · exact (herror _ _).mpr (.inr ⟨Sample.limits, _, _, _, _, rfl, hfit, .beyond (by decide), rfl⟩)

end TaggedUnion
