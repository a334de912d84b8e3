import TaggedUnion.Proofs.Json.Objects
import TaggedUnion.Proofs.Record
import TaggedUnion.Proofs.Rounding
import TaggedUnion.Proofs.StreamForms
import Mathlib.Algebra.Ring.Int.Defs

/-!
# Integers in the text of a record

An integer written in decimal without leading zeros is never taken for another one.  What its
numeral stands for depends on the range that it is in (`Json.integerReading`): an integer of 64
bits, a natural number that only fits without a sign, a floating-point number, or nothing if it is
too large.

The integer may stand under any name in the text of an object, next to other members that fields can
hold (`Json.IntegerText`).  The text is then read as one record that has the integer under this
name, or what is wrong with the integer is all that is wrong (`Record.integerOutcome`).
-/

namespace TaggedUnion

open Json

/-! ### The number of a numeral -/

namespace Json

open Numeral

variable {n : Int}

theorem number?_ofInt_of_none (h : (ofInt n).integer? = none) :
    (ofInt n).number? = (ofInt n).float? := by
  cases n <;> (unfold number? ofInt at *; simp only [h, Option.none_or])

/-- What the numeral of an integer is read as. -/
inductive IntegerReading (n : Int) : Except Error Number → Prop where
  | int (i : Int64) (h : i.toInt = n) : IntegerReading n (.ok (.ofInt64 i))
  | beyond (m : UInt64) (h : m.toNat = n) (hm : 2 ^ 63 ≤ n) : IntegerReading n (.ok (.natural m))
  | float (x : Binary64) (hx : x.isFinite) (hn : n < -2 ^ 63 ∨ 2 ^ 64 ≤ n)
    (h : n.natAbs < leastTooLarge) : IntegerReading n (.ok (.float x hx))
  | tooLarge (h : leastTooLarge ≤ n.natAbs) : IntegerReading n (.error .malformed)

theorem integer?_ofInt_eq_none (h : n < -2 ^ 63 ∨ 2 ^ 64 ≤ n) :
    (Numeral.ofInt n).integer? = none := by
  cases n with
  | ofNat n =>
    show (Numeral.ofInt (n : Int)).integer? = none
    rw [integer?_ofInt_natCast, Number.ofNat?, Nat.pow_eq, if_neg]
    simp only [Int.ofNat_eq_natCast] at h
    omega
  | negSucc n =>
    rw [integer?_ofInt_negSucc, Number.ofNegNat?]
    have hn : ¬ n + 1 ≤ 2 ^ 63 := by omega
    simp only [Nat.pow_eq, if_neg hn, dite_eq_ite, ite_self]

theorem lt_leastTooLarge : 2 ^ 64 < leastTooLarge := by
  decide +kernel

theorem integerReading (n : Int) : IntegerReading n (Outline.readNumber (.ofInt n)) := by
  have hlarge := lt_leastTooLarge
  by_cases hint : -2 ^ 63 ≤ n ∧ n < 2 ^ 63
  · have hn : (Int64.ofInt n).toInt = n := Int64.toInt_ofInt_of_le hint.1 hint.2
    have hread := readNumber_ofInt64 (Int64.ofInt n)
    rw [hn] at hread
    rw [hread]
    exact .int _ hn
  by_cases hnat : 2 ^ 63 ≤ n ∧ n < 2 ^ 64
  · obtain ⟨m, rfl⟩ := Int.eq_ofNat_of_zero_le (by omega : 0 ≤ n)
    have hm : (UInt64.ofNat m).toNat = m := UInt64.toNat_ofNat_of_lt' (by show m < 2 ^ 64; omega)
    have hread := ofNat?_toNat (UInt64.ofNat m)
    rw [hm, ← integer?_ofInt_natCast] at hread
    rw [readNumber_ofInt hread]
    exact .beyond _ (by rw [hm]) hnat.1
  · have hrange : n < -2 ^ 63 ∨ 2 ^ 64 ≤ n := by omega
    rw [Outline.readNumber, number?_ofInt_of_none (integer?_ofInt_eq_none hrange)]
    by_cases hfits : n.natAbs < leastTooLarge
    · obtain ⟨x, hx, hfloat⟩ := float?_ofInt_of_lt hfits
      rw [hfloat]
      exact .float x hx hrange hfits
    · rw [float?_ofInt_of_le (Nat.not_lt.mp hfits)]
      exact .tooLarge (Nat.not_lt.mp hfits)

/-! ### The text of an object with an integer -/

theorem endsWord_of_isSpace {text : List Char} (h : ∀ c ∈ text, isSpace c = true) :
    endsWord text = true := by
  cases text with
  | nil => rfl
  | cons c text =>
    rw [endsWord, h c List.mem_cons_self]
    rfl

variable {lead trail : List Char}

theorem ofTokens_integer (n : Int) (hlead : ∀ c ∈ lead, isSpace c = true)
    (htrail : ∀ c ∈ trail, isSpace c = true) :
    Outline.ofTokens (tokens (lead ++ (Decimal.ofInt n ++ trail))) =
      (.number (.ofInt n), []) := by
  rw [tokens_append_of_isSpace hlead, tokens_ofInt n (endsWord_of_isSpace htrail),
    tokens_eq_nil_iff.mpr htrail, Outline.ofTokens, Outline.value]

/-- A member whose value some field can hold. -/
def MemberText.Fits (m : MemberText) : Prop :=
  ∃ v, parse m.value = .ok v ∧ ∀ complaint, ¬ v.Unfit complaint

/-- An object as it is written, with an integer among its members.  The others have other names, and
fields can hold their values.  Blanks stand where they may. -/
structure IntegerText where
  key : String
  integer : Int
  name : List Char
  lead : List Char
  trail : List Char
  before : List Char
  after : List Char
  front : List MemberText
  back : List MemberText
  parse_name : parse name = .ok (.string key)
  isSpace_lead : ∀ c ∈ lead, isSpace c = true
  isSpace_trail : ∀ c ∈ trail, isSpace c = true
  isSpace_before : ∀ c ∈ before, isSpace c = true
  isSpace_after : ∀ c ∈ after, isSpace c = true
  others : ∀ m ∈ front ++ back, m.key ≠ key ∧ m.Fits

namespace IntegerText

variable (t : IntegerText)

/-- The member with the integer. -/
def member : MemberText where
  key := t.key
  name := t.name
  value := t.lead ++ (Decimal.ofInt t.integer ++ t.trail)
  parse_name := t.parse_name
  isValue := isValue_of_complete (.number _) (ofTokens_integer _ t.isSpace_lead t.isSpace_trail)

def members : List MemberText :=
  t.front ++ t.member :: t.back

def chars : List Char :=
  objectText t.before t.after t.members

theorem outlineOf_member : outlineOf t.member.value = .number (.ofInt t.integer) := by
  rw [outlineOf, member, ofTokens_integer _ t.isSpace_lead t.isSpace_trail]

variable {t}

theorem mem_members_iff {m : MemberText} :
    m ∈ t.members ↔ m = t.member ∨ m ∈ t.front ++ t.back := by
  simp only [members, List.mem_append, List.mem_cons]
  tauto

theorem json_of_fits {m : MemberText} {room : Nat} (h : m.Fits) :
    ∃ v, (outlineOf m.value).json room = .ok v ∧ ∀ complaint, ¬ v.Unfit complaint := by
  obtain ⟨v, hparse, hfit⟩ := h
  refine ⟨v, json_of_scalar (isValue_of_parse hparse).2 ?_ ?_, hfit⟩
  · rintro items rfl
    exact hfit _ (.array items)
  · rintro members rfl
    exact hfit _ (.object members)

/-- If the integer is read as a number, the text is read as an object that has the number under its
name, and nothing else in it is unfit for a record. -/
theorem exists_members (t : IntegerText) {number : Number}
    (h : Outline.readNumber (.ofInt t.integer) = .ok number) :
    ∃ ms, (objectOutline t.members).json Outline.maxDepth = .ok (.object ms) ∧
      (Entries.keys ms).Nodup ∧ (t.key, .number number) ∈ ms ∧
      ∀ m ∈ ms, m.1 ≠ t.key → ∀ complaint, ¬ m.2.Unfit complaint := by
  have hmember : (outlineOf t.member.value).json 126 = .ok (.number number) := by
    rw [outlineOf_member, Outline.json, h]
    rfl
  have hvalues : ∀ m ∈ t.members, ∃ v, (outlineOf m.value).json 126 = .ok v ∧
      (m.key ≠ t.key → ∀ complaint, ¬ v.Unfit complaint) := by
    intro m hm
    rcases mem_members_iff.mp hm with rfl | hm
    · exact ⟨_, hmember, fun hkey => absurd rfl hkey⟩
    · obtain ⟨v, hv, hfit⟩ := json_of_fits (t.others m hm).2
      exact ⟨v, hv, fun _ => hfit⟩
  have : Nonempty Json := ⟨.null⟩
  choose! value hvalue hfit using hvalues
  have hnumber : value t.member = .number number := by
    have hjson := hvalue t.member (mem_members_iff.mpr (.inl rfl))
    rw [hmember] at hjson
    exact (Except.ok.inj hjson).symm
  have hnodup : (Entries.keys (Entries.insertAll []
      (t.members.map fun m => (m.key, value m)))).Nodup :=
    Entries.nodup_keys_insertAll _ List.nodup_nil
  refine ⟨_, json_objectOutline hvalue, hnodup, ?_, ?_⟩
  · rw [← Entries.lookup_eq_some_iff_mem hnodup, members, List.map_append, List.map_cons, hnumber]
    -- No member behind the integer has its name.
    apply Entries.lookup_insertAll_append_cons
    rw [Entries.keys_map, List.mem_map]
    rintro ⟨m, hm, hkey⟩
    exact (t.others m (List.mem_append_right _ hm)).1 hkey
  · intro entry hentry hkey
    obtain ⟨m, hm, rfl⟩ := List.mem_map.mp
      ((Entries.mem_of_mem_insertAll hentry).resolve_left List.not_mem_nil)
    exact hfit m hm hkey

/-- If the integer is not read as a number, the text is not read. -/
theorem exists_json_error (t : IntegerText) {e : Error}
    (h : Outline.readNumber (.ofInt t.integer) = .error e) :
    ∃ e', (objectOutline t.members).json Outline.maxDepth = .error e' := by
  cases hjson : (objectOutline t.members).json Outline.maxDepth with
  | error e' => exact ⟨e', rfl⟩
  | ok v =>
    obtain ⟨room, hmembers⟩ := exists_of_json_objectOutline hjson
    obtain ⟨v, hv⟩ := hmembers t.member (mem_members_iff.mpr (.inl rfl))
    rw [outlineOf_member, Outline.json, h] at hv
    cases hv

/-- A single member without blanks. -/
def plain (key : String) (integer : Int) : IntegerText where
  key := key
  integer := integer
  name := Tree.jsonString key
  lead := []
  trail := []
  before := []
  after := []
  front := []
  back := []
  parse_name := parse_eq_string_iff.mpr (by
    rw [← List.append_nil (Tree.jsonString key), tokens_jsonString, tokens_nil])
  isSpace_lead := by simp
  isSpace_trail := by simp
  isSpace_before := by simp
  isSpace_after := by simp
  others := by simp

theorem chars_plain (key : String) (integer : Int) :
    (plain key integer).chars =
      '\x7b' :: (Tree.jsonString key ++ ':' :: (Decimal.ofInt integer ++ ['\x7d'])) := by
  simp [chars, objectText, members, member, MemberText.chars, plain]

end IntegerText

end Json

/-! ### Records -/

namespace Record

variable {members : List (String × Json)} {key : String} {v : Json}

/-- A member that some field can hold is what the field of its name holds, if the object is read as
a record at all. -/
theorem get?_of_ofJson {r : Record} {s : Scalar} (hnodup : (Entries.keys members).Nodup)
    (hmem : (key, v) ∈ members) (hs : Scalar.ofMember key v = .ok s)
    (h : Record.ofJson (.object members) = .ok r) : r.get? key = some s := by
  obtain ⟨-, htoJson⟩ := toJson_of_ofJson hnodup h
  -- What was read is kept by JSON, so reading it once more gives the same record.
  have hstorable : r.storable = r := by
    have hback := ofJson_toJson r
    rw [htoJson, h] at hback
    exact (Except.ok.inj hback).symm
  rw [← Json.object.inj htoJson] at hmem
  obtain ⟨⟨name, s'⟩, hentry, heq⟩ := List.mem_map.mp hmem
  obtain ⟨rfl, rfl⟩ := Prod.mk.inj heq
  rw [Scalar.ofMember_toJson] at hs
  obtain rfl := Except.ok.inj hs
  rw [get?_eq_some_iff, ← hstorable]
  exact List.mem_map_of_mem hentry

theorem exists_ofJson_of_ofMember_ok {s : Scalar} (hnodup : (Entries.keys members).Nodup)
    (hmem : (key, v) ∈ members) (hs : Scalar.ofMember key v = .ok s)
    (hothers : ∀ m ∈ members, m.1 ≠ key → ∀ complaint, ¬ m.2.Unfit complaint) :
    ∃ r, Record.ofJson (.object members) = .ok r := by
  cases hread : Record.ofJson (.object members) with
  | ok r => exact ⟨r, rfl⟩
  | error e =>
    obtain ⟨before, name, value, after, complaint, rfl, -, hunfit, -⟩ :=
      ofJson_object_eq_error_iff.mp hread
    have hvalue : (name, value) ∈ before ++ (name, value) :: after := by simp
    by_cases hname : name = key
    · -- The name stands once, so the unfit value would be the one that is fit.
      subst hname
      rw [← Entries.lookup_eq_some_iff_mem hnodup] at hmem hvalue
      rw [hmem] at hvalue
      obtain rfl := Option.some.inj hvalue
      exact absurd hunfit (Scalar.exists_ofMember_iff.mp ⟨s, hs⟩ complaint)
    · exact absurd hunfit (hothers _ hvalue hname complaint)

theorem ofJson_of_ofMember_error {e : RecordError} (hnodup : (Entries.keys members).Nodup)
    (hmem : (key, v) ∈ members) (he : Scalar.ofMember key v = .error e)
    (hothers : ∀ m ∈ members, m.1 ≠ key → ∀ complaint, ¬ m.2.Unfit complaint) :
    Record.ofJson (.object members) = .error e := by
  obtain ⟨complaint, hunfit, rfl⟩ := Scalar.ofMember_eq_error_iff.mp he
  obtain ⟨before, after, rfl⟩ := List.append_of_mem hmem
  refine ofJson_object_eq_error_iff.mpr
    ⟨before, key, v, after, complaint, rfl, fun m hm => ?_, hunfit, rfl⟩
  refine hothers m (List.mem_append_left _ hm) ?_
  rintro rfl
  rw [Entries.keys_append, List.nodup_append] at hnodup
  exact hnodup.2.2 m.1 (List.mem_map_of_mem hm) m.1 (by simp) rfl

/-! ### Streams -/

theorem isArrayText_objectText {before after : List Char} {members : List MemberText}
    (hbefore : ∀ c ∈ before, isSpace c = true) :
    isArrayText (objectText before after members) = false := by
  have hblank : ∀ c ∈ before, Text.isBlank c = true := by
    intro c hc
    have hspace := hbefore c hc
    simp only [isSpace, Bool.or_eq_true, decide_eq_true_eq] at hspace
    rcases hspace with ((rfl | rfl) | rfl) | rfl <;> decide
  rw [isArrayText, Text.dropBlank, objectText, List.dropWhile_append_of_pos hblank]
  rfl

theorem valuesOfTokens_of_error {ts rest : List Token} {o : Outline} {e : Error}
    (h : Outline.Reads ts o rest) (he : o.json Outline.maxDepth = .error e) :
    valuesOfTokens ts = .error e := by
  obtain ⟨-, hvalue⟩ := h
  rw [valuesOfTokens, hvalue]
  exact bind_eq_error_iff.mpr (.inl he)

/-- The object is the whole stream. -/
theorem streamValues_objectText {before after : List Char} {members : List MemberText}
    (hbefore : ∀ c ∈ before, isSpace c = true) (hafter : ∀ c ∈ after, isSpace c = true) :
    streamValues (objectText before after members) =
      ((objectOutline members).json Outline.maxDepth).map fun v => [v] := by
  have hreads := @reads_objectText members before after hbefore hafter
  rw [streamValues, isArrayText_objectText hbefore, if_neg Bool.false_ne_true]
  cases hjson : (objectOutline members).json Outline.maxDepth with
  | error e => exact valuesOfTokens_of_error hreads hjson
  | ok v => exact valuesOfTokens_of_reads hreads hjson (by rw [valuesOfTokens])

variable {t : IntegerText} {number : Number}

/-- A number that a field can hold is in the field, and it is written back as it was read. -/
theorem readStream_of_ofMember_ok {s : Scalar}
    (hnumber : Outline.readNumber (.ofInt t.integer) = .ok number)
    (hs : Scalar.ofMember t.key (.number number) = .ok s) :
    ∃ r, readStream t.chars = .ok [r] ∧ r.get? t.key = some s ∧
      ∃ ms, r.toJson = .object ms ∧ (t.key, .number number) ∈ ms := by
  obtain ⟨ms, hjson, hnodup, hmem, hothers⟩ := t.exists_members hnumber
  obtain ⟨r, hr⟩ := exists_ofJson_of_ofMember_ok hnodup hmem hs hothers
  refine ⟨r, ?_, get?_of_ofJson hnodup hmem hs hr, ms, (toJson_of_ofJson hnodup hr).2, hmem⟩
  rw [readStream, IntegerText.chars, streamValues_objectText t.isSpace_before t.isSpace_after,
    hjson]
  exact convertFrom_of_forall₂ (.cons hr .nil) 1

theorem readStream_of_ofMember_error {e : RecordError}
    (hnumber : Outline.readNumber (.ofInt t.integer) = .ok number)
    (he : Scalar.ofMember t.key (.number number) = .error e) :
    readStream t.chars = .error (.invalidRecord 1 e) := by
  obtain ⟨ms, hjson, hnodup, hmem, hothers⟩ := t.exists_members hnumber
  have hr := ofJson_of_ofMember_error hnodup hmem he hothers
  rw [readStream, IntegerText.chars, streamValues_objectText t.isSpace_before t.isSpace_after,
    hjson]
  show convertFrom 1 [_] = _
  rw [convertFrom, hr]

theorem exists_readStream_error {e : Error}
    (h : Outline.readNumber (.ofInt t.integer) = .error e) :
    ∃ e', readStream t.chars = .error (.json e') := by
  obtain ⟨e', hjson⟩ := t.exists_json_error h
  refine ⟨e', ?_⟩
  rw [readStream, IntegerText.chars, streamValues_objectText t.isSpace_before t.isSpace_after,
    hjson]
  rfl

/-- What reading a text with an integer comes to, by the range of the integer. -/
inductive IntegerOutcome (t : IntegerText) : Except StreamError (List Record) → Prop where
  | int {r : Record} {i : Int64} {ms : List (String × Json)} (hr : r.get? t.key = some (.int i))
    (hi : i.toInt = t.integer) (hrange : -2 ^ 63 ≤ t.integer ∧ t.integer < 2 ^ 63)
    (hms : r.toJson = .object ms) (hmem : (t.key, .number (.ofInt64 i)) ∈ ms) :
    IntegerOutcome t (.ok [r])
  | outOfRange (h : 2 ^ 63 ≤ t.integer ∧ t.integer < 2 ^ 64) :
    IntegerOutcome t (.error (.invalidRecord 1 (.integerOutOfRange t.key)))
  | float {r : Record} {x : Binary64} (hr : r.get? t.key = some (.float x))
    (hrange : t.integer < -2 ^ 63 ∨ 2 ^ 64 ≤ t.integer)
    (h : t.integer.natAbs < Numeral.leastTooLarge) : IntegerOutcome t (.ok [r])
  | tooLarge {e : Error} (h : Numeral.leastTooLarge ≤ t.integer.natAbs) :
    IntegerOutcome t (.error (.json e))

theorem integerOutcome (t : IntegerText) : IntegerOutcome t (readStream t.chars) := by
  have hreading := integerReading t.integer
  cases hread : Outline.readNumber (.ofInt t.integer) with
  | error e =>
    rw [hread] at hreading
    obtain ⟨e', he'⟩ := exists_readStream_error hread
    cases hreading with
    | tooLarge h =>
      rw [he']
      exact .tooLarge h
  | ok number =>
    rw [hread] at hreading
    cases hreading with
    | int i hi =>
      have hs : Scalar.ofMember t.key (.number (.ofInt64 i)) = .ok (.int i) :=
        Scalar.ofMember_toJson (.int i) t.key
      obtain ⟨r, hr, hget, ms, hms, hmem⟩ := readStream_of_ofMember_ok hread hs
      rw [hr]
      exact .int hget hi (hi ▸ ⟨i.le_toInt, i.toInt_lt⟩) hms hmem
    | beyond m hm hle =>
      have hmax : Int64.maxValue.toInt = 2 ^ 63 - 1 := by decide
      have hnone : natInt64? m = none := natInt64?_eq_none_iff.mpr (by omega)
      have hlt := m.toNat_lt
      rw [readStream_of_ofMember_error hread (Scalar.ofMember_natural_of_none hnone)]
      exact .outOfRange ⟨hle, by omega⟩
    | float x hx hrange hlt =>
      have hs : Scalar.ofMember t.key (.number (.float x hx)) = .ok (.float x) := rfl
      obtain ⟨r, hr, hget, -⟩ := readStream_of_ofMember_ok hread hs
      rw [hr]
      exact .float hget hrange hlt

namespace IntegerOutcome

variable {result : Except StreamError (List Record)}

theorem int_iff (h : IntegerOutcome t result) :
    (∃ r i, result = .ok [r] ∧ r.get? t.key = some (.int i) ∧ i.toInt = t.integer) ↔
      -2 ^ 63 ≤ t.integer ∧ t.integer < 2 ^ 63 := by
  have hlarge := lt_leastTooLarge
  constructor
  · rintro ⟨r, i, -, -, hi⟩
    exact hi ▸ ⟨i.le_toInt, i.toInt_lt⟩
  · intro hrange
    cases h with
    | int hr hi => exact ⟨_, _, rfl, hr, hi⟩
    | _ => omega

/-- An integer in a record that was read is the one in the text, and it is written as this. -/
theorem toInt_eq {records : List Record} {r : Record} {i : Int64}
    (h : IntegerOutcome t (.ok records)) (hmem : r ∈ records)
    (hget : r.get? t.key = some (.int i)) :
    i.toInt = t.integer ∧ ∃ ms v, r.toJson = .object ms ∧ (t.key, v) ∈ ms ∧
      v.toTree.compact = Decimal.intText t.integer := by
  cases h with
  | @int _ i' ms hr hi _ hms hnumber =>
    obtain rfl := List.mem_singleton.mp hmem
    obtain rfl : i' = i := Scalar.int.inj (Option.some.inj (hr.symm.trans hget))
    refine ⟨hi, ms, _, hms, hnumber, ?_⟩
    show (Number.ofInt64 i').toTree.compact = _
    rw [toTree_ofInt64, hi]
    rfl
  | float hr =>
    obtain rfl := List.mem_singleton.mp hmem
    rw [hr] at hget
    cases hget

theorem outOfRange_iff (h : IntegerOutcome t result) :
    result = .error (.invalidRecord 1 (.integerOutOfRange t.key)) ↔
      2 ^ 63 ≤ t.integer ∧ t.integer < 2 ^ 64 := by
  have hlarge := lt_leastTooLarge
  constructor
  · rintro rfl
    cases h with
    | outOfRange hrange => exact hrange
  · intro hrange
    cases h with
    | outOfRange _ => rfl
    | _ => omega

theorem float_iff (h : IntegerOutcome t result) :
    (∃ r x, result = .ok [r] ∧ r.get? t.key = some (.float x)) ↔
      (t.integer < -2 ^ 63 ∨ 2 ^ 64 ≤ t.integer) ∧ t.integer.natAbs < Numeral.leastTooLarge := by
  constructor
  · rintro ⟨r, x, rfl, hget⟩
    cases h with
    | int hr =>
      rw [hr] at hget
      cases hget
    | float _ hrange hlt => exact ⟨hrange, hlt⟩
  · intro hrange
    cases h with
    | float hr => exact ⟨_, _, rfl, hr⟩
    | _ => omega

theorem json_iff (h : IntegerOutcome t result) :
    (∃ e, result = .error (.json e)) ↔ Numeral.leastTooLarge ≤ t.integer.natAbs := by
  have hlarge := lt_leastTooLarge
  constructor
  · rintro ⟨e, rfl⟩
    cases h with
    | tooLarge hle => exact hle
  · intro hle
    cases h with
    | tooLarge _ => exact ⟨_, rfl⟩
    | _ => omega

end IntegerOutcome

/-- An integer in the text of a record is read as itself or not as an integer at all: it is a field
of 64 bits, and written back with the same digits, or it is out of range, or a floating-point
number, or too large, and its value alone says which. -/
theorem readStream_integer_exact (t : IntegerText) :
    ((∃ r i, readStream t.chars = .ok [r] ∧ r.get? t.key = some (.int i) ∧ i.toInt = t.integer) ↔
      -2 ^ 63 ≤ t.integer ∧ t.integer < 2 ^ 63) ∧
    (∀ records r i, readStream t.chars = .ok records → r ∈ records →
      r.get? t.key = some (.int i) → i.toInt = t.integer ∧
        ∃ ms v, r.toJson = .object ms ∧ (t.key, v) ∈ ms ∧
          v.toTree.compact = Decimal.intText t.integer) ∧
    (readStream t.chars = .error (.invalidRecord 1 (.integerOutOfRange t.key)) ↔
      2 ^ 63 ≤ t.integer ∧ t.integer < 2 ^ 64) ∧
    ((∃ r x, readStream t.chars = .ok [r] ∧ r.get? t.key = some (.float x)) ↔
      (t.integer < -2 ^ 63 ∨ 2 ^ 64 ≤ t.integer) ∧
        t.integer.natAbs < Numeral.leastTooLarge) ∧
    ((∃ e, readStream t.chars = .error (.json e)) ↔
      Numeral.leastTooLarge ≤ t.integer.natAbs) := by
  have h := integerOutcome t
  refine ⟨h.int_iff, fun records r i hread hmem hget => ?_, h.outOfRange_iff, h.float_iff,
    h.json_iff⟩
  rw [hread] at h
  exact h.toInt_eq hmem hget

end Record

/-! ### Texts at the limits -/

theorem Sample.parse_digits :
    parse "\"9223372036854775808\"".toList = .ok (.string "9223372036854775808") :=
  parse_eq_string_iff.mpr (by decide +kernel)

/-- A member that holds digits, but as a text. -/
def Sample.digitsMember : MemberText where
  key := "kk"
  name := " \"k\\u006b\" ".toList
  value := "\"9223372036854775808\"".toList
  parse_name := parse_eq_string_iff.mpr (by decide +kernel)
  isValue := (isValue_of_parse Sample.parse_digits).1

/-- An integer behind a member whose name starts like its own. -/
def Sample.integerText (integer : Int) : IntegerText where
  key := "k"
  integer := integer
  name := "\n\"\\u006b\"".toList
  lead := [' ']
  trail := ['\n']
  before := ['\t']
  after := ['\n']
  front := [Sample.digitsMember]
  back := []
  parse_name := parse_eq_string_iff.mpr (by decide +kernel)
  isSpace_lead := List.all_eq_true.mp rfl
  isSpace_trail := List.all_eq_true.mp rfl
  isSpace_before := List.all_eq_true.mp rfl
  isSpace_after := List.all_eq_true.mp rfl
  others := by
    intro m hm
    obtain rfl := List.mem_singleton.mp hm
    have hkey : Sample.digitsMember.key ≠ "k" := by decide +kernel
    refine ⟨hkey, _, Sample.parse_digits, ?_⟩
    rintro _ ⟨⟩

theorem Record.readStream_integer_limits :
    (∃ r i, readStream (Sample.integerText (-2 ^ 63)).chars = .ok [r] ∧
      r.get? "k" = some (.int i) ∧ i.toInt = -2 ^ 63 ∧
      ∃ ms v, r.toJson = .object ms ∧ ("k", v) ∈ ms ∧
        v.toTree.compact = Decimal.intText (-2 ^ 63)) ∧
    readStream (Sample.integerText (2 ^ 63)).chars =
      .error (.invalidRecord 1 (.integerOutOfRange "k")) ∧
    (∃ r x, readStream (Sample.integerText (-2 ^ 63 - 1)).chars = .ok [r] ∧
      r.get? "k" = some (.float x)) ∧
    ∃ e, readStream (Sample.integerText (-Numeral.leastTooLarge)).chars = .error (.json e) := by
  obtain ⟨hint, hwritten, -⟩ := readStream_integer_exact (Sample.integerText (-2 ^ 63))
  obtain ⟨-, -, hbeyond, -⟩ := readStream_integer_exact (Sample.integerText (2 ^ 63))
  obtain ⟨-, -, -, hfloat, -⟩ := readStream_integer_exact (Sample.integerText (-2 ^ 63 - 1))
  obtain ⟨-, -, -, -, hlarge⟩ :=
    readStream_integer_exact (Sample.integerText (-Numeral.leastTooLarge))
  obtain ⟨r, i, hr, hget, hi⟩ := hint.mpr ⟨by decide, by decide⟩
  refine ⟨⟨r, i, hr, hget, hi, (hwritten _ r i hr List.mem_cons_self hget).2⟩,
    hbeyond.mpr ⟨by decide, by decide⟩, hfloat.mpr ⟨by decide, by decide +kernel⟩,
    hlarge.mpr ?_⟩
  show Numeral.leastTooLarge ≤ (-(Numeral.leastTooLarge : Int)).natAbs
  omega

namespace Record

theorem readStream_plain_of_le (key : String) {n : Nat} (h : Numeral.leastTooLarge ≤ n) :
    ∃ e, readStream
      ('\x7b' :: (Tree.jsonString key ++ ':' :: (Decimal.ofInt n ++ ['\x7d']))) =
        .error (.json e) := by
  rw [← IntegerText.chars_plain]
  exact (integerOutcome (IntegerText.plain key n)).json_iff.mpr h

/-- The greatest finite number is an integer, but its numeral is too large. -/
theorem readStream_greatest_finite :
    (∃ x : Binary64, x.isFinite ∧ x.units = (2 ^ 1024 - 2 ^ 971) * 2 ^ 1074) ∧
    ∃ e, readStream ('\x7b' :: (Tree.jsonString "k" ++ ':' ::
      (Decimal.ofInt ((2 ^ 1024 - 2 ^ 971 : Nat) : Int) ++ ['\x7d']))) = .error (.json e) :=
  ⟨⟨⟨0x7fefffffffffffff⟩, by decide, by decide +kernel⟩,
    readStream_plain_of_le "k" (by decide +kernel)⟩

end Record

end TaggedUnion
