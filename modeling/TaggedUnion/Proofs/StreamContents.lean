import TaggedUnion.Proofs.StreamForms

/-!
# What a stream comes to

What a text holds as a stream is a matter of parsing alone (`Record.Holds`): the items of one array
if its first character that is not blank opens one, else values one after the other
(`Json.Sequence`), each of which is a text of its own.  Reading the values off the tokens of the
whole text finds just these (`Record.valuesOfTokens_eq_ok_iff`, `Record.streamValues_eq_ok_iff`):
a value takes the tokens in front, and the text can be cut behind them.

Only then are the values taken for records, one by one and up to the first that is none
(`Record.convertFrom_eq_ok_iff`, `Record.convertFrom_eq_error_iff`).  So a stream that does not
parse is never reported as an invalid record, and one that parses never as a JSON error
(`Record.readStream_all_or_nothing`).
-/

namespace TaggedUnion

open Json

namespace Json

/-- Whether a value is written as a word or numeral, which something has to end. -/
def isWord : Json → Bool
  | .null => true
  | .bool _ => true
  | .number _ => true
  | _ => false

/-- A text of values one after the other, and blanks at its end.  Blanks before and behind a value
belong to its text. -/
inductive Sequence : List Char → List Json → Prop where
  | blank {text : List Char} (h : ∀ c ∈ text, isSpace c = true) : Sequence text []
  | value {text rest : List Char} {v : Json} {vs : List Json} (hparse : parse text = .ok v)
    (hends : v.isWord = true → endsWord rest = true) (hrest : Sequence rest vs) :
    Sequence (text ++ rest) (v :: vs)

theorem Outline.isWord_of_json {o : Outline} {room : Nat} {v : Json} (h : o.json room = .ok v) :
    o.isWord = v.isWord := by
  cases gives_of_json h <;> rfl

end Json

namespace Record

variable {text : List Char} {values docs : List Json} {records : List Record} {index : Nat}

/-! ### Values one after the other -/

theorem valuesOfTokens_eq_nil {ts : List Token} (h : valuesOfTokens ts = .ok []) : ts = [] := by
  cases ts with
  | nil => rfl
  | cons t ts =>
    rw [valuesOfTokens] at h
    obtain ⟨_, -, h⟩ := bind_eq_ok_iff.mp h
    obtain ⟨_, -, h⟩ := bind_eq_ok_iff.mp h
    cases h

/-- The first of some values takes the tokens in front, and the others are those of the rest. -/
theorem exists_of_valuesOfTokens {ts : List Token} {v : Json}
    (h : valuesOfTokens ts = .ok (v :: values)) :
    ∃ o front rest, ts = front ++ rest ∧ (∀ t ∈ front, t.isProper = true) ∧
      (∀ t ∈ front.getLast?, t.isWord = o.isWord) ∧ Outline.Reads front o [] ∧
      o.json Outline.maxDepth = .ok v ∧ valuesOfTokens rest = .ok values := by
  cases ts with
  | nil =>
    rw [valuesOfTokens] at h
    cases h
  | cons t ts =>
    rw [valuesOfTokens] at h
    obtain ⟨v', hjson, h⟩ := bind_eq_ok_iff.mp h
    obtain ⟨values', hrest, h⟩ := bind_eq_ok_iff.mp h
    obtain ⟨rfl, rfl⟩ := List.cons.inj (Except.ok.inj h)
    obtain ⟨front, hsplits, ht, hlast, hreads⟩ :=
      Outline.exists_front_value t ts (Outline.complete_of_json hjson)
    have hreads := hreads []
    rw [List.append_nil] at hreads
    exact ⟨_, t :: front, _, (hsplits.cons ht).eq, (hsplits.cons ht).proper, hlast, hreads, hjson,
      hrest⟩

/-- No value starts where a word goes on. -/
theorem head?_ne_seam_of_valuesOfTokens {ts : List Token} (h : valuesOfTokens ts = .ok values) :
    ts.head? ≠ some .seam := by
  cases values with
  | nil =>
    rw [valuesOfTokens_eq_nil h]
    simp
  | cons v values =>
    obtain ⟨o, front, rest, rfl, hproper, -, hreads, -⟩ := exists_of_valuesOfTokens h
    cases front with
    | nil => cases hreads
    | cons t front =>
      show some t ≠ _
      exact head?_ne_seam hproper

theorem sequence_of_valuesOfTokens (h : valuesOfTokens (tokens text) = .ok values) :
    Sequence text values := by
  induction values generalizing text with
  | nil => exact .blank (tokens_eq_nil_iff.mp (valuesOfTokens_eq_nil h))
  | cons v values ih =>
    obtain ⟨o, front, rest, htokens, hproper, hlast, hreads, hjson, hrest⟩ :=
      exists_of_valuesOfTokens h
    -- The text is cut behind the tokens of the first value, which are a text of their own.
    obtain ⟨a, b, rfl, rfl, rfl, hends⟩ :=
      exists_cut htokens hproper (head?_ne_seam_of_valuesOfTokens hrest)
    have hparse : parse a = .ok v := by
      rw [parse, parseWith, readWith_of_ofTokens hreads.ofTokens_eq, hjson]
    refine .value hparse (fun hword => ?_) (ih hrest)
    cases hfront : (tokens a).getLast? with
    | none =>
      rw [List.getLast?_eq_none_iff.mp hfront] at hreads
      cases hreads
    | some t =>
      rw [← Outline.isWord_of_json hjson, ← hlast t hfront] at hword
      exact hends t hfront hword

theorem valuesOfTokens_of_sequence (h : Sequence text values) :
    valuesOfTokens (tokens text) = .ok values := by
  induction h with
  | blank h => rw [tokens_eq_nil_iff.mpr h, valuesOfTokens]
  | @value text rest v vs hparse hends _ ih =>
    obtain ⟨hvalue, hjson⟩ := isValue_of_parse hparse
    have htokens : tokens (text ++ rest) = tokens text ++ tokens rest := by
      apply tokens_append_of_last hvalue.proper
      intro t ht hword
      apply hends
      rw [← Outline.isWord_of_json hjson, ← hvalue.last t ht, hword]
    rw [htokens]
    exact valuesOfTokens_of_reads (hvalue.reads _) hjson ih

/-- The values that are read off the tokens of a text are those that it is a sequence of. -/
theorem valuesOfTokens_eq_ok_iff :
    valuesOfTokens (tokens text) = .ok values ↔ Sequence text values :=
  ⟨sequence_of_valuesOfTokens, valuesOfTokens_of_sequence⟩

/-! ### Streams -/

/-- What a text holds as a stream: the items of the array that its first character other than
blanks opens, or else values one after the other. -/
inductive Holds (text : List Char) (docs : List Json) : Prop where
  | array (hopen : (Text.dropBlank text).head? = some '[') (h : parse text = .ok (.array docs))
  | sequence (hopen : (Text.dropBlank text).head? ≠ some '[') (h : Sequence text docs)

theorem arrayValues_eq_ok_iff : arrayValues text = .ok docs ↔ parse text = .ok (.array docs) := by
  unfold arrayValues
  rw [bind_eq_ok_iff]
  constructor
  · rintro ⟨v, hv, h⟩
    cases v with
    | array items =>
      obtain rfl := Except.ok.inj h
      exact hv
    | _ => cases h
  · intro h
    exact ⟨_, h, rfl⟩

theorem streamValues_eq_ok_iff : streamValues text = .ok docs ↔ Holds text docs := by
  unfold streamValues isArrayText
  by_cases hopen : (Text.dropBlank text).head? = some '['
  · rw [if_pos (decide_eq_true hopen), arrayValues_eq_ok_iff]
    constructor
    · exact .array hopen
    · rintro (⟨-, h⟩ | ⟨hnot, -⟩)
      · exact h
      · exact absurd hopen hnot
  · rw [if_neg (by simpa using hopen), valuesOfTokens_eq_ok_iff]
    constructor
    · exact .sequence hopen
    · rintro (⟨hyes, -⟩ | ⟨-, h⟩)
      · exact absurd hyes hopen
      · exact h

/-- Spaces alone hold no value. -/
theorem holds_of_isSpace (h : ∀ c ∈ text, isSpace c = true) : Holds text [] := by
  refine .sequence (fun hopen => ?_) (.blank h)
  have hmem : '[' ∈ text := (List.dropWhile_suffix _).mem (List.mem_of_mem_head? hopen)
  have hspace := h _ hmem
  cases hspace

/-! ### Records -/

/-- The records of values are the records of each. -/
theorem convertFrom_eq_ok_iff :
    convertFrom index values = .ok records ↔
      List.Forall₂ (fun v r => Record.ofJson v = .ok r) values records := by
  refine ⟨fun h => ?_, fun h => convertFrom_of_forall₂ h index⟩
  obtain ⟨records', hrecords⟩ | ⟨before, v, after, e, rfl, hbefore, hv⟩ :=
    records_or_first_failure values
  · rw [convertFrom_of_forall₂ hrecords] at h
    rwa [← Except.ok.inj h]
  · rw [convertFrom_append_cons hbefore hv] at h
    cases h

/-- The complaint is about the first value that is no record. -/
theorem convertFrom_eq_error_iff {e : StreamError} :
    convertFrom index values = .error e ↔ ∃ before v after e', values = before ++ v :: after ∧
      (∀ b ∈ before, ∃ r, Record.ofJson b = .ok r) ∧ Record.ofJson v = .error e' ∧
      e = .invalidRecord (index + before.length) e' := by
  constructor
  · intro h
    obtain ⟨records, hrecords⟩ | ⟨before, v, after, e', rfl, hbefore, hv⟩ :=
      records_or_first_failure values
    · rw [convertFrom_of_forall₂ hrecords] at h
      cases h
    · rw [convertFrom_append_cons hbefore hv] at h
      exact ⟨before, v, after, e', rfl, hbefore, hv, (Except.error.inj h).symm⟩
  · rintro ⟨before, v, after, e', rfl, hbefore, hv, rfl⟩
    exact convertFrom_append_cons hbefore hv after index

theorem exists_forall₂_ofJson_iff :
    (∃ records, List.Forall₂ (fun v r => Record.ofJson v = .ok r) values records) ↔
      ∀ v ∈ values, ∃ r, Record.ofJson v = .ok r := by
  constructor
  · rintro ⟨records, h⟩
    exact exists_of_forall₂ h
  · intro h
    obtain hrecords | ⟨before, v, after, e, rfl, -, hv⟩ := records_or_first_failure values
    · exact hrecords
    · obtain ⟨r, hr⟩ := h v (by simp)
      rw [hv] at hr
      cases hr

theorem readStream_of_holds (h : Holds text docs) : readStream text = convertFrom 1 docs := by
  rw [readStream, streamValues_eq_ok_iff.mpr h]

/-- A text that does not parse as a stream is a JSON error, whatever values stand in front of the
fault.  One that does gives a record for each of its values, or a complaint about the first that is
none, with its place counted from one.  Where there are no values there are no records. -/
theorem readStream_all_or_nothing (text : String) :
    ((∀ docs, ¬ Holds text.toList docs) → ∃ e, readStream text.toList = .error (.json e)) ∧
    (∀ docs, Holds text.toList docs →
      (∀ e, readStream text.toList ≠ .error (.json e)) ∧
      ((∃ records, readStream text.toList = .ok records) ↔
        ∀ d ∈ docs, ∃ r, Record.ofJson d = .ok r) ∧
      (∀ records, readStream text.toList = .ok records ↔
        List.Forall₂ (fun d r => Record.ofJson d = .ok r) docs records) ∧
      ∀ k e, readStream text.toList = .error (.invalidRecord k e) ↔
        ∃ before d after, docs = before ++ d :: after ∧ k = before.length + 1 ∧
          (∀ b ∈ before, ∃ r, Record.ofJson b = .ok r) ∧ Record.ofJson d = .error e) ∧
    ((∀ c ∈ text.toList, isSpace c = true) → readStream text.toList = .ok []) ∧
    ofContent (.file text.toUTF8) = (readStream text.toList).mapError .ofStream := by
  refine ⟨fun hnot => ?_, fun docs hdocs => ?_, fun hblank => ?_, ofContent_toUTF8 text⟩
  · cases hvalues : streamValues text.toList with
    | error e => exact ⟨e, by rw [readStream, hvalues]⟩
    | ok docs => exact absurd (streamValues_eq_ok_iff.mp hvalues) (hnot docs)
  · rw [readStream_of_holds hdocs]
    refine ⟨fun e he => ?_, ?_, fun records => convertFrom_eq_ok_iff, fun k e => ?_⟩
    · obtain ⟨_, _, _, _, -, -, -, h⟩ := convertFrom_eq_error_iff.mp he
      cases h
    · simp only [convertFrom_eq_ok_iff]
      exact exists_forall₂_ofJson_iff
    · rw [convertFrom_eq_error_iff]
      constructor
      · rintro ⟨before, d, after, e', hdocs, hbefore, hd, h⟩
        obtain ⟨rfl, rfl⟩ := StreamError.invalidRecord.inj h
        exact ⟨before, d, after, hdocs, Nat.add_comm 1 _, hbefore, hd⟩
      · rintro ⟨before, d, after, hdocs, rfl, hbefore, hd⟩
        exact ⟨before, d, after, e, hdocs, hbefore, hd, by rw [Nat.add_comm]⟩
  · rw [readStream_of_holds (holds_of_isSpace hblank), convertFrom]

/-- A text that stops within its second value, though the first is no record, and one of three
values of which the second is none. -/
theorem readStream_stops_or_complains :
    let stops := "\x7b\"a\": [1]\x7d \x7b\"b\":"
    let complains := " \x7b\"a\": 1\x7d[]-2\n"
    (∃ e, readStream stops.toList = .error (.json e)) ∧
    (∃ docs, Holds complains.toList docs ∧ ∃ before d after, docs = before ++ d :: after ∧
      2 = before.length + 1 ∧ (∀ b ∈ before, ∃ r, Record.ofJson b = .ok r) ∧
      Record.ofJson d = .error .notAnObject) ∧
    readStream " \n\t".toList = .ok [] := by
  intro stops complains
  have hstops : (streamValues stops.toList).isOk = false := by decide +kernel
  have hcomplains : (streamValues complains.toList).isOk = true := by decide +kernel
  have hread : readStream complains.toList = .error (.invalidRecord 2 .notAnObject) := by
    decide +kernel
  refine ⟨(readStream_all_or_nothing stops).1 fun docs hdocs => ?_, ?_,
    (readStream_all_or_nothing " \n\t").2.2.1 (List.all_eq_true.mp rfl)⟩
  · rw [streamValues_eq_ok_iff.mpr hdocs] at hstops
    cases hstops
  · cases hvalues : streamValues complains.toList with
    | error e =>
      rw [hvalues] at hcomplains
      cases hcomplains
    | ok docs =>
      have hdocs := streamValues_eq_ok_iff.mp hvalues
      exact ⟨docs, hdocs,
        (((readStream_all_or_nothing complains).2.1 docs hdocs).2.2.2 2 _).mp hread⟩

end Record

end TaggedUnion
