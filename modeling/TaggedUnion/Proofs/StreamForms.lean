import TaggedUnion.Proofs.Json.Locality
import TaggedUnion.Proofs.Stream

/-!
# The two forms of a stream

Values in one array and the same values one a line are the same stream
(`Record.readStream_array_eq_lines`).  The one form is read as a single value and the other value by
value, but both come down to the outlines of the texts:

* the tokens of the array are those of the texts with commas between them and marks around them
  (`Record.tokens_arrayText`), and those of the lines are just those of the texts
  (`Record.tokens_lineText`);
* the array is one level deeper than its items, which are read as the same values one level down
  (`Record.streamValues_arrayText`);
* lines are not taken for an array, unless the first text is one (`Record.streamValues_lineText`).
-/

namespace TaggedUnion

open Json

namespace Record

/-- Texts as the items of one array. -/
def arrayText (texts : List String) : String :=
  "[" ++ ",".intercalate texts ++ "]"

/-- Texts one a line. -/
def lineText (texts : List String) : String :=
  "\n".intercalate texts

variable {texts : List String}

/-! ### Tokens -/

theorem tokens_arrayText (h : ∀ t ∈ texts, IsValue t.toList) :
    tokens (arrayText texts).toList =
      .openArray :: ((texts.flatMap fun t => .comma :: tokens t.toList).tail ++ [.closeArray]) := by
  have hitems := Tree.cuts_intercalate (fun t ht => (h t ht).cuts) [']'] rfl
  rw [arrayText, String.toList_append, String.toList_append, String.toList_intercalate]
  show tokens ('[' :: ([','].intercalate (texts.map String.toList) ++ [']'])) = _
  rw [tokens_openArray, hitems, tokens_closeArray, tokens_nil]

theorem tokens_lineText (h : ∀ t ∈ texts, IsValue t.toList) :
    tokens (lineText texts).toList = texts.flatMap fun t => tokens t.toList := by
  rw [lineText, String.toList_intercalate]
  induction texts with
  | nil => exact tokens_nil
  | cons t more ih =>
    have ht := (h t List.mem_cons_self).cuts
    cases more with
    | nil => rw [List.map_singleton, List.intercalate_singleton, List.flatMap_singleton]
    | cons t' more =>
      -- A line break ends whatever word the first text ends with.
      have hmore := ih fun s hs => h s (List.mem_cons_of_mem _ hs)
      rw [List.flatMap_cons, ← hmore, List.map_cons, List.map_cons, List.intercalate_cons_cons,
        List.append_assoc, ht _ rfl]
      exact congrArg _ (tokens_newline _)

/-! ### Which form a text has -/

theorem not_isDigit_of_isBlank {c : Char} (h : Text.isBlank c = true) : c.isDigit = false := by
  rw [Bool.eq_false_iff]
  intro hdigit
  rw [Char.isDigit, Bool.and_eq_true, decide_eq_true_eq, decide_eq_true_eq] at hdigit
  have hlow : 48 ≤ c.toNat := hdigit.1
  have hhigh : c.toNat ≤ 57 := hdigit.2
  simp only [Text.isBlank, Bool.or_eq_true, Bool.and_eq_true, decide_eq_true_eq, beq_iff_eq] at h
  omega

/-- No token starts with a blank character. -/
theorem nextToken_of_isBlank {c : Char} (h : Text.isBlank c = true) (rest : List Char) :
    nextToken c rest = (.broken .malformed .malformed, []) := by
  unfold nextToken
  split
  -- No mark and no first letter of a word is blank.
  any_goals contradiction
  rw [not_isDigit_of_isBlank h]
  rfl

/-- A text without faults that is taken for an array starts with the mark of one. -/
theorem exists_tokens_of_isArrayText {text : List Char}
    (h : ∀ t ∈ tokens text, t.isProper = true) (harray : isArrayText text = true) :
    ∃ ts, tokens text = .openArray :: ts := by
  induction text with
  | nil => cases harray
  | cons c text ih =>
    by_cases hblank : Text.isBlank c = true
    · have hdrop : isArrayText (c :: text) = isArrayText text := by
        rw [isArrayText, isArrayText, Text.dropBlank, Text.dropBlank,
          List.dropWhile_cons_of_pos hblank]
      by_cases hspace : isSpace c = true
      · rw [tokens_of_isSpace hspace] at h ⊢
        exact ih h (hdrop ▸ harray)
      · -- Any other blank character is a fault.
        have htokens := tokens_of_nextToken (by simpa using hspace)
          (nextToken_of_isBlank hblank text) (by simp [Token.isWord])
        rw [htokens] at h
        have hproper := h _ List.mem_cons_self
        cases hproper
    · have hc : c = '[' := by
        rw [isArrayText, Text.dropBlank, List.dropWhile_cons_of_neg hblank] at harray
        simpa using harray
      subst hc
      exact ⟨tokens text, tokens_openArray text⟩

/-! ### Values -/

variable {value : String → Json}

theorem streamValues_arrayText (hparse : ∀ t ∈ texts, Json.parse t.toList = .ok (value t))
    (hnesting : ∀ t ∈ texts, nesting t.toList < Outline.maxDepth) :
    streamValues (arrayText texts).toList = .ok (texts.map value) := by
  have hvalue : ∀ t ∈ texts, IsValue t.toList := fun t ht => (isValue_of_parse (hparse t ht)).1
  have harray : isArrayText (arrayText texts).toList = true := by
    rw [arrayText, String.toList_append, String.toList_append]
    rfl
  have hreads := Outline.reads_array_flatMap (fun t ht => (hvalue t ht).reads) []
  -- The array takes one of the levels that there is room for.
  have hitems : List.Forall₂ (fun o v => o.json (Outline.maxDepth - 1) = .ok v)
      (texts.map fun t => outlineOf t.toList) (texts.map value) := by
    rw [List.forall₂_map_left_iff, List.forall₂_map_right_iff, List.forall₂_same]
    intro t ht
    exact Outline.json_of_depth_le (isValue_of_parse (hparse t ht)).2
      (Nat.le_sub_one_of_lt (hnesting t ht))
  have hparse : Json.parse (arrayText texts).toList = .ok (.array (texts.map value)) := by
    rw [Json.parse, parseWith, tokens_arrayText hvalue, readWith_of_ofTokens hreads.ofTokens_eq]
    exact Outline.json_array hitems
  rw [streamValues, if_pos harray, arrayValues, hparse]
  rfl

/-- What starts with the mark of an array is one. -/
theorem exists_array_of_reads {ts rest : List Token} {o : Outline} {room : Nat} {v : Json}
    (h : Outline.Reads (.openArray :: ts) o rest) (hjson : o.json room = .ok v) :
    ∃ items, v = .array items := by
  have hvalue := congrArg Prod.fst h.ofTokens_eq
  rw [Outline.ofTokens, Outline.value_openArray] at hvalue
  subst hvalue
  obtain ⟨_, values, -, -, rfl, -⟩ := Outline.exists_of_json_array hjson
  exact ⟨values, rfl⟩

theorem isArrayText_lineText (hparse : ∀ t ∈ texts, Json.parse t.toList = .ok (value t))
    (hhead : ∀ t ∈ texts.head?, ∀ items, value t ≠ .array items) :
    isArrayText (lineText texts).toList = false := by
  have htokens := tokens_lineText fun t ht => (isValue_of_parse (hparse t ht)).1
  have hproper : ∀ token ∈ tokens (lineText texts).toList, token.isProper = true := by
    rw [htokens]
    intro token htoken
    obtain ⟨t, ht, htoken⟩ := List.mem_flatMap.mp htoken
    exact (isValue_of_parse (hparse t ht)).1.proper token htoken
  rw [Bool.eq_false_iff]
  intro harray
  obtain ⟨ts, hts⟩ := exists_tokens_of_isArrayText hproper harray
  rw [htokens] at hts
  cases texts with
  | nil => cases hts
  | cons t more =>
    -- The mark can only belong to the first text.
    obtain ⟨hvalue, hjson⟩ := isValue_of_parse (hparse t List.mem_cons_self)
    have hreads := hvalue.reads (more.flatMap fun t => tokens t.toList)
    rw [List.flatMap_cons] at hts
    rw [hts] at hreads
    obtain ⟨items, hitems⟩ := exists_array_of_reads hreads hjson
    exact hhead t rfl items hitems

theorem streamValues_lineText (hparse : ∀ t ∈ texts, Json.parse t.toList = .ok (value t))
    (hhead : ∀ t ∈ texts.head?, ∀ items, value t ≠ .array items) :
    streamValues (lineText texts).toList = .ok (texts.map value) := by
  have hvalue : ∀ t ∈ texts, IsValue t.toList := fun t ht => (isValue_of_parse (hparse t ht)).1
  rw [streamValues, isArrayText_lineText hparse hhead, if_neg Bool.false_ne_true,
    tokens_lineText hvalue]
  exact valuesOfTokens_flatMap (fun t ht => (hvalue t ht).reads)
    fun t ht => (isValue_of_parse (hparse t ht)).2

/-! ### Records -/

theorem convertFrom_of_forall₂ {values : List Json} {records : List Record}
    (h : List.Forall₂ (fun v r => Record.ofJson v = .ok r) values records) (index : Nat) :
    convertFrom index values = .ok records := by
  induction h generalizing index with
  | nil => rfl
  | cons hv _ ih =>
    rw [convertFrom, hv]
    dsimp only
    rw [ih]
    rfl

/-- Values are counted up to the first that is no record. -/
theorem convertFrom_append_cons {before : List Json} {v : Json} {e : RecordError}
    (hbefore : ∀ b ∈ before, ∃ r, Record.ofJson b = .ok r) (hv : Record.ofJson v = .error e)
    (after : List Json) (index : Nat) :
    convertFrom index (before ++ v :: after) =
      .error (.invalidRecord (index + before.length) e) := by
  induction before generalizing index with
  | nil =>
    rw [List.nil_append, convertFrom, hv]
    rfl
  | cons b before ih =>
    obtain ⟨r, hr⟩ := hbefore b List.mem_cons_self
    have hmore := ih (fun b hb => hbefore b (List.mem_cons_of_mem _ hb)) (index + 1)
    rw [List.cons_append, convertFrom, hr]
    dsimp only
    rw [hmore, List.length_cons, Nat.add_right_comm, Nat.add_assoc index]
    rfl

/-- Values are all records, or there is a first one that is none. -/
theorem records_or_first_failure (values : List Json) :
    (∃ records, List.Forall₂ (fun v r => Record.ofJson v = .ok r) values records) ∨
      ∃ before v after e, values = before ++ v :: after ∧
        (∀ b ∈ before, ∃ r, Record.ofJson b = .ok r) ∧ Record.ofJson v = .error e := by
  induction values with
  | nil => exact .inl ⟨[], .nil⟩
  | cons v values ih =>
    cases hv : Record.ofJson v with
    | error e => exact .inr ⟨[], v, values, e, rfl, by simp, hv⟩
    | ok r =>
      obtain ⟨records, hrecords⟩ | ⟨before, w, after, e, rfl, hbefore, hw⟩ := ih
      · exact .inl ⟨r :: records, .cons hv hrecords⟩
      · refine .inr ⟨v :: before, w, after, e, rfl, ?_, hw⟩
        exact List.forall_mem_cons.mpr ⟨⟨r, hv⟩, hbefore⟩

/-- What a stream of texts comes to: a record for each text, or a complaint about the first text
that is no record. -/
inductive StreamOutcome : List String → Except StreamError (List Record) → Prop where
  | records {texts : List String} {records : List Record}
      (h : List.Forall₂ (fun t r => ∃ v, Json.parse t.toList = .ok v ∧ Record.ofJson v = .ok r)
        texts records) :
      StreamOutcome texts (.ok records)
  | invalid {before : List String} {t : String} {v : Json} {e : RecordError}
      (hbefore : ∀ s ∈ before, ∃ v r, Json.parse s.toList = .ok v ∧ Record.ofJson v = .ok r)
      (hparse : Json.parse t.toList = .ok v) (he : Record.ofJson v = .error e)
      (after : List String) :
      StreamOutcome (before ++ t :: after) (.error (.invalidRecord (before.length + 1) e))

theorem streamOutcome_convertFrom (hparse : ∀ t ∈ texts, Json.parse t.toList = .ok (value t)) :
    StreamOutcome texts (convertFrom 1 (texts.map value)) := by
  obtain ⟨records, hrecords⟩ | ⟨before, v, after, e, hvalues, hbefore, hv⟩ :=
    records_or_first_failure (texts.map value)
  · rw [convertFrom_of_forall₂ hrecords]
    rw [List.forall₂_map_left_iff] at hrecords
    exact .records (forall₂_imp_of_mem hrecords fun t ht r hr => ⟨value t, hparse t ht, hr⟩)
  · obtain ⟨before, rest, rfl, rfl, hrest⟩ := List.map_eq_append_iff.mp hvalues
    obtain ⟨t, after, rfl, rfl, rfl⟩ := List.map_eq_cons_iff.mp hrest
    rw [hvalues, convertFrom_append_cons hbefore hv, Nat.add_comm, List.length_map]
    refine .invalid (fun s hs => ?_) (hparse t (by simp)) hv after
    obtain ⟨r, hr⟩ := hbefore (value s) (List.mem_map_of_mem hs)
    exact ⟨value s, r, hparse s (List.mem_append_left _ hs), hr⟩

/-- Texts of values are the same stream in one array and one a line, if the array leaves room for
their nesting and the first of them is no array itself. -/
theorem readStream_array_eq_lines (hparse : ∀ t ∈ texts, ∃ v, Json.parse t.toList = .ok v)
    (hnesting : ∀ t ∈ texts, nesting t.toList < Outline.maxDepth)
    (hhead : ∀ t ∈ texts.head?, ∀ items, Json.parse t.toList ≠ .ok (.array items)) :
    readStream (arrayText texts).toList = readStream (lineText texts).toList ∧
    ofContent (.file (arrayText texts).toUTF8) = ofContent (.file (lineText texts).toUTF8) ∧
    StreamOutcome texts (readStream (lineText texts).toList) := by
  have : Nonempty Json := ⟨.null⟩
  choose! value hvalue using hparse
  have harray := streamValues_arrayText hvalue hnesting
  have hlines : streamValues (lineText texts).toList = .ok (texts.map value) := by
    refine streamValues_lineText hvalue fun t ht items hitems => hhead t ht items ?_
    rw [hvalue t (List.mem_of_mem_head? ht), hitems]
  have heq : readStream (arrayText texts).toList = readStream (lineText texts).toList := by
    rw [readStream, readStream, harray, hlines]
  refine ⟨heq, ?_, ?_⟩
  · rw [ofContent_toUTF8, ofContent_toUTF8, heq]
  · rw [readStream, hlines]
    exact streamOutcome_convertFrom hvalue

end Record

/-! ### A stream to try the law on -/

/-- Texts of values with a mark in a string, and with a number among them that only what follows it
ends. -/
def Sample.texts : List String :=
  ["\x7b\"n\": \"]\" \x7d", " -12", "[\n[true]]"]

/-- Whether an array was read. -/
def Sample.isArray : Except Json.Error Json → Bool
  | .ok (.array _) => true
  | _ => false

theorem Record.readStream_array_eq_texts :
    readStream (arrayText Sample.texts).toList = .error (.invalidRecord 2 .notAnObject) := by
  have hok : ∀ t ∈ Sample.texts, (Json.parse t.toList).isOk = true := by decide +kernel
  have hparse : ∀ t ∈ Sample.texts, ∃ v, Json.parse t.toList = .ok v := by
    intro t ht
    have ht := hok t ht
    cases hv : Json.parse t.toList with
    | error e =>
      rw [hv] at ht
      cases ht
    | ok v => exact ⟨v, rfl⟩
  have hnesting : ∀ t ∈ Sample.texts, Json.nesting t.toList < Json.Outline.maxDepth := by
    decide +kernel
  have hhead : ∀ t ∈ Sample.texts.head?, ∀ items, Json.parse t.toList ≠ .ok (.array items) := by
    have hobject : ∀ t ∈ Sample.texts.head?, Sample.isArray (Json.parse t.toList) = false := by
      decide +kernel
    intro t ht items hitems
    have ht := hobject t ht
    rw [hitems] at ht
    cases ht
  rw [(readStream_array_eq_lines hparse hnesting hhead).1]
  decide +kernel

end TaggedUnion
