import TaggedUnion.Command
import TaggedUnion.Proofs.Except
import TaggedUnion.Proofs.Json.Outline
import TaggedUnion.Proofs.RecordJson

/-!
# Records survive their lines

A record without floating-point numbers (`Record.Whole`) is read back from its compact JSON text:

* an integer of 64 bits is written as a numeral that stands for it (`Json.readNumber_ofInt64`), from
  the least integer on;
* its outline is read as the JSON value of the record (`Record.json_outline`), with the fields in
  order since their names are distinct;
* that JSON value is taken for the record (`Record.ofJson_toJson_of_whole`).

A stream is read value by value (`Record.valuesOfTokens_of_reads`).  Lines of records are a stream
and not an array, and each line is the tokens of its record (`Record.tokens_lines`), whatever marks
or line breaks its texts hold.
-/

namespace TaggedUnion

open Json

/-! ### Integers -/

namespace Json

theorem integer?_ofInt_natCast (n : Nat) :
    (Numeral.ofInt n).integer? = Number.ofNat? n := by
  show Number.ofNat? (Decimal.toNat (Decimal.ofNat n)) = _
  rw [Decimal.toNat_ofNat]

theorem integer?_ofInt_negSucc (n : Nat) :
    (Numeral.ofInt (.negSucc n)).integer? = Number.ofNegNat? (n + 1) := by
  show Number.ofNegNat? (Decimal.toNat (Decimal.ofNat (n + 1))) = _
  rw [Decimal.toNat_ofNat]

/-- The numeral of an integer has neither fraction nor exponent. -/
theorem readNumber_ofInt {i : Int} {n : Number} (h : (Numeral.ofInt i).integer? = some n) :
    Outline.readNumber (.ofInt i) = .ok n := by
  have hnumber : (Numeral.ofInt i).number? = some n := by
    cases i <;> (unfold Numeral.number? Numeral.ofInt at *; simp only [h, Option.some_or])
  rw [Outline.readNumber, hnumber]

theorem ofNat?_toNat (n : UInt64) : Number.ofNat? n.toNat = some (.natural n) := by
  rw [Number.ofNat?, if_pos n.toNat_lt, Nat.toUInt64_eq, UInt64.ofNat_toNat]

theorem ofNegNat?_of_toInt {i : Int64} {n : Nat} (h : i < 0) (hn : i.toInt = -n) :
    Number.ofNegNat? n = some (.negative i h) := by
  have hi : Int64.ofInt (-n) = i := by rw [← hn, Int64.ofInt_toInt]
  have hle : n ≤ Nat.pow 2 63 := by
    have := i.le_toInt
    rw [hn] at this
    show n ≤ 2 ^ 63
    omega
  unfold Number.ofNegNat?
  simp only [hi, dif_pos h, if_pos hle]

theorem toTree_ofInt64 (i : Int64) : (Number.ofInt64 i).toTree = .int i.toInt := by
  by_cases h : i < 0
  · rw [ofInt64_of_neg h, Number.toTree]
  · rw [ofInt64_of_nonneg h, Number.toTree, toNat_toUInt64 h]

/-- Every integer of 64 bits is read from its numeral, the least one included. -/
theorem readNumber_ofInt64 (i : Int64) :
    Outline.readNumber (.ofInt i.toInt) = .ok (.ofInt64 i) := by
  apply readNumber_ofInt
  by_cases h : i < 0
  · -- The digits are gathered before the sign is applied, so the least integer fits too.
    have hneg : i.toInt < 0 := by rwa [Int64.lt_iff_toInt_lt, Int64.toInt_zero] at h
    obtain ⟨n, hn⟩ := Int.eq_negSucc_of_lt_zero hneg
    rw [hn, integer?_ofInt_negSucc, ofInt64_of_neg h]
    exact ofNegNat?_of_toInt h (by rw [hn, Int.negSucc_eq]; push_cast; rfl)
  · rw [← toNat_toUInt64 h, integer?_ofInt_natCast, ofInt64_of_nonneg h]
    exact ofNat?_toNat _

end Json

/-! ### Scalars -/

namespace Scalar

variable {s : Scalar}

theorem json_outline (h : s.kind ≠ .float) (room : Nat) :
    s.toJson.toTree.outline.json room = .ok s.toJson := by
  cases s with
  | null => rfl
  | bool b => rfl
  | int i =>
    show (Number.ofInt64 i).toTree.outline.json room = _
    rw [toTree_ofInt64, Tree.outline, Outline.json, readNumber_ofInt64]
    rfl
  | float x => exact absurd rfl h
  | string s => rfl

/-- JSON has no word for NaN and the infinities, so it does not matter whether they are replaced by
null before they are written. -/
theorem compactChars_toTree (s : Scalar) :
    s.toTree.compactChars = s.toJson.toTree.compactChars := by
  cases s with
  | int i =>
    show (Tree.int i.toInt).compactChars = (Number.ofInt64 i).toTree.compactChars
    rw [toTree_ofInt64]
  | float x =>
    rw [toJson, Number.ofFloat?]
    by_cases h : x.isFinite
    · rw [dif_pos h]
      rfl
    · rw [dif_neg h]
      show Tree.jsonNumber x = "null".toList
      rw [Tree.jsonNumber, if_neg h]
  | _ => rfl

end Scalar

/-! ### Records -/

namespace Record

/-- No field holds a floating-point number. -/
def Whole (r : Record) : Prop :=
  ∀ e ∈ r.entries, e.2.kind ≠ .float

variable {r : Record}

theorem memberTrees_eq_map (members : List (String × Json)) :
    memberTrees members = members.map fun m => (m.1, m.2.toTree) := by
  induction members with
  | nil => rfl
  | cons m members ih => rw [memberTrees, ih, List.map_cons]

theorem toTree_toJson (r : Record) :
    r.toJson.toTree = .map (r.entries.map fun e => (e.1, e.2.toJson.toTree)) := by
  rw [toJson, Json.toTree, memberTrees_eq_map, List.map_map]
  rfl

theorem compactChars_toTree (r : Record) :
    r.toTree.compactChars = r.toJson.toTree.compactChars := by
  have hentries : r.entries.map (Tree.compactEntry ∘ fun e => (e.1, e.2.toTree)) =
      r.entries.map (Tree.compactEntry ∘ fun e => (e.1, e.2.toJson.toTree)) := by
    apply List.map_congr_left
    rintro ⟨name, s⟩ -
    show Tree.jsonString name ++ ':' :: s.toTree.compactChars =
      Tree.jsonString name ++ ':' :: s.toJson.toTree.compactChars
    rw [s.compactChars_toTree]
  rw [toTree_toJson, toTree, Tree.compactChars, Tree.compactChars, Tree.compactEntries_eq,
    Tree.compactEntries_eq, List.map_map, List.map_map]
  exact congrArg (fun texts => '\x7b' :: [','].intercalate texts ++ ['\x7d']) hentries

theorem insertAll_members (r : Record) :
    Entries.insertAll [] (r.entries.map fun e => (e.1, e.2.toJson)) =
      r.entries.map fun e => (e.1, e.2.toJson) := by
  have hkeys : Entries.keys (r.entries.map fun e => (e.1, e.2.toJson)) = r.keys :=
    Entries.keys_map Prod.fst _ r.entries
  exact @Entries.insertAll_of_disjoint Json [] _ (hkeys ▸ r.nodup)

/-- The outline of a record is read as its JSON value. -/
theorem json_outline (h : r.Whole) (room : Nat) :
    r.toJson.toTree.outline.json (room + 1) = .ok r.toJson := by
  have hmembers : List.Forall₂ (Outline.ReadAs room)
      (r.entries.map fun e => (some e.1, e.2.toJson.toTree.outline))
      (r.entries.map fun e => (e.1, e.2.toJson)) := by
    rw [List.forall₂_map_left_iff, List.forall₂_map_right_iff, List.forall₂_same]
    exact fun e he => ⟨rfl, Scalar.json_outline (h e he) room⟩
  rw [toTree_toJson, Tree.outline, Tree.entryOutlines_eq_map, List.map_map, toJson,
    ← insertAll_members]
  exact Outline.json_object hmembers

/-- Nothing of a record without floating-point numbers is lost. -/
theorem ofJson_toJson_of_whole (h : r.Whole) : Record.ofJson r.toJson = .ok r := by
  have hstorable : r.storable = r := by
    rw [storable_eq_self_iff]
    exact fun _ _ hmem => absurd rfl (h _ hmem)
  rw [ofJson_toJson, hstorable]

/-! ### Streams -/

theorem valuesOfTokens_of_reads {ts rest : List Token} {o : Outline} {value : Json}
    {values : List Json} (h : Outline.Reads ts o rest)
    (hvalue : o.json Outline.maxDepth = .ok value) (hrest : valuesOfTokens rest = .ok values) :
    valuesOfTokens ts = .ok (value :: values) := by
  obtain ⟨-, hreads⟩ := h
  rw [valuesOfTokens, hreads]
  exact bind_eq_ok_iff.mpr ⟨value, hvalue, bind_eq_ok_iff.mpr ⟨values, hrest, rfl⟩⟩

/-- Values one after the other are read one after the other. -/
theorem valuesOfTokens_flatMap {α : Type} {as : List α} {ts : α → List Token}
    {outline : α → Outline} {value : α → Json}
    (hreads : ∀ a ∈ as, ∀ rest, Outline.Reads (ts a ++ rest) (outline a) rest)
    (hvalue : ∀ a ∈ as, (outline a).json Outline.maxDepth = .ok (value a)) :
    valuesOfTokens (as.flatMap ts) = .ok (as.map value) := by
  induction as with
  | nil => rw [List.flatMap_nil, valuesOfTokens, List.map_nil]
  | cons a as ih =>
    have hmore := ih (fun b hb => hreads b (List.mem_cons_of_mem _ hb))
      fun b hb => hvalue b (List.mem_cons_of_mem _ hb)
    rw [List.flatMap_cons]
    exact valuesOfTokens_of_reads (hreads a List.mem_cons_self _) (hvalue a List.mem_cons_self)
      hmore

/-- The text of records, one a line. -/
def lines (records : List Record) : String :=
  unlines (records.map fun r => r.toJson.toTree.compact)

theorem toList_lines_cons (r : Record) (records : List Record) :
    (lines (r :: records)).toList =
      r.toJson.toTree.compactChars ++ '\n' :: (lines records).toList := by
  rw [lines, List.map_cons, unlines, String.toList_append, String.toList_append, Tree.compact,
    String.toList_ofList, List.append_assoc]
  rfl

variable {records : List Record}

theorem tokens_lines (records : List Record) :
    tokens (lines records).toList = records.flatMap fun r => r.toJson.toTree.tokens := by
  induction records with
  | nil => exact tokens_nil
  | cons r records ih =>
    rw [toList_lines_cons, Tree.tokens_compactChars _ _ rfl, tokens_newline, ih, List.flatMap_cons]

/-- The lines of records start with a record, which is no array. -/
theorem isArrayText_lines (records : List Record) : isArrayText (lines records).toList = false := by
  cases records with
  | nil => rfl
  | cons r records =>
    rw [toList_lines_cons, toTree_toJson, Tree.compactChars]
    rfl

theorem convertFrom_map_toJson (h : ∀ r ∈ records, r.Whole) (index : Nat) :
    convertFrom index (records.map Record.toJson) = .ok records := by
  induction records generalizing index with
  | nil => rfl
  | cons r records ih =>
    rw [List.map_cons, convertFrom, ofJson_toJson_of_whole (h r List.mem_cons_self)]
    dsimp only
    rw [ih fun s hs => h s (List.mem_cons_of_mem _ hs)]
    rfl

theorem readStream_of_whole (h : ∀ r ∈ records, r.Whole) :
    readStream (lines records).toList = .ok records := by
  have hvalues : valuesOfTokens (records.flatMap fun r => r.toJson.toTree.tokens) =
      .ok (records.map Record.toJson) :=
    valuesOfTokens_flatMap (fun r _ => r.toJson.toTree.reads_tokens)
      fun r hr => json_outline (h r hr) _
  rw [readStream, streamValues, isArrayText_lines, tokens_lines, if_neg Bool.false_ne_true,
    hvalues]
  exact convertFrom_map_toJson h 1

/-- The bytes of a text are read as the text. -/
theorem ofContent_toUTF8 (text : String) :
    ofContent (.file text.toUTF8) = (readStream text.toList).mapError .ofStream := by
  rw [ofContent, Content.text_toUTF8]
  rfl

/-- Records written one a line are read back, from the text and from its bytes. -/
theorem readStream_lines (h : ∀ r ∈ records, ∀ e ∈ r.entries, e.2.kind ≠ .float) :
    readStream (unlines (records.map fun r => r.toJson.toTree.compact)).toList = .ok records ∧
    ofContent (.file (unlines (records.map fun r => r.toJson.toTree.compact)).toUTF8) =
      .ok records := by
  have hread : readStream (lines records).toList = .ok records := readStream_of_whole h
  exact ⟨hread, (ofContent_toUTF8 _).trans (mapError_eq_ok_iff.mpr hread)⟩

end Record

/-! ### Lines to try the law on -/

/-- Records with marks, quotes and line breaks in their names and texts, and the least integer. -/
def Sample.awkward : List Record :=
  [⟨[("[", .string "\x7b\n]\"\\"), ("", .null), ("n", .int Int64.minValue)], by decide⟩,
    .empty, ⟨[("\n", .int 0), ("a\x00\u2028", .bool false)], by decide⟩]

theorem Record.readStream_awkward :
    (∀ r ∈ Sample.awkward, ∀ e ∈ r.entries, e.2.kind ≠ .float) ∧
    readStream (unlines (Sample.awkward.map fun r => r.toJson.toTree.compact)).toList =
      .ok Sample.awkward := by
  have hwhole : ∀ r ∈ Sample.awkward, ∀ e ∈ r.entries, e.2.kind ≠ .float := by decide
  exact ⟨hwhole, (readStream_lines hwhole).1⟩

end TaggedUnion
