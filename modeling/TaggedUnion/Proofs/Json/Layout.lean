import TaggedUnion.Proofs.Json.Floats

/-!
# Tokens of written trees

`Tree.tokens` are the tokens that stand for a tree.  Both layouts of the tree as JSON text are cut
into these tokens, whatever follows the text (`Tree.tokens_compactChars`,
`Tree.tokens_prettyChars`), and on one line there is no line break among the characters
(`Tree.newline_not_mem_compactChars`).  The laws go by induction over trees (`Tree.nested`).
-/

namespace TaggedUnion

namespace Tree

open Json

/-! ### Tokens of trees -/

/-- Induction over trees, through the lists in them. -/
@[elab_as_elim]
theorem nested {P : Tree → Prop} (null : P .null) (bool : ∀ b, P (.bool b))
    (int : ∀ i, P (.int i)) (float : ∀ x, P (.float x)) (string : ∀ s, P (.string s))
    (list : ∀ items, (∀ t ∈ items, P t) → P (.list items))
    (map : ∀ entries, (∀ e ∈ entries, P e.2) → P (.map entries)) (t : Tree) : P t :=
  @Tree.rec P (fun items => ∀ t ∈ items, P t) (fun entries => ∀ e ∈ entries, P e.2)
    (fun e => P e.2) null bool int float string list map (by simp) (by simp +contextual) (by simp)
    (by simp +contextual) (by simp) t

mutual

/-- The tokens that stand for a tree. -/
def tokens : Tree → List Token
  | .null => [.null]
  | .bool b => [.bool b]
  | .int i => [.number (.ofInt i)]
  | .float x => Json.tokens (jsonNumber x)
  | .string s => [.string (some s)]
  | .list items => .openArray :: (itemTokens items).tail ++ [.closeArray]
  | .map entries => .openObject :: (entryTokens entries).tail ++ [.closeObject]

/-- The tokens of items, with a comma before each. -/
def itemTokens : List Tree → List Token
  | [] => []
  | item :: rest => .comma :: tokens item ++ itemTokens rest

/-- The tokens of entries, with a comma before each. -/
def entryTokens : List (String × Tree) → List Token
  | [] => []
  | (name, value) :: rest =>
    .comma :: .string (some name) :: .colon :: tokens value ++ entryTokens rest

end

/-- The tokens of an entry. -/
def memberTokens (e : String × Tree) : List Token :=
  .string (some e.1) :: .colon :: e.2.tokens

theorem itemTokens_eq_flatMap (items : List Tree) :
    itemTokens items = items.flatMap fun t => .comma :: t.tokens := by
  induction items with
  | nil => rfl
  | cons item rest ih => rw [itemTokens, ih, List.flatMap_cons]

theorem entryTokens_eq_flatMap (entries : List (String × Tree)) :
    entryTokens entries = entries.flatMap fun e => .comma :: memberTokens e := by
  induction entries with
  | nil => rfl
  | cons entry rest ih =>
    rw [entryTokens, ih, List.flatMap_cons]
    rfl

/-! ### Lists with commas -/

/-- The text is cut into the tokens, whatever follows that does not go on with a word. -/
def Cuts (text : List Char) (ts : List Token) : Prop :=
  ∀ rest, endsWord rest = true → Json.tokens (text ++ rest) = ts ++ Json.tokens rest

theorem Cuts.tokens_eq {text : List Char} {ts : List Token} (h : Cuts text ts) :
    Json.tokens text = ts := by
  have hnil := h [] rfl
  rwa [List.append_nil, tokens_nil, List.append_nil] at hnil

section Joined

variable {α : Type} {write : α → List Char} {writeAll : List α → List Char}

/-- What puts commas between texts joins them with commas. -/
theorem eq_intercalate (hnil : writeAll [] = []) (hone : ∀ a, writeAll [a] = write a)
    (hcons : ∀ a b more, writeAll (a :: b :: more) = write a ++ ',' :: writeAll (b :: more))
    (as : List α) : writeAll as = [','].intercalate (as.map write) := by
  induction as with
  | nil => exact hnil
  | cons a more ih =>
    cases more with
    | nil => rw [hone, List.map_singleton, List.intercalate_singleton]
    | cons b more =>
      simp only [hcons, ih, List.map_cons, List.intercalate_cons_cons, List.append_assoc,
        List.singleton_append]

/-- Texts joined with commas are cut into the tokens of each, with commas between them. -/
theorem cuts_intercalate {ts : α → List Token} {as : List α}
    (h : ∀ a ∈ as, Cuts (write a) (ts a)) :
    Cuts ([','].intercalate (as.map write)) (as.flatMap fun a => .comma :: ts a).tail := by
  induction as with
  | nil => exact fun rest _ => rfl
  | cons a more ih =>
    intro rest hrest
    have ha := h a List.mem_cons_self
    cases more with
    | nil =>
      rw [List.map_singleton, List.intercalate_singleton, ha rest hrest, List.flatMap_singleton,
        List.tail_cons]
    | cons b more =>
      -- The comma ends whatever word the first text ends with.
      have hmore := ih (fun c hc => h c (List.mem_cons_of_mem _ hc)) rest hrest
      rw [List.map_cons, List.map_cons, List.intercalate_cons_cons, ← List.map_cons,
        List.append_assoc, List.append_assoc, ha _ rfl, List.singleton_append, tokens_comma, hmore]
      simp only [List.flatMap_cons, List.cons_append, List.tail_cons, List.append_assoc]

theorem newline_not_mem_intercalate {as : List α} (h : ∀ a ∈ as, '\n' ∉ write a) :
    '\n' ∉ [','].intercalate (as.map write) := by
  induction as with
  | nil => simp
  | cons a more ih =>
    have ha := h a List.mem_cons_self
    cases more with
    | nil => rwa [List.map_singleton, List.intercalate_singleton]
    | cons b more =>
      have hmore := ih fun c hc => h c (List.mem_cons_of_mem _ hc)
      rw [List.map_cons] at hmore
      rw [List.map_cons, List.map_cons, List.intercalate_cons_cons]
      simp [ha, hmore]

end Joined

/-! ### Layouts -/

def compactEntry (e : String × Tree) : List Char :=
  jsonString e.1 ++ ':' :: compactChars e.2

def prettyItem (level : Nat) (t : Tree) : List Char :=
  newLine level ++ prettyChars level t

def prettyEntry (level : Nat) (e : String × Tree) : List Char :=
  newLine level ++ jsonString e.1 ++ ':' :: ' ' :: prettyChars level e.2

theorem compactItems_eq (items : List Tree) :
    compactItems items = [','].intercalate (items.map compactChars) :=
  eq_intercalate rfl (fun _ => rfl) (fun _ _ _ => rfl) items

theorem compactEntries_eq (entries : List (String × Tree)) :
    compactEntries entries = [','].intercalate (entries.map compactEntry) :=
  eq_intercalate rfl (fun _ => rfl) (fun _ _ _ => rfl) entries

theorem prettyItems_eq (level : Nat) (items : List Tree) :
    prettyItems level items = [','].intercalate (items.map (prettyItem level)) :=
  eq_intercalate rfl (fun _ => rfl) (fun _ _ _ => rfl) items

theorem prettyEntries_eq (level : Nat) (entries : List (String × Tree)) :
    prettyEntries level entries = [','].intercalate (entries.map (prettyEntry level)) :=
  eq_intercalate rfl (fun _ => rfl) (fun _ _ _ => rfl) entries

theorem exists_token_jsonNumber (x : Binary64) :
    ∃ t, (t = .null ∨ ∃ n, t = .number n) ∧ Cuts (jsonNumber x) [t] := by
  rcases exists_jsonNumber x with h | ⟨n, hn, h⟩
  · refine ⟨.null, .inl rfl, fun rest hrest => ?_⟩
    rw [h]
    exact tokens_null hrest
  · refine ⟨.number n, .inr ⟨n, rfl⟩, fun rest hrest => ?_⟩
    rw [h]
    exact tokens_numeral hn hrest

theorem cuts_jsonNumber (x : Binary64) : Cuts (jsonNumber x) (Json.tokens (jsonNumber x)) := by
  obtain ⟨t, -, ht⟩ := exists_token_jsonNumber x
  rwa [ht.tokens_eq]

/-- A tree on one line is cut into its tokens. -/
theorem tokens_compactChars (t : Tree) : Cuts t.compactChars t.tokens := by
  induction t using nested with
  | null => exact fun rest hrest => tokens_null hrest
  | bool b => exact fun rest hrest => tokens_bool b hrest
  | int i => exact fun rest hrest => tokens_ofInt i hrest
  | float x => exact cuts_jsonNumber x
  | string s => exact fun rest _ => tokens_jsonString s rest
  | list items ih =>
    intro rest _
    have hitems := cuts_intercalate ih (']' :: rest) rfl
    rw [compactChars, compactItems_eq, tokens, itemTokens_eq_flatMap]
    simp only [List.cons_append, List.append_assoc, List.nil_append, tokens_openArray, hitems,
      tokens_closeArray]
  | map entries ih =>
    intro rest _
    have hentry : ∀ e ∈ entries, Cuts (compactEntry e) (memberTokens e) := by
      intro e he rest hrest
      rw [compactEntry, List.append_assoc, tokens_jsonString, List.cons_append, tokens_colon,
        ih e he rest hrest]
      rfl
    have hentries := cuts_intercalate hentry ('\x7d' :: rest) rfl
    rw [compactChars, compactEntries_eq, tokens, entryTokens_eq_flatMap]
    simp only [List.cons_append, List.append_assoc, List.nil_append, tokens_openObject, hentries,
      tokens_closeObject]

/-- A tree over several lines is cut into the same tokens, at any level. -/
theorem tokens_prettyChars (t : Tree) (level : Nat) : Cuts (t.prettyChars level) t.tokens := by
  induction t using nested generalizing level with
  | null => exact fun rest hrest => tokens_null hrest
  | bool b => exact fun rest hrest => tokens_bool b hrest
  | int i => exact fun rest hrest => tokens_ofInt i hrest
  | float x => exact cuts_jsonNumber x
  | string s => exact fun rest _ => tokens_jsonString s rest
  | list items ih =>
    intro rest _
    have hitem : ∀ t ∈ items, Cuts (prettyItem (level + 1) t) t.tokens := by
      intro t ht rest hrest
      rw [prettyItem, List.append_assoc, tokens_newLine, ih t ht (level + 1) rest hrest]
    have hitems := cuts_intercalate hitem (newLine level ++ ']' :: rest) rfl
    -- Only a list without items is written without line breaks.
    cases items with
    | nil => simp [prettyChars, tokens, itemTokens]
    | cons item items =>
      rw [prettyChars, prettyItems_eq, tokens, itemTokens_eq_flatMap]
      simp only [List.cons_append, List.append_assoc, List.nil_append, tokens_openArray, hitems,
        tokens_newLine, tokens_closeArray]
  | map entries ih =>
    intro rest _
    have hentry : ∀ e ∈ entries, Cuts (prettyEntry (level + 1) e) (memberTokens e) := by
      intro e he rest hrest
      rw [prettyEntry, List.append_assoc, List.append_assoc, tokens_newLine, tokens_jsonString,
        List.cons_append, tokens_colon, List.cons_append, tokens_space,
        ih e he (level + 1) rest hrest]
      rfl
    have hentries := cuts_intercalate hentry (newLine level ++ '\x7d' :: rest) rfl
    cases entries with
    | nil => simp [prettyChars, tokens, entryTokens]
    | cons entry entries =>
      rw [prettyChars, prettyEntries_eq, tokens, entryTokens_eq_flatMap]
      simp only [List.cons_append, List.append_assoc, List.nil_append, tokens_openObject, hentries,
        tokens_newLine, tokens_closeObject]

/-! ### One line -/

theorem newline_not_mem_digits {digits : List Char} (h : IsDigits digits) : '\n' ∉ digits :=
  fun hmem => absurd (h.isDigit _ hmem) (by decide)

theorem newline_not_mem_chars {n : Numeral} (h : n.Proper) : '\n' ∉ n.chars := by
  have hfraction : '\n' ∉ Numeral.fractionChars n.fraction := by
    cases hn : n.fraction with
    | none => exact List.not_mem_nil
    | some digits =>
      rw [Numeral.fractionChars, List.mem_cons, not_or]
      exact ⟨by decide, newline_not_mem_digits (h.fraction digits hn)⟩
  have hexponent : '\n' ∉ Numeral.exponentChars n.exponent := by
    cases hn : n.exponent with
    | none => exact List.not_mem_nil
    | some e =>
      have hsign : '\n' ≠ if e.negative then '-' else '+' := by split_ifs <;> decide
      simp [Numeral.exponentChars, hsign, newline_not_mem_digits (h.exponent e hn)]
  have hunsigned : '\n' ∉ n.unsignedChars := by
    simp [Numeral.unsignedChars, newline_not_mem_digits h.whole, hfraction, hexponent]
  rw [Numeral.chars]
  split_ifs <;> simp [hunsigned]

theorem newline_ne_digitChar {d : Nat} (h : d < 16) : '\n' ≠ Nat.digitChar d := by
  intro heq
  have hd := hexValue?_digitChar h
  rw [← heq] at hd
  cases hd

theorem newline_not_mem_jsonChar (c : Char) : '\n' ∉ jsonChar c := by
  unfold jsonChar
  split_ifs with hquote hbackslash hb ht hn hf hr hcontrol
  -- What is left is an escape by number, and a character written as it is.
  rotate_left 7
  · have hhigh := newline_ne_digitChar (d := c.toNat / 16) (by omega)
    have hlow := newline_ne_digitChar (d := c.toNat % 16) (by omega)
    simp [hhigh, hlow]
  · simpa using Ne.symm hn
  all_goals decide

theorem newline_not_mem_jsonString (s : String) : '\n' ∉ jsonString s := by
  simp [jsonString, newline_not_mem_jsonChar]

/-- A tree on one line has no line break, whatever its texts hold. -/
theorem newline_not_mem_compactChars (t : Tree) : '\n' ∉ t.compactChars := by
  induction t using nested with
  | null => decide
  | bool b => cases b <;> decide
  | int i =>
    rw [compactChars, ← Numeral.chars_ofInt]
    exact newline_not_mem_chars (Numeral.proper_ofInt i)
  | float x =>
    rw [compactChars]
    rcases exists_jsonNumber x with h | ⟨n, hn, h⟩
    · rw [h]
      decide
    · rw [h]
      exact newline_not_mem_chars hn
  | string s => exact newline_not_mem_jsonString s
  | list items ih =>
    rw [compactChars, compactItems_eq]
    simp [newline_not_mem_intercalate ih]
  | map entries ih =>
    have hentry : ∀ e ∈ entries, '\n' ∉ compactEntry e := by
      intro e he
      simp [compactEntry, newline_not_mem_jsonString, ih e he]
    rw [compactChars, compactEntries_eq]
    simp [newline_not_mem_intercalate hentry]

end Tree

end TaggedUnion
