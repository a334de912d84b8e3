import TaggedUnion.Json.Outline
import TaggedUnion.Proofs.Json.Layout

/-!
# Outlines of written text

`Tree.outline` is the outline of a tree that is written without fault.  The tokens of a tree are
read as its outline, and the tokens behind them are left (`Tree.reads_tokens`).  So the compact and
the indented text of a tree have the same outline and leave nothing behind
(`Tree.ofTokens_compactChars`, `Tree.ofTokens_prettyChars`).

The scans return what is left together with a bound on its length.  `Outline.Reads` and
`Outline.parts` forget the bound, and each scan has one law that says how it goes on behind a value
(`Outline.parts_items`, `Outline.parts_moreItems`, `Outline.reads_object`,
`Outline.parts_moreMembers`).  Whole arrays and objects follow by induction
(`Outline.reads_array_flatMap`, `Outline.reads_object_flatMap`).
-/

namespace TaggedUnion

namespace Json.Outline

/-! ### Values one after the other -/

/-- The tokens start with those of a value, and these are left behind it. -/
inductive Reads : List Token → Outline → List Token → Prop where
  | intro {t : Token} {ts : List Token} {o : Outline} {rest : Rest ts} :
    t ≠ .closeArray → value t ts = (o, rest) → Reads (t :: ts) o rest.val

/-- Items or members, how they end, and what is left. -/
def parts {α : Type} {ts : List Token} (p : List α × Ending × Rest ts) :
    List α × Ending × List Token :=
  (p.1, p.2.1, p.2.2.val)

variable {t : Token} {ts rest after : List Token} {o : Outline} {os : List Outline}
  {ms : List (Option String × Outline)} {e : Ending} {key : Option String}

theorem reads_of_value (ht : t ≠ .closeArray) (ho : (value t ts).1 = o)
    (hrest : (value t ts).2.val = rest) : Reads (t :: ts) o rest := by
  subst ho hrest
  exact .intro ht rfl

/-- A value of one token leaves everything behind it. -/
theorem reads_single (ht : t ≠ .closeArray) (h : value t ts = (o, ⟨ts, Nat.le_refl _⟩)) :
    Reads (t :: ts) o ts :=
  .intro ht h

theorem Reads.ofTokens_eq (h : Reads ts o rest) : ofTokens ts = (o, rest) := by
  obtain ⟨-, hvalue⟩ := h
  rw [ofTokens, hvalue]

theorem parts_moreItems (h : Reads ts o rest) (hmore : parts (moreItems rest) = (os, e, after)) :
    parts (moreItems (.comma :: ts)) = (o :: os, e, after) := by
  obtain ⟨ht, hvalue⟩ := h
  obtain ⟨rfl, rfl, rfl⟩ := hmore
  rw [moreItems, hvalue]
  · rfl
  · -- A comma before the closing mark is a fault, but no value starts with that mark.
    rintro rfl
    exact ht rfl

theorem parts_moreItems_close (rest : List Token) :
    parts (moreItems (.closeArray :: rest)) = ([], .closed, rest) := by
  rw [moreItems]
  rfl

theorem parts_items_close (rest : List Token) :
    parts (items (.closeArray :: rest)) = ([], .closed, rest) := by
  rw [items]
  rfl

theorem parts_items (h : Reads ts o rest) (hmore : parts (moreItems rest) = (os, e, after)) :
    parts (items ts) = (o :: os, e, after) := by
  obtain ⟨ht, hvalue⟩ := h
  obtain ⟨rfl, rfl, rfl⟩ := hmore
  rw [items, hvalue]
  · rfl
  · rintro rfl
    exact ht rfl

theorem reads_array (h : parts (items ts) = (os, e, after)) :
    Reads (.openArray :: ts) (.array os e) after := by
  obtain ⟨rfl, rfl, rfl⟩ := h
  apply reads_of_value (by decide)
  · rw [value]
  · rw [value]

/-- Values with a comma before each are the items of an array behind an item. -/
theorem parts_moreItems_flatMap {α : Type} {as : List α} {tokens : α → List Token}
    {outline : α → Outline} (h : ∀ a ∈ as, ∀ rest, Reads (tokens a ++ rest) (outline a) rest)
    (rest : List Token) :
    parts (moreItems ((as.flatMap fun a => .comma :: tokens a) ++ .closeArray :: rest)) =
      (as.map outline, .closed, rest) := by
  induction as with
  | nil =>
    rw [List.flatMap_nil, List.nil_append]
    exact parts_moreItems_close rest
  | cons a as ih =>
    have hmore := ih fun b hb => h b (List.mem_cons_of_mem _ hb)
    rw [List.flatMap_cons, List.append_assoc, List.cons_append]
    exact parts_moreItems (h a List.mem_cons_self _) hmore

/-- Values with commas between them, in brackets, are an array. -/
theorem reads_array_flatMap {α : Type} {as : List α} {tokens : α → List Token}
    {outline : α → Outline} (h : ∀ a ∈ as, ∀ rest, Reads (tokens a ++ rest) (outline a) rest)
    (rest : List Token) :
    Reads (.openArray :: ((as.flatMap fun a => .comma :: tokens a).tail ++ .closeArray :: rest))
      (.array (as.map outline) .closed) rest := by
  apply reads_array
  cases as with
  | nil => exact parts_items_close rest
  | cons a as =>
    have hmore := parts_moreItems_flatMap (fun b hb => h b (List.mem_cons_of_mem _ hb)) rest
    rw [List.flatMap_cons, List.cons_append, List.tail_cons, List.append_assoc]
    exact parts_items (h a List.mem_cons_self _) hmore

theorem memberValue_colon (h : Reads ts o rest) :
    (memberValue (.colon :: ts)).1 = o ∧ (memberValue (.colon :: ts)).2.val = rest := by
  obtain ⟨-, hvalue⟩ := h
  rw [memberValue, hvalue]
  exact ⟨rfl, rfl⟩

theorem parts_moreMembers_close (rest : List Token) :
    parts (moreMembers (.closeObject :: rest)) = ([], .closed, rest) := by
  rw [moreMembers]
  rfl

theorem parts_moreMembers (h : Reads ts o rest)
    (hmore : parts (moreMembers rest) = (ms, e, after)) :
    parts (moreMembers (.comma :: .string key :: .colon :: ts)) = ((key, o) :: ms, e, after) := by
  obtain ⟨rfl, rfl⟩ := memberValue_colon h
  obtain ⟨rfl, rfl, rfl⟩ := hmore
  rw [moreMembers]
  rfl

theorem reads_object (h : Reads ts o rest) (hmore : parts (moreMembers rest) = (ms, e, after)) :
    Reads (.openObject :: .string key :: .colon :: ts) (.object ((key, o) :: ms) e) after := by
  obtain ⟨rfl, rfl⟩ := memberValue_colon h
  obtain ⟨rfl, rfl, rfl⟩ := hmore
  apply reads_of_value (by decide)
  · rw [value, members]
  · rw [value, members]

theorem reads_emptyObject (rest : List Token) :
    Reads (.openObject :: .closeObject :: rest) (.object [] .closed) rest := by
  apply reads_of_value (by decide)
  · rw [value, members]
  · rw [value, members]

/-- Members with a comma before each are the members of an object behind a member. -/
theorem parts_moreMembers_flatMap {α : Type} {as : List α} (key : α → Option String)
    {tokens : α → List Token} {outline : α → Outline}
    (h : ∀ a ∈ as, ∀ rest, Reads (tokens a ++ rest) (outline a) rest) (rest : List Token) :
    parts (moreMembers ((as.flatMap fun a => .comma :: .string (key a) :: .colon :: tokens a) ++
      .closeObject :: rest)) = (as.map fun a => (key a, outline a), .closed, rest) := by
  induction as with
  | nil =>
    rw [List.flatMap_nil, List.nil_append]
    exact parts_moreMembers_close rest
  | cons a as ih =>
    have hmore := ih fun b hb => h b (List.mem_cons_of_mem _ hb)
    rw [List.flatMap_cons, List.append_assoc]
    exact parts_moreMembers (h a List.mem_cons_self _) hmore

/-- Members with commas between them, in braces, are an object. -/
theorem reads_object_flatMap {α : Type} {as : List α} (key : α → Option String)
    {tokens : α → List Token} {outline : α → Outline}
    (h : ∀ a ∈ as, ∀ rest, Reads (tokens a ++ rest) (outline a) rest) (rest : List Token) :
    Reads (.openObject ::
        ((as.flatMap fun a => .comma :: .string (key a) :: .colon :: tokens a).tail ++
          .closeObject :: rest))
      (.object (as.map fun a => (key a, outline a)) .closed) rest := by
  cases as with
  | nil => exact reads_emptyObject rest
  | cons a as =>
    have hmore := parts_moreMembers_flatMap key (fun b hb => h b (List.mem_cons_of_mem _ hb)) rest
    rw [List.flatMap_cons, List.cons_append, List.tail_cons, List.cons_append, List.cons_append,
      List.append_assoc]
    exact reads_object (h a List.mem_cons_self _) hmore

end Json.Outline

/-! ### Trees -/

namespace Tree

open Json Outline

mutual

/-- The outline of a tree that is written without fault. -/
def outline : Tree → Outline
  | .null => .null
  | .bool b => .bool b
  | .int i => .number (.ofInt i)
  | .float x => (ofTokens (Json.tokens (jsonNumber x))).1
  | .string s => .string (some s)
  | .list items => .array (itemOutlines items) .closed
  | .map entries => .object (entryOutlines entries) .closed

def itemOutlines : List Tree → List Outline
  | [] => []
  | item :: rest => outline item :: itemOutlines rest

def entryOutlines : List (String × Tree) → List (Option String × Outline)
  | [] => []
  | (name, value) :: rest => (some name, outline value) :: entryOutlines rest

end

@[simp]
theorem itemOutlines_eq_map (items : List Tree) : itemOutlines items = items.map outline := by
  induction items with
  | nil => rfl
  | cons item rest ih => rw [itemOutlines, ih, List.map_cons]

@[simp]
theorem entryOutlines_eq_map (entries : List (String × Tree)) :
    entryOutlines entries = entries.map fun e => (some e.1, e.2.outline) := by
  induction entries with
  | nil => rfl
  | cons entry rest ih => rw [entryOutlines, ih, List.map_cons]

/-- The tokens of the tree are read as its outline, whatever follows. -/
def IsRead (t : Tree) : Prop :=
  ∀ rest, Reads (t.tokens ++ rest) t.outline rest

theorem isRead_float (x : Binary64) : (Tree.float x).IsRead := by
  obtain ⟨t, ht, hcuts⟩ := exists_token_jsonNumber x
  have hreads : ∀ rest, Reads (t :: rest) (ofTokens [t]).1 rest := by
    rcases ht with rfl | ⟨n, rfl⟩
    · exact fun rest => reads_single (by simp) (by simp [ofTokens, value])
    · exact fun rest => reads_single (by simp) (by simp [ofTokens, value])
  intro rest
  rw [tokens, outline, hcuts.tokens_eq]
  exact hreads rest

theorem reads_tokens (t : Tree) : t.IsRead := by
  induction t using nested with
  | null => exact fun rest => reads_single (by simp) (by rw [value]; rfl)
  | bool b => exact fun rest => reads_single (by simp) (by rw [value]; rfl)
  | int i => exact fun rest => reads_single (by simp) (by rw [value]; rfl)
  | float x => exact isRead_float x
  | string s => exact fun rest => reads_single (by simp) (by rw [value]; rfl)
  | list items ih =>
    intro rest
    rw [tokens, outline, itemTokens_eq_flatMap, itemOutlines_eq_map, List.cons_append,
      List.cons_append, List.append_assoc]
    exact reads_array_flatMap ih rest
  | map entries ih =>
    intro rest
    rw [tokens, outline, entryTokens_eq_flatMap, entryOutlines_eq_map, List.cons_append,
      List.cons_append, List.append_assoc]
    exact reads_object_flatMap (fun e => some e.1) ih rest

/-! ### Texts -/

theorem ofTokens_compactChars (t : Tree) :
    ofTokens (Json.tokens t.compactChars) = (t.outline, []) := by
  have hreads := (reads_tokens t []).ofTokens_eq
  rwa [List.append_nil, ← (tokens_compactChars t).tokens_eq] at hreads

theorem ofTokens_prettyChars (t : Tree) (level : Nat) :
    ofTokens (Json.tokens (t.prettyChars level)) = (t.outline, []) := by
  have hreads := (reads_tokens t []).ofTokens_eq
  rwa [List.append_nil, ← (tokens_prettyChars t level).tokens_eq] at hreads

end Tree

end TaggedUnion
