import TaggedUnion.Proofs.Json.Pieces
import TaggedUnion.Proofs.Json.Reading

/-!
# Values before other text

Whether and how a text is read as one value does not depend on what follows it, as long as what
follows does not go on with its last word (`Json.isValue_of_parse`).

* The tokens of such a text are those it has before other text too (`Json.tokens_append_of_last`).
* A value without faults takes the same tokens whatever follows them, the last of them being a word
  only if the value is one (`Outline.exists_front_value`).  One such law stands beside each of the
  six scans for values, items and members, and they rest on each other as the scans do.
-/

namespace TaggedUnion.Json

/-! ### Values -/

namespace Outline

/-- The tokens start with `front`, which has no faults, and go on with `rest`. -/
structure Splits (ts front rest : List Token) : Prop where
  eq : ts = front ++ rest
  proper : ∀ t ∈ front, t.isProper = true

section

variable {t : Token} {ts rest after front front' : List Token}

theorem splits_nil (ts : List Token) : Splits ts [] ts :=
  ⟨rfl, fun _ h => absurd h List.not_mem_nil⟩

theorem Splits.cons (ht : t.isProper = true) (h : Splits ts front rest) :
    Splits (t :: ts) (t :: front) rest := by
  refine ⟨by rw [h.eq, List.cons_append], ?_⟩
  intro t' ht'
  rcases List.mem_cons.mp ht' with rfl | ht'
  · exact ht
  · exact h.proper t' ht'

theorem Splits.trans (h : Splits ts front rest) (h' : Splits rest front' after) :
    Splits ts (front ++ front') after := by
  refine ⟨by rw [h.eq, h'.eq, List.append_assoc], ?_⟩
  intro t ht
  rcases List.mem_append.mp ht with ht | ht
  · exact h.proper t ht
  · exact h'.proper t ht

end

theorem parts_of_closed {α : Type} {ts : List Token} {p : List α × Ending × Rest ts}
    (h : p.2.1 = .closed) : parts p = (p.1, .closed, p.2.2.val) := by
  rw [parts, h]

theorem value_openArray (ts : List Token) :
    value .openArray ts = (.array (items ts).1 (items ts).2.1, (items ts).2.2) := by
  rw [value]

theorem value_openObject (ts : List Token) : value .openObject ts = members ts := by
  rw [value]

/-- Whether a value is written as a word or numeral. -/
def isWord : Outline → Bool
  | .null => true
  | .bool _ => true
  | .number _ => true
  | _ => false

/-- A value of one token takes no other tokens. -/
theorem front_single {t : Token} {o : Outline} (hclose : t ≠ .closeArray) (ht : t.isProper = true)
    (hword : t.isWord = o.isWord) (h : ∀ ts, value t ts = (o, ⟨ts, Nat.le_refl _⟩))
    (ts : List Token) :
    ∃ front, Splits ts front (value t ts).2.val ∧ t.isProper = true ∧
      (∀ w ∈ (t :: front).getLast?, w.isWord = (value t ts).1.isWord) ∧
      ∀ more, Reads (t :: front ++ more) (value t ts).1 more := by
  rw [h ts]
  refine ⟨[], splits_nil ts, ht, ?_, fun more => reads_single hclose (h more)⟩
  rintro _ ⟨⟩
  exact hword

/-- What is put in front leaves the last token where it is. -/
theorem getLast?_append_of_some (front : List Token) {front' : List Token} {w : Token}
    (h : front'.getLast? = some w) : (front ++ front').getLast? = some w := by
  rw [List.getLast?_append, h, Option.some_or]

/-- The closing mark at the end of a value is no word. -/
theorem isWord_of_getLast? {t w : Token} {front : List Token} (h : front.getLast? = some w)
    (hw : w.isWord = false) : ∀ w ∈ (t :: front).getLast?, w.isWord = false := by
  intro w' hw'
  have hlast : (t :: front).getLast? = some w := getLast?_append_of_some [t] h
  obtain rfl := Option.some.inj (hlast.symm.trans hw')
  exact hw

mutual

/-- A value without faults takes the same tokens whatever follows them. -/
theorem exists_front_value (t : Token) (ts : List Token) (ho : (value t ts).1.Complete) :
    ∃ front, Splits ts front (value t ts).2.val ∧ t.isProper = true ∧
      (∀ w ∈ (t :: front).getLast?, w.isWord = (value t ts).1.isWord) ∧
      ∀ more, Reads (t :: front ++ more) (value t ts).1 more := by
  cases t with
  | null => exact front_single (by simp) rfl rfl (fun ts => by rw [value]) ts
  | bool b => exact front_single (by simp) rfl rfl (fun ts => by rw [value]) ts
  | number n => exact front_single (by simp) rfl rfl (fun ts => by rw [value]) ts
  | string text => exact front_single (by simp) rfl rfl (fun ts => by rw [value]) ts
  | openArray =>
    rw [value_openArray] at ho ⊢
    obtain ⟨hending, hitems⟩ := complete_array_iff.mp ho
    obtain ⟨front, hsplits, hlast, hmore⟩ := exists_front_items ts (parts_of_closed hending) hitems
    rw [hending]
    exact ⟨front, hsplits, rfl, isWord_of_getLast? hlast rfl, fun more => reads_array (hmore more)⟩
  | openObject =>
    rw [value_openObject] at ho ⊢
    obtain ⟨front, hsplits, hlast, hword, hmore⟩ := exists_front_members ts ho
    rw [hword]
    exact ⟨front, hsplits, rfl, isWord_of_getLast? hlast rfl, hmore⟩
  | _ =>
    simp only [value] at ho
    cases ho
termination_by 2 * ts.length + 1

theorem exists_front_items (ts : List Token) {os : List Outline} {rest : List Token}
    (h : parts (items ts) = (os, .closed, rest)) (hos : ∀ o ∈ os, o.Complete) :
    ∃ front, Splits ts front rest ∧ front.getLast? = some .closeArray ∧
      ∀ more, parts (items (front ++ more)) = (os, .closed, more) := by
  rw [items.eq_def] at h
  split at h
  · cases h
  · next ts =>
    obtain ⟨rfl, -, rfl⟩ := h
    exact ⟨[.closeArray], (splits_nil ts).cons rfl, rfl, parts_items_close⟩
  · next t ts hclose =>
    simp only [parts, Prod.mk.injEq] at h
    obtain ⟨rfl, hending, rfl⟩ := h
    have hle := (value t ts).2.property
    obtain ⟨front, hsplits, ht, -, hreads⟩ := exists_front_value t ts (hos _ List.mem_cons_self)
    obtain ⟨front', hsplits', hlast, hmore⟩ := exists_front_moreItems (value t ts).2.val
      (parts_of_closed hending) fun o ho => hos o (List.mem_cons_of_mem _ ho)
    refine ⟨t :: (front ++ front'), (hsplits.trans hsplits').cons ht,
      getLast?_append_of_some (t :: front) hlast, fun more => ?_⟩
    rw [List.cons_append, List.append_assoc]
    exact parts_items (hreads _) (hmore more)
termination_by 2 * ts.length
decreasing_by all_goals (subst_vars; simp only [List.length_cons]; omega)

theorem exists_front_moreItems (ts : List Token) {os : List Outline} {rest : List Token}
    (h : parts (moreItems ts) = (os, .closed, rest)) (hos : ∀ o ∈ os, o.Complete) :
    ∃ front, Splits ts front rest ∧ front.getLast? = some .closeArray ∧
      ∀ more, parts (moreItems (front ++ more)) = (os, .closed, more) := by
  rw [moreItems.eq_def] at h
  split at h
  · cases h
  · next ts =>
    obtain ⟨rfl, -, rfl⟩ := h
    exact ⟨[.closeArray], (splits_nil ts).cons rfl, rfl, parts_moreItems_close⟩
  · cases h
  · cases h
  · next t ts hclose =>
    simp only [parts, Prod.mk.injEq] at h
    obtain ⟨rfl, hending, rfl⟩ := h
    have hle := (value t ts).2.property
    obtain ⟨front, hsplits, ht, -, hreads⟩ := exists_front_value t ts (hos _ List.mem_cons_self)
    obtain ⟨front', hsplits', hlast, hmore⟩ := exists_front_moreItems (value t ts).2.val
      (parts_of_closed hending) fun o ho => hos o (List.mem_cons_of_mem _ ho)
    refine ⟨.comma :: t :: (front ++ front'), ((hsplits.trans hsplits').cons ht).cons rfl,
      getLast?_append_of_some (.comma :: t :: front) hlast, fun more => ?_⟩
    rw [List.cons_append, List.cons_append, List.append_assoc]
    exact parts_moreItems (hreads _) (hmore more)
  · cases h
termination_by 2 * ts.length
decreasing_by all_goals (subst_vars; simp only [List.length_cons]; omega)

theorem exists_front_members (ts : List Token) (ho : (members ts).1.Complete) :
    ∃ front, Splits ts front (members ts).2.val ∧ front.getLast? = some .closeObject ∧
      (members ts).1.isWord = false ∧
      ∀ more, Reads (.openObject :: front ++ more) (members ts).1 more := by
  rw [members.eq_def] at ho ⊢
  split at ho
  · cases ho
  · next ts => exact ⟨[.closeObject], (splits_nil ts).cons rfl, rfl, rfl, reads_emptyObject⟩
  · cases ho
  · next key ts =>
    obtain ⟨hending, hmembers⟩ := complete_object_iff.mp ho
    have hle := (memberValue ts).2.property
    obtain ⟨front, hsplits, hreads⟩ :=
      exists_front_memberValue ts (hmembers _ List.mem_cons_self)
    obtain ⟨front', hsplits', hlast, hmore⟩ := exists_front_moreMembers (memberValue ts).2.val
      (parts_of_closed hending) fun m hm => hmembers m (List.mem_cons_of_mem _ hm)
    refine ⟨.string key :: .colon :: (front ++ front'), (hsplits.trans hsplits').cons rfl,
      getLast?_append_of_some (.string key :: .colon :: front) hlast, rfl, fun more => ?_⟩
    dsimp only
    rw [hending, List.cons_append, List.cons_append, List.cons_append, List.append_assoc]
    exact reads_object (hreads _) (hmore more)
  · cases ho
termination_by 2 * ts.length
decreasing_by all_goals (subst_vars; simp only [List.length_cons]; omega)

theorem exists_front_memberValue (ts : List Token) (ho : (memberValue ts).1.Complete) :
    ∃ front, Splits ts (.colon :: front) (memberValue ts).2.val ∧
      ∀ more, Reads (front ++ more) (memberValue ts).1 more := by
  rw [memberValue.eq_def] at ho ⊢
  split at ho
  · cases ho
  · cases ho
  · next t ts =>
    obtain ⟨front, hsplits, ht, -, hreads⟩ := exists_front_value t ts ho
    exact ⟨t :: front, (hsplits.cons ht).cons rfl, hreads⟩
  · cases ho
termination_by 2 * ts.length + 1
decreasing_by all_goals (subst_vars; simp only [List.length_cons]; omega)

theorem exists_front_moreMembers (ts : List Token) {ms : List (Option String × Outline)}
    {rest : List Token} (h : parts (moreMembers ts) = (ms, .closed, rest))
    (hms : ∀ m ∈ ms, m.2.Complete) :
    ∃ front, Splits ts front rest ∧ front.getLast? = some .closeObject ∧
      ∀ more, parts (moreMembers (front ++ more)) = (ms, .closed, more) := by
  rw [moreMembers.eq_def] at h
  split at h
  · cases h
  · next ts =>
    obtain ⟨rfl, -, rfl⟩ := h
    exact ⟨[.closeObject], (splits_nil ts).cons rfl, rfl, parts_moreMembers_close⟩
  · cases h
  · cases h
  · next key ts =>
    simp only [parts, Prod.mk.injEq] at h
    obtain ⟨rfl, hending, rfl⟩ := h
    have hle := (memberValue ts).2.property
    obtain ⟨front, hsplits, hreads⟩ := exists_front_memberValue ts (hms _ List.mem_cons_self)
    obtain ⟨front', hsplits', hlast, hmore⟩ := exists_front_moreMembers (memberValue ts).2.val
      (parts_of_closed hending) fun m hm => hms m (List.mem_cons_of_mem _ hm)
    refine ⟨.comma :: .string key :: .colon :: (front ++ front'),
      ((hsplits.trans hsplits').cons rfl).cons rfl,
      getLast?_append_of_some (.comma :: .string key :: .colon :: front) hlast,
      fun more => ?_⟩
    rw [List.cons_append, List.cons_append, List.cons_append, List.append_assoc]
    exact parts_moreMembers (hreads _) (hmore more)
  · cases h
  · cases h
termination_by 2 * ts.length
decreasing_by all_goals (subst_vars; simp only [List.length_cons]; omega)

end

end Outline

/-! ### Texts -/

/-- The outline of the value that a text starts with. -/
def outlineOf (text : List Char) : Outline :=
  (Outline.ofTokens (tokens text)).1

/-- How deeply arrays and objects are nested in a text. -/
def nesting (text : List Char) : Nat :=
  (outlineOf text).depth

/-- A text of one value without faults, whatever follows it. -/
structure IsValue (text : List Char) : Prop where
  proper : ∀ t ∈ tokens text, t.isProper = true
  last : ∀ t ∈ (tokens text).getLast?, t.isWord = (outlineOf text).isWord
  reads : ∀ rest, Outline.Reads (tokens text ++ rest) (outlineOf text) rest

theorem IsValue.cuts {text : List Char} (h : IsValue text) : Tree.Cuts text (tokens text) :=
  fun _ hrest => tokens_append_of_last h.proper fun _ _ _ => hrest

theorem isValue_of_complete {text : List Char} {o : Outline} (ho : o.Complete)
    (h : Outline.ofTokens (tokens text) = (o, [])) : IsValue text := by
  have houtline : outlineOf text = o := by rw [outlineOf, h]
  cases hts : tokens text with
  | nil =>
    rw [hts] at h
    obtain ⟨rfl, -⟩ := Prod.mk.inj h
    cases ho
  | cons t ts =>
    rw [hts] at h
    obtain ⟨rfl, hrest⟩ := Prod.mk.inj h
    obtain ⟨front, hsplits, ht, hlast, hreads⟩ := Outline.exists_front_value t ts ho
    -- Nothing is left behind the value, so it takes all tokens.
    have hfront : front = ts := by
      have := hsplits.eq
      rw [hrest, List.append_nil] at this
      exact this.symm
    subst hfront
    constructor
    · rw [hts]
      exact (hsplits.cons ht).proper
    · rw [hts, houtline]
      exact hlast
    · rw [hts, houtline]
      exact hreads

/-- A text that is read as a value is the text of that value before other text too. -/
theorem isValue_of_parse {text : List Char} {value : Json} (h : parse text = .ok value) :
    IsValue text ∧ (outlineOf text).json Outline.maxDepth = .ok value := by
  obtain ⟨o, htokens, hjson⟩ := ofTokens_of_readWith h
  refine ⟨isValue_of_complete (Outline.complete_of_json hjson) htokens, ?_⟩
  rw [outlineOf, htokens]
  exact hjson

end TaggedUnion.Json
