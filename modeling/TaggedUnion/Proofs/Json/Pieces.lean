import TaggedUnion.Proofs.Json.Tokens
import Mathlib.Data.List.TakeWhile

/-!
# Cutting a text between its tokens

Unless a token says that the text goes wrong (`Token.isProper`), its scan takes the same characters
whatever follows them that does not go on with a word, so it is made of these characters and is the
same token before any such text (`Json.exists_used_nextToken`).  So a text can be cut wherever its
tokens can be (`Json.exists_cut`), and two texts have the tokens of both when they are put together,
unless a word or numeral at the end of the first one goes on in the second
(`Json.tokens_append_of_last`).
-/

namespace TaggedUnion.Json

/-- Whether a token is one of those that well-formed text is cut into. -/
def Token.isProper : Token → Bool
  | .seam => false
  | .brokenString _ _ => false
  | .broken _ _ => false
  | _ => true

variable {cs after rest : List Char} {t : Token}

/-! ### Scans before other text -/

/-- Digits go on no further than before what may follow a word. -/
theorem span_append (h : endsWord rest = true) (cs : List Char) :
    (cs ++ rest).takeWhile Char.isDigit = cs.takeWhile Char.isDigit ∧
      (cs ++ rest).dropWhile Char.isDigit = cs.dropWhile Char.isDigit ++ rest := by
  induction cs with
  | nil => exact @span_digits rest [] (by simp) (not_isDigit_of_endsWord h)
  | cons c cs ih =>
    by_cases hc : c.isDigit = true
    · simp [hc, ih]
    · simp [hc]

theorem scanString_append {done pieces : List Piece} (h : scanString done cs = .ok (pieces, after))
    (rest : List Char) : scanString done (cs ++ rest) = .ok (pieces, after ++ rest) := by
  fun_induction scanString done cs with
  | case1 => cases h
  | case2 done cs =>
    obtain ⟨rfl, rfl⟩ := Prod.mk.inj (Except.ok.inj h)
    rw [List.cons_append, scanString]
  | case3 => cases h
  | case4 done a b c d cs n hunit ih =>
    rw [← ih h]
    exact scanString_unit done hunit (cs ++ rest)
  | case5 => cases h
  | case6 => cases h
  | case7 done e cs _ _ c hescape ih =>
    rw [← ih h]
    exact scanString_escape done hescape (cs ++ rest)
  | case8 => cases h
  | case9 => cases h
  | case10 done c cs hquote hend _ _ hescape hcontrol ih =>
    have hbackslash : c ≠ '\\' := by
      rintro rfl
      cases cs with
      | nil => exact hend rfl rfl
      | cons e cs => exact hescape e cs rfl rfl
    rw [← ih h]
    exact scanString_plain done hquote hbackslash hcontrol (cs ++ rest)

theorem stringToken_append (h : stringToken cs = (t, after)) (ht : t.isProper = true)
    (rest : List Char) : stringToken (cs ++ rest) = (t, after ++ rest) := by
  unfold stringToken at h ⊢
  split at h
  · next pieces behind hscan =>
    obtain ⟨rfl, rfl⟩ := Prod.mk.inj h
    rw [scanString_append hscan rest]
  · obtain ⟨rfl, -⟩ := Prod.mk.inj h
    cases ht

theorem scanWord_append {expected : List Char} (h : scanWord expected cs = .ok after)
    (rest : List Char) : scanWord expected (cs ++ rest) = .ok (after ++ rest) := by
  fun_induction scanWord expected cs with
  | case1 =>
    rw [scanWord, Except.ok.inj h]
  | case2 => cases h
  | case3 expected e cs ih =>
    rw [List.cons_append, scanWord, if_pos rfl]
    exact ih h
  | case4 => cases h

theorem wordToken_append {word : Token} {expected : List Char}
    (h : wordToken word expected cs = (t, after)) (ht : t.isProper = true) (rest : List Char) :
    wordToken word expected (cs ++ rest) = (t, after ++ rest) := by
  unfold wordToken at h ⊢
  split at h
  · next behind hscan =>
    obtain ⟨rfl, rfl⟩ := Prod.mk.inj h
    rw [scanWord_append hscan rest]
  · obtain ⟨rfl, -⟩ := Prod.mk.inj h
    cases ht

theorem isProper_unfinished (cs : List Char) : (unfinished cs).isProper = false := by
  cases cs <;> rfl

/-- The sign of an exponent is told by its first character. -/
theorem exponentSign_append (hcs : cs ≠ []) (rest : List Char) :
    exponentSign (cs ++ rest) = ((exponentSign cs).1, (exponentSign cs).2 ++ rest) := by
  cases cs with
  | nil => exact absurd rfl hcs
  | cons c cs =>
    rw [List.cons_append]
    by_cases hplus : c = '+'
    · subst hplus
      rfl
    by_cases hminus : c = '-'
    · subst hminus
      rfl
    simp [exponentSign, hplus, hminus]

theorem scanExponent_append {n : Numeral} (h : scanExponent n cs = (t, after))
    (ht : t.isProper = true) (hrest : endsWord rest = true) :
    scanExponent n (cs ++ rest) = (t, after ++ rest) := by
  cases cs with
  | nil =>
    obtain ⟨rfl, rfl⟩ := Prod.mk.inj h
    exact scanExponent_of_endsWord hrest n
  | cons c cs =>
    rw [scanExponent] at h
    rw [List.cons_append, scanExponent]
    by_cases hmark : c = 'e' ∨ c = 'E'
    · rw [if_pos hmark] at h ⊢
      dsimp only at h ⊢
      split_ifs at h with hdigits
      · obtain ⟨rfl, -⟩ := Prod.mk.inj h
        rw [isProper_unfinished] at ht
        cases ht
      · obtain ⟨rfl, rfl⟩ := Prod.mk.inj h
        -- Digits were found, so the sign is followed by something.
        have hcs : cs ≠ [] := by
          rintro rfl
          exact hdigits rfl
        obtain ⟨htake, hdrop⟩ := span_append hrest (exponentSign cs).2
        rw [exponentSign_append hcs, htake, hdrop, if_neg hdigits]
    · rw [if_neg hmark] at h ⊢
      obtain ⟨rfl, rfl⟩ := Prod.mk.inj h
      rfl

theorem scanFraction_append {n : Numeral} (h : scanFraction n cs = (t, after))
    (ht : t.isProper = true) (hrest : endsWord rest = true) :
    scanFraction n (cs ++ rest) = (t, after ++ rest) := by
  unfold scanFraction at h
  split at h
  · next cs =>
    dsimp only at h
    split_ifs at h with hdigits
    · obtain ⟨rfl, -⟩ := Prod.mk.inj h
      rw [isProper_unfinished] at ht
      cases ht
    · obtain ⟨htake, hdrop⟩ := span_append hrest cs
      rw [List.cons_append, scanFraction, htake, hdrop, if_neg hdigits]
      exact scanExponent_append h ht hrest
  · next hpoint =>
    cases cs with
    | nil =>
      obtain ⟨rfl, rfl⟩ := Prod.mk.inj h
      exact scanFraction_of_endsWord hrest n
    | cons c cs =>
      have hc : c ≠ '.' := by
        rintro rfl
        exact hpoint cs rfl
      rw [← scanExponent_append h ht hrest, List.cons_append]
      unfold scanFraction
      split
      · next heq => exact absurd (List.cons.inj heq).1 hc
      · rfl

theorem numeralToken_append {negative : Bool} (h : numeralToken negative cs = (t, after))
    (ht : t.isProper = true) (hrest : endsWord rest = true) :
    numeralToken negative (cs ++ rest) = (t, after ++ rest) := by
  obtain ⟨htake, hdrop⟩ := span_append hrest cs
  unfold numeralToken at h ⊢
  dsimp only at h ⊢
  rw [htake, hdrop]
  split at h
  · obtain ⟨rfl, -⟩ := Prod.mk.inj h
    rw [isProper_unfinished] at ht
    cases ht
  · obtain ⟨rfl, -⟩ := Prod.mk.inj h
    cases ht
  · exact scanFraction_append h ht hrest

/-! ### The characters of a token -/

theorem exists_used_scanString {done pieces : List Piece}
    (h : scanString done cs = .ok (pieces, after)) :
    ∃ used, cs = used ++ after ∧ scanString done used = .ok (pieces, []) := by
  fun_induction scanString done cs with
  | case1 => cases h
  | case2 done cs =>
    obtain ⟨rfl, rfl⟩ := Prod.mk.inj (Except.ok.inj h)
    exact ⟨['"'], rfl, by rw [scanString]⟩
  | case3 => cases h
  | case4 done a b c d cs n hunit ih =>
    obtain ⟨used, rfl, hused⟩ := ih h
    exact ⟨_, rfl, (scanString_unit done hunit used).trans hused⟩
  | case5 => cases h
  | case6 => cases h
  | case7 done e cs _ _ c hescape ih =>
    obtain ⟨used, rfl, hused⟩ := ih h
    exact ⟨_, rfl, (scanString_escape done hescape used).trans hused⟩
  | case8 => cases h
  | case9 => cases h
  | case10 done c cs hquote hend _ _ hescape hcontrol ih =>
    have hbackslash : c ≠ '\\' := by
      rintro rfl
      cases cs with
      | nil => exact hend rfl rfl
      | cons e cs => exact hescape e cs rfl rfl
    obtain ⟨used, rfl, hused⟩ := ih h
    exact ⟨_, rfl, (scanString_plain done hquote hbackslash hcontrol used).trans hused⟩

theorem exists_used_stringToken (h : stringToken cs = (t, after)) (ht : t.isProper = true) :
    ∃ used, cs = used ++ after ∧ stringToken used = (t, []) := by
  unfold stringToken at h
  split at h
  · next pieces behind hscan =>
    obtain ⟨rfl, rfl⟩ := Prod.mk.inj h
    obtain ⟨used, hcs, hused⟩ := exists_used_scanString hscan
    exact ⟨used, hcs, by rw [stringToken, hused]⟩
  · obtain ⟨rfl, -⟩ := Prod.mk.inj h
    cases ht

theorem exists_used_scanWord {expected : List Char} (h : scanWord expected cs = .ok after) :
    ∃ used, cs = used ++ after ∧ scanWord expected used = .ok [] := by
  fun_induction scanWord expected cs with
  | case1 cs =>
    obtain rfl := Except.ok.inj h
    exact ⟨[], rfl, by rw [scanWord]⟩
  | case2 => cases h
  | case3 expected e cs ih =>
    obtain ⟨used, rfl, hused⟩ := ih h
    exact ⟨e :: used, rfl, by rw [scanWord, if_pos rfl, hused]⟩
  | case4 => cases h

theorem exists_used_wordToken {word : Token} {expected : List Char}
    (h : wordToken word expected cs = (t, after)) (ht : t.isProper = true) :
    ∃ used, cs = used ++ after ∧ wordToken word expected used = (t, []) := by
  unfold wordToken at h
  split at h
  · next behind hscan =>
    obtain ⟨rfl, rfl⟩ := Prod.mk.inj h
    obtain ⟨used, hcs, hused⟩ := exists_used_scanWord hscan
    exact ⟨used, hcs, by rw [wordToken, hused]⟩
  · obtain ⟨rfl, -⟩ := Prod.mk.inj h
    cases ht

/-- The digits at the front of a text are all there is to scan of them. -/
theorem span_takeWhile (cs : List Char) :
    (cs.takeWhile Char.isDigit).takeWhile Char.isDigit = cs.takeWhile Char.isDigit ∧
      (cs.takeWhile Char.isDigit).dropWhile Char.isDigit = [] := by
  have hdigits : ∀ c ∈ cs.takeWhile Char.isDigit, c.isDigit = true :=
    fun c hc => List.mem_takeWhile_imp hc
  have hspan := @span_digits [] _ hdigits (by simp)
  rwa [List.append_nil] at hspan

/-- The sign of an exponent is in front of its digits, if there is one. -/
theorem exists_used_exponentSign (h : (exponentSign cs).2.takeWhile Char.isDigit ≠ []) :
    ∃ sign, cs = sign ++ (exponentSign cs).2 ∧
      exponentSign (sign ++ (exponentSign cs).2.takeWhile Char.isDigit) =
        ((exponentSign cs).1, (exponentSign cs).2.takeWhile Char.isDigit) := by
  revert h
  fun_cases exponentSign cs with
  | case1 cs => exact fun _ => ⟨['+'], rfl, rfl⟩
  | case2 cs => exact fun _ => ⟨['-'], rfl, rfl⟩
  | case3 cs hplus hminus =>
    intro h
    refine ⟨[], rfl, ?_⟩
    cases cs with
    | nil => exact absurd rfl h
    | cons c cs =>
      have hp : c ≠ '+' := fun hc => hplus cs (by rw [hc])
      have hm : c ≠ '-' := fun hc => hminus cs (by rw [hc])
      by_cases hc : c.isDigit = true
      · rw [List.nil_append, List.takeWhile_cons_of_pos hc]
        simp [exponentSign, hp, hm]
      · exact absurd (List.takeWhile_cons_of_neg hc) h

theorem exists_used_scanExponent {n : Numeral} (h : scanExponent n cs = (t, after))
    (ht : t.isProper = true) :
    t.isWord = true ∧ ∃ used, cs = used ++ after ∧ scanExponent n used = (t, []) := by
  cases cs with
  | nil =>
    obtain ⟨rfl, rfl⟩ := Prod.mk.inj h
    exact ⟨rfl, [], rfl, rfl⟩
  | cons c cs =>
    rw [scanExponent] at h
    split_ifs at h with hmark
    · dsimp only at h
      split_ifs at h with hdigits
      · obtain ⟨rfl, -⟩ := Prod.mk.inj h
        rw [isProper_unfinished] at ht
        cases ht
      · obtain ⟨rfl, rfl⟩ := Prod.mk.inj h
        obtain ⟨sign, hsign, hused⟩ := exists_used_exponentSign hdigits
        obtain ⟨htake, hdrop⟩ := span_takeWhile (exponentSign cs).2
        refine ⟨rfl, c :: (sign ++ (exponentSign cs).2.takeWhile Char.isDigit), ?_, ?_⟩
        · rw [List.cons_append, List.append_assoc, List.takeWhile_append_dropWhile, ← hsign]
        · rw [scanExponent, if_pos hmark, hused]
          dsimp only
          rw [htake, hdrop, if_neg hdigits]
    · obtain ⟨rfl, rfl⟩ := Prod.mk.inj h
      exact ⟨rfl, [], rfl, rfl⟩

/-- Behind the digits at the front of a text, no digit follows. -/
theorem not_isDigit_of_dropWhile {used : List Char}
    (h : cs.dropWhile Char.isDigit = used ++ after) : ∀ c ∈ used.head?, c.isDigit = false := by
  intro c hc
  obtain ⟨more, rfl⟩ := List.head?_eq_some_iff.mp hc
  have hhead := List.head?_dropWhile_not Char.isDigit cs
  rw [h] at hhead
  exact hhead

theorem exists_used_scanFraction {n : Numeral} (h : scanFraction n cs = (t, after))
    (ht : t.isProper = true) :
    t.isWord = true ∧ ∃ used, cs = used ++ after ∧ scanFraction n used = (t, []) := by
  unfold scanFraction at h
  split at h
  · next cs =>
    dsimp only at h
    split_ifs at h with hdigits
    · obtain ⟨rfl, -⟩ := Prod.mk.inj h
      rw [isProper_unfinished] at ht
      cases ht
    · obtain ⟨hword, used, hafter, hused⟩ := exists_used_scanExponent h ht
      obtain ⟨htake, hdrop⟩ := span_digits (fun _ hc => List.mem_takeWhile_imp hc)
        (not_isDigit_of_dropWhile hafter)
      refine ⟨hword, '.' :: (cs.takeWhile Char.isDigit ++ used), ?_, ?_⟩
      · rw [List.cons_append, List.append_assoc, ← hafter, List.takeWhile_append_dropWhile]
      · rw [scanFraction, htake, hdrop, if_neg hdigits, hused]
  · next hpoint =>
    obtain ⟨hword, used, rfl, hused⟩ := exists_used_scanExponent h ht
    refine ⟨hword, used, rfl, ?_⟩
    unfold scanFraction
    split
    · next used => exact absurd rfl (hpoint (used ++ after))
    · exact hused

theorem exists_used_numeralToken {negative : Bool} (h : numeralToken negative cs = (t, after))
    (ht : t.isProper = true) :
    t.isWord = true ∧ ∃ used, cs = used ++ after ∧ numeralToken negative used = (t, []) := by
  unfold numeralToken at h
  dsimp only at h
  split at h
  · obtain ⟨rfl, -⟩ := Prod.mk.inj h
    rw [isProper_unfinished] at ht
    cases ht
  · obtain ⟨rfl, -⟩ := Prod.mk.inj h
    cases ht
  · next hnil hzero =>
    obtain ⟨hword, used, hafter, hused⟩ := exists_used_scanFraction h ht
    obtain ⟨htake, hdrop⟩ := span_digits (fun _ hc => List.mem_takeWhile_imp hc)
      (not_isDigit_of_dropWhile hafter)
    refine ⟨hword, cs.takeWhile Char.isDigit ++ used, ?_, ?_⟩
    · rw [List.append_assoc, ← hafter, List.takeWhile_append_dropWhile]
    · unfold numeralToken
      dsimp only
      rw [htake, hdrop]
      split
      · next heq => exact absurd heq hnil
      · next heq => exact absurd heq (hzero _ _)
      · exact hused

/-- A token takes characters that are the same token before any other text, as long as this does
not go on with a word or numeral. -/
theorem exists_used_nextToken {c : Char} (h : nextToken c cs = (t, after))
    (ht : t.isProper = true) :
    ∃ used, cs = used ++ after ∧ ∀ rest, (t.isWord = true → endsWord rest = true) →
      nextToken c (used ++ rest) = (t, rest) := by
  by_cases hc : c.isDigit = true
  · rw [nextToken_of_isDigit hc] at h
    obtain ⟨hword, used, hcs, hused⟩ := exists_used_numeralToken h ht
    cases used with
    | nil => cases hused; cases ht
    | cons c' used =>
      obtain ⟨rfl, rfl⟩ := List.cons.inj hcs
      refine ⟨used, rfl, fun rest hrest => ?_⟩
      rw [nextToken_of_isDigit hc]
      exact numeralToken_append hused ht (hrest hword)
  unfold nextToken at h
  split at h
  case h_12 =>
    rw [if_neg hc] at h
    obtain ⟨rfl, -⟩ := Prod.mk.inj h
    cases ht
  case h_7 =>
    obtain ⟨used, hcs, hused⟩ := exists_used_stringToken h ht
    exact ⟨used, hcs, fun rest _ => stringToken_append hused ht rest⟩
  case h_8 =>
    obtain ⟨used, hcs, hused⟩ := exists_used_wordToken h ht
    exact ⟨used, hcs, fun rest _ => wordToken_append hused ht rest⟩
  case h_9 =>
    obtain ⟨used, hcs, hused⟩ := exists_used_wordToken h ht
    exact ⟨used, hcs, fun rest _ => wordToken_append hused ht rest⟩
  case h_10 =>
    obtain ⟨used, hcs, hused⟩ := exists_used_wordToken h ht
    exact ⟨used, hcs, fun rest _ => wordToken_append hused ht rest⟩
  case h_11 =>
    obtain ⟨hword, used, hcs, hused⟩ := exists_used_numeralToken h ht
    exact ⟨used, hcs, fun rest hrest => numeralToken_append hused ht (hrest hword)⟩
  all_goals
    obtain ⟨rfl, rfl⟩ := Prod.mk.inj h
    exact ⟨[], rfl, fun rest _ => rfl⟩

/-! ### Texts and their tokens -/

theorem tokens_append_of_isSpace (h : ∀ c ∈ cs, isSpace c = true) (rest : List Char) :
    tokens (cs ++ rest) = tokens rest := by
  induction cs with
  | nil => rfl
  | cons c cs ih =>
    obtain ⟨hc, hcs⟩ := List.forall_mem_cons.mp h
    rw [List.cons_append, tokens_of_isSpace hc, ih hcs]

/-- The first token of a text is made of what stands in front of the others. -/
theorem exists_first_token {ts : List Token} (h : tokens cs = t :: ts) (ht : t.isProper = true)
    (hseam : ts.head? ≠ some .seam) :
    ∃ front after, cs = front ++ after ∧ tokens after = ts ∧
      (t.isWord = true → endsWord after = true) ∧
      ∀ rest, (t.isWord = true → endsWord rest = true) →
        tokens (front ++ rest) = t :: tokens rest := by
  induction cs with
  | nil =>
    rw [tokens_nil] at h
    cases h
  | cons c cs ih =>
    by_cases hspace : isSpace c = true
    · rw [tokens_of_isSpace hspace] at h
      obtain ⟨front, after, rfl, hafter, hends, hfront⟩ := ih h
      refine ⟨c :: front, after, rfl, hafter, hends, fun rest hrest => ?_⟩
      rw [List.cons_append, tokens_of_isSpace hspace, hfront rest hrest]
    · rcases hnext : nextToken c cs with ⟨t', after⟩
      rw [tokens, if_neg hspace] at h
      dsimp only at h
      rw [hnext] at h
      split_ifs at h with hword
      · obtain ⟨-, rfl⟩ := List.cons.inj h
        exact absurd rfl hseam
      · obtain ⟨rfl, rfl⟩ := List.cons.inj h
        obtain ⟨used, rfl, hused⟩ := exists_used_nextToken hnext ht
        refine ⟨c :: used, after, rfl, rfl, ?_, fun rest hrest => ?_⟩
        · intro hw
          simpa [hw] using hword
        · exact tokens_of_nextToken (by simpa using hspace) (hused rest hrest) hrest

theorem head?_ne_seam {ts : List Token} (h : ∀ t ∈ ts, t.isProper = true) :
    ts.head? ≠ some .seam := by
  intro hseam
  have := h _ (List.mem_of_mem_head? hseam)
  cases this

/-- Only blanks have no tokens. -/
theorem tokens_eq_nil_iff : tokens cs = [] ↔ ∀ c ∈ cs, isSpace c = true := by
  constructor
  · intro h
    induction cs with
    | nil => simp
    | cons c cs ih =>
      by_cases hspace : isSpace c = true
      · rw [tokens_of_isSpace hspace] at h
        exact List.forall_mem_cons.mpr ⟨hspace, ih h⟩
      · rw [tokens, if_neg hspace] at h
        dsimp only at h
        split_ifs at h
  · intro h
    have := tokens_append_of_isSpace h []
    rwa [List.append_nil, tokens_nil] at this

theorem tokens_append_of_last (h : ∀ t ∈ tokens cs, t.isProper = true)
    (hlast : ∀ t ∈ (tokens cs).getLast?, t.isWord = true → endsWord rest = true) :
    tokens (cs ++ rest) = tokens cs ++ tokens rest := by
  generalize hts : tokens cs = ts at h hlast ⊢
  induction ts generalizing cs with
  | nil => exact tokens_append_of_isSpace (tokens_eq_nil_iff.mp hts) rest
  | cons t ts ih =>
    obtain ⟨ht, hproper⟩ := List.forall_mem_cons.mp h
    obtain ⟨front, after, rfl, hafter, hends, hfront⟩ :=
      exists_first_token hts ht (head?_ne_seam hproper)
    have hmore : tokens (after ++ rest) = ts ++ tokens rest := by
      apply ih hafter hproper
      intro t' ht'
      apply hlast
      rw [List.getLast?_cons, Option.mem_def.mp ht']
      rfl
    -- Behind the last character it is the other text that ends a word.
    have hrest : t.isWord = true → endsWord (after ++ rest) = true := by
      intro hword
      cases after with
      | nil =>
        rw [tokens_nil] at hafter
        subst hafter
        exact hlast t rfl hword
      | cons c after => exact hends hword
    rw [List.append_assoc, hfront _ hrest, hmore, List.cons_append]

/-- A text can be cut where its tokens can. -/
theorem exists_cut {front back : List Token} (h : tokens cs = front ++ back)
    (hfront : ∀ t ∈ front, t.isProper = true) (hback : back.head? ≠ some .seam) :
    ∃ a b, cs = a ++ b ∧ tokens a = front ∧ tokens b = back ∧
      ∀ t ∈ front.getLast?, t.isWord = true → endsWord b = true := by
  induction front generalizing cs with
  | nil => exact ⟨[], cs, rfl, tokens_nil, h, by simp⟩
  | cons t front ih =>
    obtain ⟨ht, hproper⟩ := List.forall_mem_cons.mp hfront
    have hseam : (front ++ back).head? ≠ some .seam := by
      cases front with
      | nil => exact hback
      | cons t' front =>
        show some t' ≠ _
        exact head?_ne_seam hproper
    obtain ⟨first, after, rfl, hafter, hends, hfirst⟩ := exists_first_token h ht hseam
    cases front with
    | nil =>
      have hone := hfirst [] fun _ => rfl
      rw [List.append_nil, tokens_nil] at hone
      refine ⟨first, after, rfl, hone, hafter, ?_⟩
      rintro _ ⟨⟩
      exact hends
    | cons t' front =>
      obtain ⟨a, b, rfl, ha, hb, hlast⟩ := ih hafter hproper
      refine ⟨first ++ a, b, (List.append_assoc ..).symm, ?_, hb, ?_⟩
      · rw [hfirst a, ha]
        intro hword
        cases a with
        | nil => rfl
        | cons c a => exact hends hword
      · intro w hw
        rw [List.getLast?_cons_cons] at hw
        exact hlast w hw

end TaggedUnion.Json
