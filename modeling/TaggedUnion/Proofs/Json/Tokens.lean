import TaggedUnion.Json.Token
import TaggedUnion.Tree.Json
import Mathlib.Data.List.Basic

/-!
# Tokens of written text

What is written as one token is read as that token, whatever follows it:

* each mark and each word is a token, and line breaks and blanks between tokens are dropped
  (`Json.tokens_newLine`);
* a numeral with digits in each of its parts (`Json.Numeral.Proper`) is one token
  (`Json.tokens_numeral`), which ends where the text behind it does not go on with it (`endsWord`);
* a text is written as one string (`Json.tokens_jsonString`): every character is written so that
  the scanner reads one piece (`Json.scanString_jsonChar`), and the pieces join to the characters
  again (`Json.joinPieces_map_ofChar`).
-/

namespace TaggedUnion

/-! ### Decimal digits -/

namespace Decimal

theorem isDigit_digitChar {d : Nat} (h : d < 10) : (Nat.digitChar d).isDigit = true := by
  revert d
  decide

theorem isDigit_of_mem_ofNat {n : Nat} {c : Char} (h : c ∈ ofNat n) : c.isDigit = true := by
  fun_induction ofNat n with
  | case1 n hn =>
    rw [List.mem_singleton.mp h]
    exact isDigit_digitChar hn
  | case2 n hn ih =>
    rcases List.mem_append.mp h with h | h
    · exact ih h
    · rw [List.mem_singleton.mp h]
      exact isDigit_digitChar (Nat.mod_lt n (by decide))

theorem ofNat_ne_nil (n : Nat) : ofNat n ≠ [] := by
  unfold ofNat
  split_ifs <;> simp

/-- A number starts with a zero only if it is zero. -/
theorem eq_zero_of_head?_ofNat {n : Nat} (h : (ofNat n).head? = some '0') : n = 0 := by
  fun_induction ofNat n with
  | case1 n hn =>
    rw [List.head?_cons, Option.some.injEq] at h
    revert h hn
    revert n
    decide
  | case2 n hn ih =>
    rw [List.head?_append_of_ne_nil _ (ofNat_ne_nil _)] at h
    have := ih h
    omega

end Decimal

namespace Json

/-! ### Blanks and marks -/

@[simp]
theorem tokens_nil : tokens [] = [] := by
  rw [tokens]

theorem tokens_of_isSpace {c : Char} (h : isSpace c = true) (rest : List Char) :
    tokens (c :: rest) = tokens rest := by
  rw [tokens, if_pos h]

/-- A text that starts with a token which ends properly. -/
theorem tokens_of_nextToken {c : Char} {rest after : List Char} {t : Token}
    (hspace : isSpace c = false) (hnext : nextToken c rest = (t, after))
    (hends : t.isWord = true → endsWord after = true) :
    tokens (c :: rest) = t :: tokens after := by
  rw [tokens, if_neg (by simp [hspace])]
  dsimp only
  rw [hnext, if_neg]
  rw [Bool.and_eq_true, Bool.not_eq_true']
  rintro ⟨hword, hnot⟩
  rw [hends hword] at hnot
  cases hnot

/-- A mark is a token whatever follows. -/
theorem tokens_of_mark {c : Char} {rest : List Char} {t : Token} (hspace : isSpace c = false)
    (hnext : nextToken c rest = (t, rest)) (hmark : t.isWord = false) :
    tokens (c :: rest) = t :: tokens rest := by
  apply tokens_of_nextToken hspace hnext
  intro hword
  rw [hmark] at hword
  cases hword

@[simp]
theorem tokens_openArray (rest : List Char) : tokens ('[' :: rest) = .openArray :: tokens rest :=
  tokens_of_mark rfl rfl rfl

@[simp]
theorem tokens_closeArray (rest : List Char) : tokens (']' :: rest) = .closeArray :: tokens rest :=
  tokens_of_mark rfl rfl rfl

@[simp]
theorem tokens_openObject (rest : List Char) :
    tokens ('\x7b' :: rest) = .openObject :: tokens rest :=
  tokens_of_mark rfl rfl rfl

@[simp]
theorem tokens_closeObject (rest : List Char) :
    tokens ('\x7d' :: rest) = .closeObject :: tokens rest :=
  tokens_of_mark rfl rfl rfl

@[simp]
theorem tokens_comma (rest : List Char) : tokens (',' :: rest) = .comma :: tokens rest :=
  tokens_of_mark rfl rfl rfl

@[simp]
theorem tokens_colon (rest : List Char) : tokens (':' :: rest) = .colon :: tokens rest :=
  tokens_of_mark rfl rfl rfl

@[simp]
theorem tokens_newline (rest : List Char) : tokens ('\n' :: rest) = tokens rest :=
  tokens_of_isSpace rfl rest

@[simp]
theorem tokens_space (rest : List Char) : tokens (' ' :: rest) = tokens rest :=
  tokens_of_isSpace rfl rest

@[simp]
theorem tokens_newLine (level : Nat) (rest : List Char) :
    tokens (Tree.newLine level ++ rest) = tokens rest := by
  rw [Tree.newLine, List.cons_append, tokens_newline]
  induction 2 * level with
  | zero => rfl
  | succ n ih => rw [List.replicate_succ, List.cons_append, tokens_space, ih]

/-! ### Words -/

theorem tokens_null {rest : List Char} (h : endsWord rest = true) :
    tokens ("null".toList ++ rest) = .null :: tokens rest :=
  tokens_of_nextToken rfl rfl fun _ => h

theorem tokens_bool (b : Bool) {rest : List Char} (h : endsWord rest = true) :
    tokens ((if b then "true".toList else "false".toList) ++ rest) = .bool b :: tokens rest := by
  cases b with
  | false => exact tokens_of_nextToken rfl rfl fun _ => h
  | true => exact tokens_of_nextToken rfl rfl fun _ => h

/-! ### Numerals -/

/-- One digit or more. -/
structure IsDigits (digits : List Char) : Prop where
  ne_nil : digits ≠ []
  isDigit : ∀ c ∈ digits, c.isDigit = true

theorem isDigits_ofNat (n : Nat) : IsDigits (Decimal.ofNat n) :=
  ⟨Decimal.ofNat_ne_nil n, fun _ => Decimal.isDigit_of_mem_ofNat⟩

namespace Numeral

/-- The characters of a fraction. -/
def fractionChars : Option (List Char) → List Char
  | none => []
  | some digits => '.' :: digits

/-- The characters of an exponent, with its sign. -/
def exponentChars : Option Exponent → List Char
  | none => []
  | some e => 'e' :: (if e.negative then '-' else '+') :: e.digits

/-- The characters of a numeral behind its sign. -/
def unsignedChars (n : Numeral) : List Char :=
  n.whole ++ (fractionChars n.fraction ++ exponentChars n.exponent)

def chars (n : Numeral) : List Char :=
  if n.negative then '-' :: n.unsignedChars else n.unsignedChars

/-- A numeral as the grammar of JSON has it: there are digits in each of its parts, and only zero
starts with a zero. -/
structure Proper (n : Numeral) : Prop where
  whole : IsDigits n.whole
  leading : n.whole.head? = some '0' → n.whole = ['0']
  fraction : ∀ digits ∈ n.fraction, IsDigits digits
  exponent : ∀ e ∈ n.exponent, IsDigits e.digits

/-- The numeral of an integer. -/
def ofInt : Int → Numeral
  | .ofNat n => { whole := Decimal.ofNat n }
  | .negSucc n => { negative := true, whole := Decimal.ofNat (n + 1) }

theorem proper_ofNat (negative : Bool) (n : Nat) :
    Proper { negative, whole := Decimal.ofNat n } where
  whole := isDigits_ofNat n
  leading h := by
    rw [Decimal.eq_zero_of_head?_ofNat h, Decimal.ofNat]
    rfl
  fraction := by simp
  exponent := by simp

theorem proper_ofInt (i : Int) : (ofInt i).Proper := by
  cases i with
  | ofNat n => exact proper_ofNat false n
  | negSucc n => exact proper_ofNat true (n + 1)

theorem chars_ofInt (i : Int) : (ofInt i).chars = Decimal.ofInt i := by
  cases i with
  | ofNat n => exact List.append_nil _
  | negSucc n => exact congrArg ('-' :: ·) (List.append_nil _)

end Numeral

section Numerals

open Numeral

variable {rest : List Char} {negative : Bool} {whole : List Char} {f? : Option (List Char)}
  {e? : Option Exponent}

/-- What may follow a word or numeral goes on with no exponent. -/
theorem scanExponent_of_endsWord (h : endsWord rest = true) (n : Numeral) :
    scanExponent n rest = (.number n, rest) := by
  cases rest with
  | nil => rfl
  | cons c rest =>
    rw [scanExponent, if_neg]
    rintro (rfl | rfl)
    · simp [endsWord, isSpace] at h
    · simp [endsWord, isSpace] at h

/-- Nor does it go on with a fraction. -/
theorem scanFraction_of_endsWord (h : endsWord rest = true) (n : Numeral) :
    scanFraction n rest = (.number n, rest) := by
  unfold scanFraction
  split
  · simp [endsWord, isSpace] at h
  · exact scanExponent_of_endsWord h n

theorem not_isDigit_of_endsWord (h : endsWord rest = true) :
    ∀ c ∈ rest.head?, c.isDigit = false := by
  cases rest with
  | nil => simp
  | cons c rest =>
    simp only [endsWord, isSpace, Bool.or_eq_true, decide_eq_true_eq, List.mem_cons,
      List.not_mem_nil, or_false] at h
    rintro _ ⟨⟩
    rcases h with (((rfl | rfl) | rfl) | rfl) | rfl | rfl | rfl | rfl | rfl | rfl | rfl <;> rfl

theorem span_digits {digits : List Char} (hdigits : ∀ c ∈ digits, c.isDigit = true)
    (hrest : ∀ c ∈ rest.head?, c.isDigit = false) :
    (digits ++ rest).takeWhile Char.isDigit = digits ∧
      (digits ++ rest).dropWhile Char.isDigit = rest := by
  rw [List.takeWhile_append_of_pos hdigits, List.dropWhile_append_of_pos hdigits]
  cases rest with
  | nil => simp
  | cons c rest => simp [hrest c rfl]

theorem scanExponent_exponentChars (he : ∀ e ∈ e?, IsDigits e.digits)
    (h : endsWord rest = true) :
    scanExponent ⟨negative, whole, f?, none⟩ (exponentChars e? ++ rest) =
      (.number ⟨negative, whole, f?, e?⟩, rest) := by
  cases e? with
  | none => exact scanExponent_of_endsWord h _
  | some e =>
    have he := he e rfl
    have hsign : exponentSign ((if e.negative then '-' else '+') :: (e.digits ++ rest)) =
        (e.negative, e.digits ++ rest) := by
      cases e.negative <;> rfl
    obtain ⟨hdigits, hafter⟩ := span_digits he.isDigit (not_isDigit_of_endsWord h)
    rw [exponentChars, List.cons_append, List.cons_append, scanExponent, if_pos (.inl rfl), hsign]
    dsimp only
    rw [hdigits, hafter, if_neg he.ne_nil]

/-- Neither an exponent nor what may follow a numeral goes on with its digits. -/
theorem not_isDigit_exponentChars (h : endsWord rest = true) (e? : Option Exponent) :
    ∀ c ∈ (exponentChars e? ++ rest).head?, c.isDigit = false := by
  cases e? with
  | none => exact not_isDigit_of_endsWord h
  | some e => rintro _ ⟨⟩; rfl

theorem scanFraction_fractionChars (hf : ∀ digits ∈ f?, IsDigits digits)
    (he : ∀ e ∈ e?, IsDigits e.digits) (h : endsWord rest = true) :
    scanFraction ⟨negative, whole, none, none⟩
        (fractionChars f? ++ (exponentChars e? ++ rest)) =
      (.number ⟨negative, whole, f?, e?⟩, rest) := by
  cases f? with
  | none =>
    cases e? with
    | none => exact scanFraction_of_endsWord h _
    | some e => exact scanExponent_exponentChars he h
  | some ds =>
    have hds := hf ds rfl
    obtain ⟨hdigits, hafter⟩ := span_digits hds.isDigit (not_isDigit_exponentChars h e?)
    rw [fractionChars, List.cons_append, scanFraction]
    dsimp only
    rw [hdigits, hafter, if_neg hds.ne_nil, scanExponent_exponentChars he h]

theorem numeralToken_unsignedChars {n : Numeral} (hn : n.Proper) (h : endsWord rest = true) :
    numeralToken n.negative (n.unsignedChars ++ rest) = (.number n, rest) := by
  have hstop : ∀ c ∈ (fractionChars n.fraction ++ (exponentChars n.exponent ++ rest)).head?,
      c.isDigit = false := by
    cases n.fraction with
    | none => exact not_isDigit_exponentChars h n.exponent
    | some ds => rintro _ ⟨⟩; rfl
  obtain ⟨hdigits, hafter⟩ := span_digits hn.whole.isDigit hstop
  rw [unsignedChars, List.append_assoc, List.append_assoc]
  unfold numeralToken
  dsimp only
  rw [hdigits, hafter]
  split
  · next hnil => exact absurd hnil hn.whole.ne_nil
  · next c more hzero =>
    have := hn.leading (by rw [hzero]; rfl)
    rw [hzero] at this
    simp at this
  · exact scanFraction_fractionChars hn.fraction hn.exponent h

theorem nextToken_of_isDigit {c : Char} (h : c.isDigit = true) (rest : List Char) :
    nextToken c rest = numeralToken false (c :: rest) := by
  unfold nextToken
  split
  -- No mark and no first letter of a word is a digit.
  any_goals contradiction
  exact if_pos h

theorem isSpace_of_isDigit {c : Char} (h : c.isDigit = true) : isSpace c = false := by
  unfold isSpace
  simp only [Bool.or_eq_false_iff, decide_eq_false_iff_not]
  refine ⟨⟨⟨?_, ?_⟩, ?_⟩, ?_⟩ <;> (rintro rfl; exact absurd h (by decide))

/-- The characters of a numeral are one token. -/
theorem tokens_numeral {n : Numeral} (hn : n.Proper) (h : endsWord rest = true) :
    tokens (n.chars ++ rest) = .number n :: tokens rest := by
  have hnumeral := numeralToken_unsignedChars hn h
  unfold Numeral.chars
  cases hnegative : n.negative with
  | true =>
    rw [hnegative] at hnumeral
    exact tokens_of_nextToken rfl hnumeral fun _ => h
  | false =>
    rw [hnegative] at hnumeral
    rw [if_neg Bool.false_ne_true]
    -- The first digit says that a numeral starts, and is read once more as a part of it.
    obtain ⟨c, digits, hdigits⟩ := List.exists_cons_of_ne_nil hn.whole.ne_nil
    have hc : c.isDigit = true := hn.whole.isDigit c (hdigits ▸ List.mem_cons_self)
    rw [unsignedChars, hdigits, List.cons_append, List.cons_append] at hnumeral ⊢
    rw [← nextToken_of_isDigit hc] at hnumeral
    exact tokens_of_nextToken (isSpace_of_isDigit hc) hnumeral fun _ => h

theorem tokens_ofInt (i : Int) (h : endsWord rest = true) :
    tokens (Decimal.ofInt i ++ rest) = .number (.ofInt i) :: tokens rest := by
  rw [← chars_ofInt]
  exact tokens_numeral (proper_ofInt i) h

end Numerals

/-! ### Strings -/

/-- The piece as which a character is written: characters below the space without an escape of
their own are given by number. -/
def Piece.ofChar (c : Char) : Piece :=
  if c.toNat < 0x20 ∧ c ∉ ['\x08', '\t', '\n', '\x0c', '\r'] then .unit c.toNat else .char c

theorem hexValue?_digitChar {d : Nat} (h : d < 16) : Text.hexValue? (Nat.digitChar d) = some d := by
  revert d
  decide

/-- Two digits stand for any number below 256. -/
theorem unit?_digitChar {n : Nat} (h : n < 256) :
    unit? '0' '0' (Nat.digitChar (n / 16)) (Nat.digitChar (n % 16)) = some n := by
  have hzero : Text.hexValue? '0' = some 0 := by decide
  unfold unit?
  rw [hzero, hexValue?_digitChar (by omega), hexValue?_digitChar (by omega)]
  simp only [Option.bind_eq_bind, Option.bind_some, Option.pure_def, Option.some.injEq]
  omega

theorem scanString_unit (done : List Piece) {a b c d : Char} {n : Nat}
    (h : unit? a b c d = some n) (rest : List Char) :
    scanString done ('\\' :: 'u' :: a :: b :: c :: d :: rest) =
      scanString (.unit n :: done) rest := by
  rw [scanString, h]

theorem scanString_escape (done : List Piece) {e c : Char} (h : escape? e = some c)
    (rest : List Char) :
    scanString done ('\\' :: e :: rest) = scanString (.char c :: done) rest := by
  have hu : e ≠ 'u' := by
    rintro rfl
    cases h
  rw [scanString]
  · rw [h]
  all_goals
    intros
    contradiction

theorem scanString_plain (done : List Piece) {c : Char} (hquote : c ≠ '"')
    (hbackslash : c ≠ '\\') (hcontrol : ¬ c.toNat < 0x20) (rest : List Char) :
    scanString done (c :: rest) = scanString (.char c :: done) rest := by
  rw [scanString]
  · rw [if_neg hcontrol]
  all_goals
    intros
    contradiction

/-- A written character is read as one piece. -/
theorem scanString_jsonChar (done : List Piece) (c : Char) (rest : List Char) :
    scanString done (Tree.jsonChar c ++ rest) = scanString (.ofChar c :: done) rest := by
  unfold Tree.jsonChar
  split_ifs with hquote hbackslash hb ht hn hf hr hcontrol
  -- Seven characters have an escape of one letter.
  rotate_left 7
  · rw [Piece.ofChar, if_pos (by simp [*])]
    exact scanString_unit done (unit?_digitChar (by omega)) rest
  · rw [Piece.ofChar, if_neg (by simp [hcontrol])]
    exact scanString_plain done hquote hbackslash hcontrol rest
  all_goals
    subst c
    exact scanString_escape done rfl rest

theorem scanString_flatMap_jsonChar (done : List Piece) (cs rest : List Char) :
    scanString done (cs.flatMap Tree.jsonChar ++ '"' :: rest) =
      .ok (done.reverse ++ cs.map Piece.ofChar, rest) := by
  induction cs generalizing done with
  | nil => rw [List.flatMap_nil, List.nil_append, scanString, List.map_nil, List.append_nil]
  | cons c cs ih =>
    rw [List.flatMap_cons, List.append_assoc, scanString_jsonChar, ih, List.reverse_cons,
      List.append_assoc, List.map_cons]
    rfl

/-- Pieces by number stand for single characters, so nothing has to be paired. -/
theorem joinPieces_map_ofChar (cs : List Char) : joinPieces (cs.map Piece.ofChar) = .chars cs := by
  induction cs with
  | nil => rfl
  | cons c cs ih =>
    rw [List.map_cons, Piece.ofChar]
    split_ifs with h
    · -- A number below the space is no unit of a pair.
      have htrailing : Piece.isTrailing c.toNat = false := by
        simp only [Piece.isTrailing, Bool.and_eq_false_imp, decide_eq_true_eq]
        omega
      have hleading : Piece.isLeading c.toNat = false := by
        simp only [Piece.isLeading, Bool.and_eq_false_imp, decide_eq_true_eq]
        omega
      rw [joinPieces.eq_def]
      dsimp only
      rw [htrailing, hleading, ih, Char.ofNat_toNat]
      rfl
    · rw [joinPieces, ih]
      rfl

theorem tokens_jsonString (s : String) (rest : List Char) :
    tokens (Tree.jsonString s ++ rest) = .string (some s) :: tokens rest := by
  refine tokens_of_nextToken rfl ?_ (by simp [Token.isWord])
  show stringToken ((s.toList.flatMap Tree.jsonChar ++ ['"']) ++ rest) = _
  rw [List.append_assoc, stringToken, List.singleton_append, scanString_flatMap_jsonChar]
  dsimp only
  rw [List.reverse_nil, List.nil_append, joinPieces_map_ofChar, Joined.text?, String.ofList_toList]

end Json

end TaggedUnion
