import TaggedUnion.Proofs.Json.Tokens

/-!
# Floating-point numbers as JSON text

A finite number is written as one numeral, whose parts have digits where the grammar wants them, and
any other number as null (`Tree.exists_jsonNumber`).  The digits do not start with a zero, since
zero is not in the interval of another number (`Binary64.shortest_cases`); then both layouts put
digits on each side of the point.
-/

namespace TaggedUnion

open Json Numeral

/-! ### Shortest digits -/

namespace Binary64

/-- Zero is not in the interval of another number. -/
theorem Interval.point?_ne_zero {i : Interval} {tie : Tie} {power : Int} {n : Nat}
    (hlow : 0 < i.low) (h : i.point? tie power = some n) : n ≠ 0 := by
  unfold point? at h
  extract_lets up grid inside m rest at h
  have hup : 0 < up := Nat.pow_pos (by decide)
  have hinside : inside 0 = false := by
    have hpos : 0 < i.low * up := Nat.mul_pos hlow hup
    unfold inside
    simp only [Nat.zero_mul]
    split_ifs
    · simp; omega
    · simp
  -- Of the two neighbours on the grid, the upper one is not zero anyway.
  have hn : (n = m ∧ inside m = true) ∨ n = m + 1 := by
    clear_value inside m rest grid
    grind
  rcases hn with ⟨rfl, hm⟩ | rfl
  · intro hzero
    rw [hzero, hinside] at hm
    cases hm
  · exact Nat.succ_ne_zero m

theorem low_interval_pos {x : Binary64} (h : x.isZero = false) : 0 < x.interval.low := by
  have hmagnitude : x.magnitude ≠ 0 := by simpa [isZero] using h
  have hsignificand : 0 < x.significand := by
    unfold significand
    split_ifs
    · omega
    · exact Nat.add_pos_left (Nat.pow_pos (by decide)) _
  unfold interval
  refine Nat.mul_pos ?_ (Nat.pow_pos (by decide))
  split_ifs <;> omega

/-- The digits of a number other than zero are not zero, unless none are found. -/
theorem shortest_cases {x : Binary64} (h : x.isZero = false) (tie : Tie) :
    (x.shortest tie).1 ≠ 0 ∨ x.shortest tie = (0, 0) := by
  unfold shortest
  extract_lets i top found
  cases hfound : found with
  | none => exact .inr rfl
  | some p =>
    obtain ⟨k, -, hk⟩ := List.exists_of_findSome?_eq_some hfound
    obtain ⟨n, hn, rfl⟩ := Option.map_eq_some_iff.mp hk
    exact .inl (Interval.point?_ne_zero (low_interval_pos h) hn)

end Binary64

/-! ### Layouts -/

namespace Tree

variable {digits : List Char} {power : Int}

theorem isDigits_zero : IsDigits ['0'] := by
  refine ⟨List.cons_ne_nil _ _, fun c hc => ?_⟩
  rw [List.mem_singleton.mp hc]
  rfl

theorem isDigits_append_zeros (h : IsDigits digits) (count : Nat) :
    IsDigits (digits ++ List.replicate count '0') ∧
      IsDigits (List.replicate count '0' ++ digits) := by
  have hall : ∀ c, c ∈ digits ∨ c ∈ List.replicate count '0' → c.isDigit = true := by
    rintro c (hc | hc)
    · exact h.isDigit c hc
    · rw [List.eq_of_mem_replicate hc]
      rfl
  refine ⟨⟨?_, fun c hc => hall c (List.mem_append.mp hc)⟩,
    ⟨?_, fun c hc => hall c (List.mem_append.mp hc).symm⟩⟩
  · simp [h.ne_nil]
  · simp [h.ne_nil]

theorem exists_layPositional_of_nonneg (hdigits : IsDigits digits) (hpower : 0 ≤ power)
    (hzero : digits.head? = some '0' → digits = ['0'] ∧ power = 0) :
    ∃ n : Numeral, n.Proper ∧ jsonFloat.layPositional digits power = n.unsignedChars := by
  refine ⟨{ whole := digits ++ List.replicate power.toNat '0', fraction := some ['0'] },
    ⟨(isDigits_append_zeros hdigits _).1, fun h => ?_, by simpa using isDigits_zero, by simp⟩, ?_⟩
  · -- No zero is put behind a zero.
    rw [List.head?_append_of_ne_nil _ hdigits.ne_nil] at h
    obtain ⟨rfl, rfl⟩ := hzero h
    rfl
  · rw [FloatFormat.layPositional, if_pos hpower]
    rfl

theorem exists_layPositional_of_lt (hdigits : IsDigits digits) (hpower : ¬0 ≤ power)
    (hplaces : (-power).toNat < digits.length) (hzero : digits.head? ≠ some '0') :
    ∃ n : Numeral, n.Proper ∧ jsonFloat.layPositional digits power = n.unsignedChars := by
  obtain ⟨c, more, rfl⟩ := List.exists_cons_of_ne_nil hdigits.ne_nil
  -- The first digit stays before the point and the last one comes behind it.
  obtain ⟨k, hk⟩ : ∃ k, (c :: more).length - (-power).toNat = k + 1 :=
    ⟨_, (Nat.succ_pred_eq_of_pos (by omega)).symm⟩
  refine ⟨{ whole := c :: more.take k, fraction := some (more.drop k) },
    ⟨?_, fun h => absurd h hzero, ?_, by simp⟩, ?_⟩
  · refine ⟨by simp, fun d hd => hdigits.isDigit d ?_⟩
    exact List.cons_subset_cons c (List.take_subset k more) hd
  · rintro _ ⟨⟩
    refine ⟨?_, fun d hd => hdigits.isDigit d (List.mem_cons_of_mem c (List.mem_of_mem_drop hd))⟩
    rw [ne_eq, List.drop_eq_nil_iff]
    rw [List.length_cons] at hk
    omega
  · rw [FloatFormat.layPositional, if_neg hpower]
    dsimp only
    rw [if_pos hplaces, hk, unsignedChars, fractionChars, exponentChars, List.append_nil]
    rfl

theorem exists_layPositional_of_le (hdigits : IsDigits digits) (hpower : ¬0 ≤ power)
    (hplaces : ¬(-power).toNat < digits.length) :
    ∃ n : Numeral, n.Proper ∧ jsonFloat.layPositional digits power = n.unsignedChars := by
  refine ⟨{ whole := ['0']
            fraction := some (List.replicate ((-power).toNat - digits.length) '0' ++ digits) },
    ⟨isDigits_zero, fun _ => rfl, ?_, by simp⟩, ?_⟩
  · simpa using (isDigits_append_zeros hdigits _).2
  · rw [FloatFormat.layPositional, if_neg hpower]
    dsimp only
    rw [if_neg hplaces, unsignedChars, fractionChars, exponentChars, List.append_nil]
    rfl

/-- The point comes behind the digits, among them, or before all of them. -/
theorem exists_layPositional (hdigits : IsDigits digits)
    (hzero : digits.head? = some '0' → digits = ['0'] ∧ power = 0) :
    ∃ n : Numeral, n.Proper ∧ jsonFloat.layPositional digits power = n.unsignedChars := by
  by_cases hpower : 0 ≤ power
  · exact exists_layPositional_of_nonneg hdigits hpower hzero
  · have hhead : digits.head? ≠ some '0' := fun h => hpower (Int.le_of_eq (hzero h).2.symm)
    by_cases hplaces : (-power).toNat < digits.length
    · exact exists_layPositional_of_lt hdigits hpower hplaces hhead
    · exact exists_layPositional_of_le hdigits hpower hplaces

/-- The exponent of a numeral in scientific form. -/
def exponentOf : Int → Exponent
  | .ofNat n => { negative := false, digits := Decimal.ofNat n }
  | .negSucc n => { negative := true, digits := Decimal.ofNat (n + 1) }

theorem isDigits_exponentOf (exponent : Int) : IsDigits (exponentOf exponent).digits := by
  cases exponent with
  | ofNat n => exact isDigits_ofNat n
  | negSucc n => exact isDigits_ofNat (n + 1)

theorem exponentChars_exponentOf (exponent : Int) :
    exponentChars (some (exponentOf exponent)) =
      'e' :: (if 0 ≤ exponent then jsonFloat.exponentPlus.toList else []) ++
        Decimal.ofInt exponent := by
  cases exponent with
  | ofNat n =>
    have hn : 0 ≤ Int.ofNat n := Int.natCast_nonneg n
    rw [if_pos hn]
    rfl
  | negSucc n =>
    rw [if_neg (by omega)]
    rfl

theorem exists_layScientific (hdigits : IsDigits digits) (exponent : Int) :
    ∃ n : Numeral, n.Proper ∧ jsonFloat.layScientific digits exponent = n.unsignedChars := by
  have hexponent : ∀ e ∈ some (exponentOf exponent), IsDigits e.digits := by
    rintro _ ⟨⟩
    exact isDigits_exponentOf exponent
  match digits, hdigits with
  | [], hdigits => exact absurd rfl hdigits.ne_nil
  | [d], hdigits =>
    refine ⟨{ whole := [d], exponent := some (exponentOf exponent) },
      ⟨hdigits, ?_, by simp, hexponent⟩, ?_⟩
    · rintro ⟨⟩
      rfl
    · rw [unsignedChars, exponentChars_exponentOf, FloatFormat.layScientific, List.append_assoc]
      rfl
  | d :: d' :: ds, hdigits =>
    have hd := hdigits.isDigit
    refine ⟨{ whole := [d], fraction := some (d' :: ds), exponent := some (exponentOf exponent) },
      ⟨⟨by simp, ?_⟩, ?_, ?_, hexponent⟩, ?_⟩
    · simpa using hd d List.mem_cons_self
    · rintro ⟨⟩
      rfl
    · rintro _ ⟨⟩
      exact ⟨List.cons_ne_nil d' ds, fun c hc => hd c (List.mem_cons_of_mem d hc)⟩
    · unfold FloatFormat.layScientific
      rw [unsignedChars, exponentChars_exponentOf, List.append_assoc]
      rfl

/-! ### Numbers -/

theorem exists_writeAbs (x : Binary64) :
    ∃ n : Numeral, n.Proper ∧ jsonFloat.writeAbs x = n.unsignedChars := by
  unfold FloatFormat.writeAbs
  cases hx : x.isZero with
  | true => exact exists_layPositional isDigits_zero fun _ => ⟨rfl, rfl⟩
  | false =>
    rw [if_neg Bool.false_ne_true]
    have hcases := Binary64.shortest_cases hx jsonFloat.tie
    rcases hshortest : x.shortest jsonFloat.tie with ⟨n, power⟩
    rw [hshortest] at hcases
    dsimp only
    split_ifs with hpositional
    · apply exists_layPositional (isDigits_ofNat n)
      intro hzero
      -- Digits that start with a zero are those of zero, which is written with no power of ten.
      obtain rfl := Decimal.eq_zero_of_head?_ofNat hzero
      rcases hcases with hn | heq
      · exact absurd rfl hn
      · rw [Decimal.ofNat]
        exact ⟨rfl, (Prod.mk.inj heq).2⟩
    · exact exists_layScientific (isDigits_ofNat n) _

/-- A number is null or a numeral of the grammar. -/
theorem exists_jsonNumber (x : Binary64) :
    jsonNumber x = "null".toList ∨ ∃ n : Numeral, n.Proper ∧ jsonNumber x = n.chars := by
  unfold jsonNumber
  split_ifs with hfinite
  · obtain ⟨n, hn, hwrite⟩ := exists_writeAbs x
    obtain ⟨hnan, hinfinite⟩ := Binary64.isFinite_iff.mp hfinite
    rw [Bool.not_eq_true] at hnan hinfinite
    refine .inr ⟨{ n with negative := x.negative },
      ⟨hn.whole, hn.leading, hn.fraction, hn.exponent⟩, ?_⟩
    unfold FloatFormat.write
    rw [hnan, hinfinite, hwrite]
    cases x.negative with
    | true =>
      show ("-" ++ String.ofList n.unsignedChars).toList = '-' :: n.unsignedChars
      simp
    | false => exact String.toList_ofList
  · exact .inl rfl

end Tree

end TaggedUnion
