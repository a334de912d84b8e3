import TaggedUnion.Json.Numeral
import TaggedUnion.Proofs.Json.Tokens
import Mathlib.Algebra.Ring.Nat

/-!
# Where numerals become too large

Rounding keeps the order of what is rounded (`Binary64.magnitudeOf_mono`): within one power of two
the nearest whole number does (`Binary64.nearest_mono`), and the significands of a larger power
start where those of a smaller one end.  So a product is at least as large as another one of smaller
factors (`Binary64.magnitude_mul_mono`), and each is finite or infinite by comparison with a few
that are evaluated.

The numeral of a whole number gives its leading digits, up to 64 bits of them, and the number of
digits behind (`Numeral.leads_gatherWhole_ofNat`).  Their product with the power of ten is infinite
from one whole number on, `Numeral.leastTooLarge` (`Numeral.magnitude_scaled_lt_iff`), so that from
there on a numeral stands for no number (`Numeral.float?_ofInt_of_le`,
`Numeral.float?_ofInt_of_lt`).
-/

namespace TaggedUnion

namespace Binary64

variable {a b den : Nat} {x y x' y' : Binary64}

/-! ### Rounding keeps order -/

theorem le_nearest (a den : Nat) : a / den ≤ nearest a den := by
  unfold nearest
  dsimp only
  split_ifs <;> omega

theorem nearest_le (a den : Nat) : nearest a den ≤ a / den + 1 := by
  unfold nearest
  dsimp only
  split_ifs <;> omega

theorem nearest_mono (h : a ≤ b) (den : Nat) : nearest a den ≤ nearest b den := by
  have hquotient : a / den ≤ b / den := Nat.div_le_div_right h
  rcases Nat.lt_or_eq_of_le hquotient with hlt | heq
  · calc nearest a den ≤ a / den + 1 := nearest_le a den
      _ ≤ b / den := hlt
      _ ≤ nearest b den := le_nearest b den
  · -- With the same quotient, the remainders are in order.
    have ha := Nat.div_add_mod a den
    have hb := Nat.div_add_mod b den
    rw [heq] at ha
    have hremainder : a % den ≤ b % den := by omega
    unfold nearest
    dsimp only
    rw [heq]
    split_ifs <;> omega

/-- A quotient has 53 bits at most in units of its power of two. -/
theorem nearest_scale_le (n den : Nat) :
    nearest n (den * 2 ^ ((n / den).log2 - 52)) ≤ 2 ^ 53 := by
  set scale := (n / den).log2 - 52
  have hlt : n / den < 2 ^ (scale + 53) := by
    refine Nat.lt_of_lt_of_le Nat.lt_log2_self (Nat.pow_le_pow_right (by decide) ?_)
    omega
  have hquotient : n / (den * 2 ^ scale) < 2 ^ 53 := by
    rw [← Nat.div_div_eq_div_mul, Nat.div_lt_iff_lt_mul (Nat.two_pow_pos scale), ← Nat.pow_add,
      Nat.add_comm]
    exact hlt
  exact Nat.le_trans (nearest_le _ _) hquotient

/-- A quotient has 53 bits in units of its power of two, unless this is the least power. -/
theorem le_nearest_scale (n den : Nat) (h : (n / den).log2 - 52 ≠ 0) :
    2 ^ 52 ≤ nearest n (den * 2 ^ ((n / den).log2 - 52)) := by
  set scale := (n / den).log2 - 52 with hscale
  have hne : n / den ≠ 0 := by
    intro hzero
    rw [hscale, hzero] at h
    exact h rfl
  have hle : 2 ^ (52 + scale) ≤ n / den := by
    have hlog : 52 + scale = (n / den).log2 := by omega
    rw [hlog]
    exact Nat.log2_self_le hne
  have hquotient : 2 ^ 52 ≤ n / (den * 2 ^ scale) := by
    rw [← Nat.div_div_eq_div_mul, Nat.le_div_iff_mul_le (Nat.two_pow_pos scale), ← Nat.pow_add]
    exact hle
  exact Nat.le_trans hquotient (le_nearest _ _)

theorem log2_mono (h : a ≤ b) : a.log2 ≤ b.log2 := by
  by_cases ha : a = 0
  · rw [ha, Nat.log2_zero]
    exact Nat.zero_le _
  · exact (Nat.le_log2 (by omega)).mpr (Nat.le_trans (Nat.log2_self_le ha) h)

theorem magnitudeOf_mono (h : a ≤ b) (den : Nat) : magnitudeOf a den ≤ magnitudeOf b den := by
  unfold magnitudeOf
  have hn : a * Nat.pow 2 1074 ≤ b * Nat.pow 2 1074 := Nat.mul_le_mul_right _ h
  generalize a * Nat.pow 2 1074 = m, b * Nat.pow 2 1074 = n at hn ⊢
  simp only [Nat.pow_eq]
  have hlog : (m / den).log2 ≤ (n / den).log2 := log2_mono (Nat.div_le_div_right hn)
  refine Nat.le_min.mpr ⟨Nat.min_le_left _ _, Nat.le_trans (Nat.min_le_right _ _) ?_⟩
  by_cases hscale : (m / den).log2 - 52 = (n / den).log2 - 52
  · rw [hscale]
    exact Nat.add_le_add_left (nearest_mono hn _) _
  · -- The significands of the larger power start where those of the smaller one end.
    have hupper := nearest_scale_le m den
    have hlower := le_nearest_scale n den (by omega)
    omega

theorem magnitudeOf_le (a den : Nat) : magnitudeOf a den ≤ infinite :=
  Nat.min_le_left _ _

theorem magnitude_ofMagnitude (negative : Bool) {m : Nat} (h : m ≤ infinite) :
    (ofMagnitude negative m).magnitude = m := by
  have hlt : m < 2 ^ 63 := Nat.lt_of_le_of_lt h (by decide)
  unfold magnitude ofMagnitude
  simp only [Nat.pow_eq, Nat.toUInt64_eq, UInt64.toNat_ofNat']
  cases negative <;> simp <;> omega

theorem magnitude_ofQuotient (a den : Nat) : (ofQuotient a den).magnitude = magnitudeOf a den :=
  magnitude_ofMagnitude false (magnitudeOf_le a den)

theorem magnitude_ofNat_mono (h : a ≤ b) : (ofNat a).magnitude ≤ (ofNat b).magnitude := by
  rw [ofNat, ofNat, magnitude_ofQuotient, magnitude_ofQuotient]
  exact magnitudeOf_mono h 1

/-! ### Products -/

/-- The magnitudes order the absolute values. -/
theorem units_lt_units (h : x.magnitude < y.magnitude) : x.units < y.units := by
  unfold units significand scale
  simp only [Nat.pow_eq]
  generalize x.magnitude = m, y.magnitude = n at h ⊢
  by_cases heq : m / 2 ^ 52 - 1 = n / 2 ^ 52 - 1
  · rw [heq]
    refine Nat.mul_lt_mul_of_pos_right ?_ (Nat.two_pow_pos _)
    split_ifs <;> omega
  · have hlt : m / 2 ^ 52 - 1 + 1 ≤ n / 2 ^ 52 - 1 := by omega
    calc (if m < 2 ^ 52 then m else 2 ^ 52 + m % 2 ^ 52) * 2 ^ (m / 2 ^ 52 - 1)
        < 2 ^ 52 * 2 * 2 ^ (m / 2 ^ 52 - 1) := by
          refine Nat.mul_lt_mul_of_pos_right ?_ (Nat.two_pow_pos _)
          split_ifs <;> omega
      _ = 2 ^ 52 * 2 ^ (m / 2 ^ 52 - 1 + 1) := by
          rw [Nat.mul_assoc, ← Nat.pow_succ']
      _ ≤ 2 ^ 52 * 2 ^ (n / 2 ^ 52 - 1) :=
          Nat.mul_le_mul_left _ (Nat.pow_le_pow_right (by decide) hlt)
      _ ≤ (if n < 2 ^ 52 then n else 2 ^ 52 + n % 2 ^ 52) * 2 ^ (n / 2 ^ 52 - 1) := by
          apply Nat.mul_le_mul_right
          split_ifs <;> omega

theorem units_mono (h : x.magnitude ≤ y.magnitude) : x.units ≤ y.units := by
  rcases Nat.lt_or_eq_of_le h with hlt | heq
  · exact Nat.le_of_lt (units_lt_units hlt)
  · unfold units significand scale
    rw [heq]

theorem magnitude_mul_mono (hx : x.magnitude ≤ x'.magnitude) (hy : y.magnitude ≤ y'.magnitude) :
    (x.mul y).magnitude ≤ (x'.mul y').magnitude := by
  rw [mul, mul, magnitude_ofQuotient, magnitude_ofQuotient]
  exact magnitudeOf_mono (Nat.mul_le_mul (units_mono hx) (units_mono hy)) _

theorem magnitude_mul_le (x y : Binary64) : (x.mul y).magnitude ≤ infinite := by
  rw [mul, magnitude_ofQuotient]
  exact magnitudeOf_le _ _

theorem isFinite_neg (h : x.isFinite) : x.neg.isFinite := by
  simp only [isFinite, decide_eq_true_eq] at h ⊢
  rwa [neg, magnitude_ofMagnitude _ (Nat.le_of_lt h)]

end Binary64

/-! ### Leading digits -/

namespace Json.Numeral

variable {digits : List Char} {m n s e : Nat}

theorem digitValue_lt {c : Char} (h : c.isDigit = true) : Decimal.digitValue c < 10 := by
  rw [Char.isDigit, Bool.and_eq_true, decide_eq_true_eq, decide_eq_true_eq] at h
  have hhigh : c.toNat ≤ 57 := h.2
  show c.toNat - 48 < 10
  omega

/-- Digits behind a number leave it in front. -/
theorem foldl_div (hdigits : ∀ c ∈ digits, c.isDigit = true) (m : Nat) :
    digits.foldl (fun n c => 10 * n + Decimal.digitValue c) m / 10 ^ digits.length = m := by
  induction digits generalizing m with
  | nil => exact Nat.div_one m
  | cons c digits ih =>
    have hc := digitValue_lt (hdigits c List.mem_cons_self)
    rw [List.foldl_cons, List.length_cons, Nat.pow_succ, ← Nat.div_div_eq_div_mul,
      ih fun d hd => hdigits d (List.mem_cons_of_mem _ hd)]
    omega

/-- The leading digits of a number: as many as 64 bits hold, and how many are behind them. -/
structure Leads (n s e : Nat) : Prop where
  eq_div : s = n / 10 ^ e
  lt : s < 2 ^ 64
  longest : e = 0 ∨ 2 ^ 64 ≤ n / 10 ^ (e - 1)

section

-- Else the bound of 64 bits is unfolded.
attribute [local irreducible] appendDigit?

theorem gatherWhole_nil (m : Nat) : gatherWhole m [] = (m, 0) :=
  rfl

theorem gatherWhole_cons (m : Nat) (c : Char) (digits : List Char) :
    gatherWhole m (c :: digits) = match appendDigit? m c with
      | some n => gatherWhole n digits
      | none => (m, digits.length + 1) :=
  rfl

end

theorem leads_gatherWhole (hdigits : ∀ c ∈ digits, c.isDigit = true) (hm : m < 2 ^ 64) :
    Leads (digits.foldl (fun n c => 10 * n + Decimal.digitValue c) m)
      (gatherWhole m digits).1 (gatherWhole m digits).2 := by
  induction digits generalizing m with
  | nil =>
    rw [gatherWhole_nil, List.foldl_nil]
    exact ⟨(Nat.div_one m).symm, hm, .inl rfl⟩
  | cons c digits ih =>
    have hc := digitValue_lt (hdigits c List.mem_cons_self)
    have hmore : ∀ d ∈ digits, d.isDigit = true :=
      fun d hd => hdigits d (List.mem_cons_of_mem _ hd)
    rw [List.foldl_cons, gatherWhole_cons, appendDigit?]
    by_cases hfits : 10 * m + Decimal.digitValue c < 2 ^ 64
    · simp only [Nat.pow_eq, if_pos hfits]
      exact ih hmore hfits
    · simp only [Nat.pow_eq, if_neg hfits]
      have hfront := foldl_div hmore (10 * m + Decimal.digitValue c)
      refine ⟨?_, hm, .inr ?_⟩
      · rw [Nat.pow_succ, ← Nat.div_div_eq_div_mul, hfront]
        omega
      · rw [Nat.add_sub_cancel, hfront]
        omega

theorem leads_gatherWhole_ofNat (n : Nat) :
    Leads n (gatherWhole 0 (Decimal.ofNat n)).1 (gatherWhole 0 (Decimal.ofNat n)).2 := by
  have hleads := leads_gatherWhole (fun _ => Decimal.isDigit_of_mem_ofNat (n := n)) (m := 0)
    (by decide)
  have htoNat := Decimal.toNat_ofNat n
  rw [Decimal.toNat] at htoNat
  rwa [htoNat] at hleads

/-! ### The least numeral that is too large -/

/-- The least whole number of 64 bits whose product with `10 ^ 289` is infinite. -/
def leastLead : Nat :=
  17976931348623156225

/-- The least whole number whose numeral is too large.  It is less than the greatest finite number,
since both factors of the product are rounded up. -/
def leastTooLarge : Nat :=
  leastLead * 10 ^ 289

theorem magnitude_scaled_mono {s' e' : Nat} (hs : s ≤ s') (he : e ≤ e') :
    ((Binary64.ofNat s).mul (powerOfTen e)).magnitude ≤
      ((Binary64.ofNat s').mul (powerOfTen e')).magnitude := by
  apply Binary64.magnitude_mul_mono (Binary64.magnitude_ofNat_mono hs)
  rw [powerOfTen, powerOfTen]
  exact Binary64.magnitude_ofNat_mono (Nat.pow_le_pow_right (by decide) he)

/-- Four products decide which others are infinite. -/
theorem magnitude_scaled_bounds :
    ((Binary64.ofNat (2 ^ 64 - 1)).mul (powerOfTen 288)).magnitude < Binary64.infinite ∧
    ((Binary64.ofNat (leastLead - 1)).mul (powerOfTen 289)).magnitude < Binary64.infinite ∧
    Binary64.infinite ≤ ((Binary64.ofNat leastLead).mul (powerOfTen 289)).magnitude ∧
    Binary64.infinite ≤ ((Binary64.ofNat (2 ^ 64 / 10)).mul (powerOfTen 290)).magnitude := by
  decide +kernel

/-- With digits behind them, the leading digits are as many as 64 bits hold. -/
theorem Leads.le (h : Leads n s e) (he : e ≠ 0) : 2 ^ 64 / 10 ≤ s := by
  have hpow : 10 ^ e = 10 ^ (e - 1) * 10 := by
    rw [← Nat.pow_succ, Nat.succ_eq_add_one, Nat.sub_one_add_one he]
  rw [h.eq_div, hpow, ← Nat.div_div_eq_div_mul]
  exact Nat.div_le_div_right (h.longest.resolve_left he)

theorem Leads.lt_mul_iff (h : Leads n s e) (m : Nat) : n < m * 10 ^ e ↔ s < m := by
  rw [h.eq_div, Nat.div_lt_iff_lt_mul (Nat.pow_pos (by decide))]

theorem Leads.lt_leastTooLarge (h : Leads n s e) (he : e < 289) : n < leastTooLarge :=
  calc n < 2 ^ 64 * 10 ^ e := (h.lt_mul_iff _).mpr h.lt
    _ ≤ 2 ^ 64 * 10 ^ 288 := Nat.mul_le_mul_left _ (Nat.pow_le_pow_right (by decide) (by omega))
    _ ≤ leastTooLarge := by decide +kernel

theorem Leads.leastTooLarge_le (h : Leads n s e) (he : 289 < e) : leastTooLarge ≤ n :=
  calc leastTooLarge ≤ 2 ^ 64 * 10 ^ 289 := by decide +kernel
    _ ≤ 2 ^ 64 * 10 ^ (e - 1) :=
        Nat.mul_le_mul_left _ (Nat.pow_le_pow_right (by decide) (by omega))
    _ ≤ n :=
        (Nat.le_div_iff_mul_le (Nat.pow_pos (by decide))).mp (h.longest.resolve_left (by omega))

/-- The product with a power of ten is infinite from one whole number on. -/
theorem magnitude_scaled_lt_iff (h : Leads n s e) :
    ((Binary64.ofNat s).mul (powerOfTen e)).magnitude < Binary64.infinite ↔ n < leastTooLarge := by
  obtain ⟨hsmall, hbelow, hfrom, hlarge⟩ := magnitude_scaled_bounds
  have hs := h.lt
  rcases Nat.lt_trichotomy e 289 with he | rfl | he
  · refine iff_of_true ?_ (h.lt_leastTooLarge he)
    exact Nat.lt_of_le_of_lt (magnitude_scaled_mono (by omega) (by omega)) hsmall
  · -- The power is the one of the bound, so the leading digits decide.
    rw [leastTooLarge, h.lt_mul_iff]
    constructor
    · intro hfinite
      by_contra hle
      have hmono := magnitude_scaled_mono (Nat.not_lt.mp hle) (Nat.le_refl 289)
      exact absurd hfinite (Nat.not_lt.mpr (Nat.le_trans hfrom hmono))
    · intro hlt
      have hmono := magnitude_scaled_mono (Nat.le_sub_one_of_lt hlt) (Nat.le_refl 289)
      exact Nat.lt_of_le_of_lt hmono hbelow
  · refine iff_of_false (Nat.not_lt.mpr ?_) (Nat.not_lt.mpr (h.leastTooLarge_le he))
    exact Nat.le_trans hlarge (magnitude_scaled_mono (h.le (by omega)) (by omega))

/-! ### Numerals of whole numbers -/

theorem isFinite_of_scaleUp? {x y : Binary64} (h : scaleUp? x e = some y) : y.isFinite := by
  unfold scaleUp? at h
  simp only [Binary64.isFinite, decide_eq_true_eq]
  by_cases he : e ≤ 308
  · rw [if_pos he, Option.ite_none_left_eq_some] at h
    obtain ⟨hinfinite, hy⟩ := h
    simp only [Binary64.isInfinite, decide_eq_true_eq] at hinfinite
    rw [← Option.some.inj hy]
    exact Nat.lt_of_le_of_ne (Binary64.magnitude_mul_le x (powerOfTen e)) hinfinite
  · rw [if_neg he, Option.ite_none_right_eq_some] at h
    obtain ⟨hzero, hy⟩ := h
    simp only [Binary64.isZero, decide_eq_true_eq] at hzero
    rw [← Option.some.inj hy, hzero]
    decide

theorem scaleUp?_eq_none_iff (h : Leads n s e) :
    scaleUp? (Binary64.ofNat s) e = none ↔ leastTooLarge ≤ n := by
  unfold scaleUp?
  by_cases he : e ≤ 308
  · rw [if_pos he, ← Nat.not_lt, ← magnitude_scaled_lt_iff h]
    have hle := Binary64.magnitude_mul_le (Binary64.ofNat s) (powerOfTen e)
    simp only [Binary64.isInfinite, decide_eq_true_eq, ite_eq_left_iff, reduceCtorEq, imp_false,
      not_not]
    omega
  · -- The leading digits are not zero, so no power of ten beyond the greatest is left out.
    have hone : 0 < (Binary64.ofNat 1).magnitude := by decide +kernel
    have hlead := h.le (by omega)
    have hmono : (Binary64.ofNat 1).magnitude ≤ (Binary64.ofNat s).magnitude :=
      Binary64.magnitude_ofNat_mono (by omega)
    have hzero : (Binary64.ofNat s).isZero = false := by
      simp only [Binary64.isZero, decide_eq_false_iff_not]
      omega
    rw [if_neg he, hzero]
    exact iff_of_true rfl (h.leastTooLarge_le (by omega))

theorem absFloat?_ofNat (negative : Bool) (n : Nat) :
    absFloat? { negative, whole := Decimal.ofNat n } =
      scaleUp? (Binary64.ofNat (gatherWhole 0 (Decimal.ofNat n)).1)
        (gatherWhole 0 (Decimal.ofNat n)).2 := by
  unfold absFloat? gathered
  rfl

theorem absFloat?_ofInt (i : Int) :
    ∃ s e, Leads i.natAbs s e ∧ (ofInt i).absFloat? = scaleUp? (Binary64.ofNat s) e := by
  cases i with
  | ofNat n => exact ⟨_, _, leads_gatherWhole_ofNat n, absFloat?_ofNat false n⟩
  | negSucc n => exact ⟨_, _, leads_gatherWhole_ofNat (n + 1), absFloat?_ofNat true (n + 1)⟩

/-- The numeral of a whole number is too large from one number on. -/
theorem float?_ofInt_of_le {i : Int} (h : leastTooLarge ≤ i.natAbs) : (ofInt i).float? = none := by
  obtain ⟨s, e, hleads, habs⟩ := absFloat?_ofInt i
  rw [float?, habs, (scaleUp?_eq_none_iff hleads).mpr h, Option.bind_none]

/-- Below that number, the numeral of a whole number stands for a finite number. -/
theorem float?_ofInt_of_lt {i : Int} (h : i.natAbs < leastTooLarge) :
    ∃ x hx, (ofInt i).float? = some (.float x hx) := by
  obtain ⟨s, e, hleads, habs⟩ := absFloat?_ofInt i
  cases hscale : scaleUp? (Binary64.ofNat s) e with
  | none => exact absurd ((scaleUp?_eq_none_iff hleads).mp hscale) (Nat.not_le.mpr h)
  | some x =>
    have hx := isFinite_of_scaleUp? hscale
    have hsigned : (if (ofInt i).negative then x.neg else x).isFinite := by
      split_ifs
      · exact Binary64.isFinite_neg hx
      · exact hx
    refine ⟨_, hsigned, ?_⟩
    rw [float?, habs, hscale, Option.bind_some, Number.ofFloat?, dif_pos hsigned]

end Json.Numeral

end TaggedUnion
