import TaggedUnion.Proofs.Rounding
import Mathlib.Algebra.Ring.Nat

/-!
# Integers as floating-point numbers

`x.IsNearest i` says that `x` is the floating-point number for an integer: it has the sign of the
integer, is the integer itself up to `2 ^ 53`, and no finite number is nearer, where of two numbers
at the same distance it is the one with the even significand.  This leaves one number
(`Binary64.IsNearest.unique`), and for integers of 64 bits `Binary64.ofInt` gives it
(`Binary64.isNearest_ofInt`).

Rounding takes a multiple of a power of two that is nearest (`Binary64.nearest_mul_distance_le`).
The other finite numbers are multiples of the same power, or lie below all numbers that are rounded
to this power, and then a multiple is nearer (`Binary64.multiple_or_farther`).
-/

namespace TaggedUnion.Binary64

variable {x y : Binary64} {n : Nat} {i : Int}

/-! ### The nearest multiple -/

/-- A quotient is rounded down or up to the nearer side, and a half to the even one. -/
theorem nearest_cases (n d : Nat) :
    (nearest n d = n / d ∧ 2 * (n % d) ≤ d ∧ (2 * (n % d) = d → n / d % 2 = 0)) ∨
      (nearest n d = n / d + 1 ∧ d ≤ 2 * (n % d) ∧ (2 * (n % d) = d → n / d % 2 = 1)) := by
  unfold nearest
  dsimp only
  split_ifs <;> omega

/-- No multiple is nearer than the one that is taken. -/
theorem nearest_mul_distance_le (n j : Nat) {d : Nat} (hd : 0 < d) :
    (((nearest n d * d : Nat) : Int) - n).natAbs ≤ (((j * d : Nat) : Int) - n).natAbs := by
  have hdiv := Nat.div_add_mod' n d
  have hmod := Nat.mod_lt n hd
  have hsucc : (n / d + 1) * d = n / d * d + d := Nat.succ_mul _ _
  have hside : j * d ≤ n / d * d ∨ (n / d + 1) * d ≤ j * d := by
    rcases Nat.lt_or_ge (n / d) j with h | h
    · exact .inr (Nat.mul_le_mul_right d h)
    · exact .inl (Nat.mul_le_mul_right d h)
  rcases nearest_cases n d with ⟨hdown, hhalf, -⟩ | ⟨hup, hhalf, -⟩
  · rw [hdown]
    omega
  · rw [hup, hsucc]
    omega

/-- Of two multiples at the same distance the even one is taken. -/
theorem nearest_tie {n j d : Nat} (hd : 0 < d) (hne : j ≠ nearest n d)
    (heq : (((j * d : Nat) : Int) - n).natAbs = (((nearest n d * d : Nat) : Int) - n).natAbs) :
    nearest n d % 2 = 0 ∧ j % 2 = 1 := by
  have hdiv := Nat.div_add_mod' n d
  have hmod := Nat.mod_lt n hd
  have hsucc : (n / d + 1) * d = n / d * d + d := Nat.succ_mul _ _
  -- A multiple is next to the number, or more than a unit away.
  have hside : (j + 1) * d ≤ n / d * d ∨ j = n / d ∨ j = n / d + 1 ∨
      (n / d + 1 + 1) * d ≤ j * d := by
    rcases Nat.lt_or_ge j (n / d) with h | h
    · exact .inl (Nat.mul_le_mul_right d h)
    · rcases Nat.lt_or_ge (n / d + 1) j with h' | h'
      · exact .inr (.inr (.inr (Nat.mul_le_mul_right d h')))
      · omega
  rw [Nat.succ_mul, Nat.succ_mul (n / d + 1)] at hside
  rcases nearest_cases n d with ⟨hdown, hhalf, heven⟩ | ⟨hup, hhalf, hodd⟩
  · rw [hdown] at hne heq ⊢
    rcases hside with h | rfl | rfl | h
    · omega
    · exact absurd rfl hne
    · omega
    · omega
  · rw [hup] at hne heq ⊢
    rw [hsucc] at heq
    rcases hside with h | rfl | rfl | h
    · omega
    · omega
    · exact absurd rfl hne
    · omega

/-! ### The nearest number -/

/-- The magnitude of a whole number of units, rounded to 53 bits. -/
def roundedMagnitude (n : Nat) : Nat :=
  (n.log2 - 52) * 2 ^ 52 + nearest n (2 ^ (n.log2 - 52))

theorem nearest_log2_le (n : Nat) : nearest n (2 ^ (n.log2 - 52)) ≤ 2 ^ 53 := by
  have h := nearest_scale_le n 1
  rwa [Nat.div_one, Nat.one_mul] at h

theorem le_nearest_log2 (h : n.log2 - 52 ≠ 0) : 2 ^ 52 ≤ nearest n (2 ^ (n.log2 - 52)) := by
  have hle := le_nearest_scale n 1 (by rwa [Nat.div_one])
  rwa [Nat.div_one, Nat.one_mul] at hle

/-- The parts of a number that was rounded.  What is rounded up to `2 ^ 53` has the next scale. -/
theorem units_of_magnitude {q s : Nat} (hx : x.magnitude = s * 2 ^ 52 + q) (hq : q ≤ 2 ^ 53)
    (hs : s = 0 ∨ 2 ^ 52 ≤ q) : x.units = q * 2 ^ s ∧ x.significand % 2 = q % 2 := by
  unfold units significand scale
  simp only [Nat.pow_eq, hx]
  rcases Nat.lt_or_eq_of_le hq with hlt | rfl
  · have hscale : (s * 2 ^ 52 + q) / 2 ^ 52 - 1 = s := by omega
    have hsignificand : (if s * 2 ^ 52 + q < 2 ^ 52 then s * 2 ^ 52 + q
        else 2 ^ 52 + (s * 2 ^ 52 + q) % 2 ^ 52) = q := by
      split_ifs <;> omega
    rw [hscale, hsignificand]
    exact ⟨rfl, rfl⟩
  · have hscale : (s * 2 ^ 52 + 2 ^ 53) / 2 ^ 52 - 1 = s + 1 := by omega
    have hsignificand : (if s * 2 ^ 52 + 2 ^ 53 < 2 ^ 52 then s * 2 ^ 52 + 2 ^ 53
        else 2 ^ 52 + (s * 2 ^ 52 + 2 ^ 53) % 2 ^ 52) = 2 ^ 52 := by
      split_ifs <;> omega
    rw [hscale, hsignificand, Nat.pow_succ' (n := s)]
    exact ⟨(Nat.mul_assoc (2 ^ 52) 2 (2 ^ s)).symm, rfl⟩

theorem units_of_rounded (hx : x.magnitude = roundedMagnitude n) :
    x.units = nearest n (2 ^ (n.log2 - 52)) * 2 ^ (n.log2 - 52) ∧
      x.significand % 2 = nearest n (2 ^ (n.log2 - 52)) % 2 := by
  apply units_of_magnitude hx (nearest_log2_le n)
  by_cases hs : n.log2 - 52 = 0
  · exact .inl hs
  · exact .inr (le_nearest_log2 hs)

theorem significand_lt (y : Binary64) : y.significand < 2 ^ 53 := by
  unfold significand
  simp only [Nat.pow_eq]
  split_ifs <;> omega

/-- A number is a multiple of the power to which a whole number is rounded, and an odd one only with
an odd significand, or it is farther from the whole number than what this is rounded to. -/
theorem multiple_or_farther (hx : x.magnitude = roundedMagnitude n) (y : Binary64) :
    (∃ j, y.units = j * 2 ^ (n.log2 - 52) ∧ (j % 2 = 1 → y.significand % 2 = 1)) ∨
      ((x.units : Int) - n).natAbs < ((y.units : Int) - n).natAbs := by
  have hnear := nearest_mul_distance_le n (2 ^ 52) (Nat.two_pow_pos (n.log2 - 52))
  rw [← (units_of_rounded hx).1, ← Nat.pow_add] at hnear
  rcases Nat.lt_or_ge y.scale (n.log2 - 52) with hlt | hle
  · -- The whole number is at least `2 ^ 52` times the power, and the other number is less.
    right
    have hn : 2 ^ (52 + (n.log2 - 52)) ≤ n := by
      have hne : n ≠ 0 := by
        rintro rfl
        simp at hlt
      have hlog : 52 + (n.log2 - 52) = n.log2 := by omega
      rw [hlog]
      exact Nat.log2_self_le hne
    have hy : y.units < 2 ^ (52 + (n.log2 - 52)) :=
      calc y.units = y.significand * 2 ^ y.scale := rfl
        _ < 2 ^ 53 * 2 ^ y.scale :=
            Nat.mul_lt_mul_of_pos_right (significand_lt y) (Nat.two_pow_pos _)
        _ = 2 ^ (53 + y.scale) := (Nat.pow_add 2 53 _).symm
        _ ≤ 2 ^ (52 + (n.log2 - 52)) := Nat.pow_le_pow_right (by decide) (by omega)
    generalize 2 ^ (52 + (n.log2 - 52)) = bound at hnear hn hy
    omega
  · left
    have hscale : y.scale = y.scale - (n.log2 - 52) + (n.log2 - 52) := by omega
    refine ⟨y.significand * 2 ^ (y.scale - (n.log2 - 52)), ?_, fun hodd => ?_⟩
    · rw [Nat.mul_assoc, ← Nat.pow_add, ← hscale]
      rfl
    · rw [Nat.mul_mod] at hodd
      rcases Nat.mod_two_eq_zero_or_one y.significand with heven | hodd'
      · rw [heven] at hodd
        simp at hodd
      · exact hodd'

theorem distance_le (hx : x.magnitude = roundedMagnitude n) (y : Binary64) :
    ((x.units : Int) - n).natAbs ≤ ((y.units : Int) - n).natAbs := by
  rcases multiple_or_farther hx y with ⟨j, hj, -⟩ | hlt
  · rw [hj, (units_of_rounded hx).1]
    exact nearest_mul_distance_le n j (Nat.two_pow_pos _)
  · exact Nat.le_of_lt hlt

theorem significand_of_tie (hx : x.magnitude = roundedMagnitude n) (hne : y.units ≠ x.units)
    (heq : ((y.units : Int) - n).natAbs = ((x.units : Int) - n).natAbs) :
    x.significand % 2 = 0 ∧ y.significand % 2 = 1 := by
  obtain ⟨hunits, hparity⟩ := units_of_rounded hx
  rcases multiple_or_farther hx y with ⟨j, hj, hodd⟩ | hlt
  · rw [hj, hunits] at hne heq
    obtain ⟨heven, hj⟩ := nearest_tie (Nat.two_pow_pos _) (fun h => hne (by rw [h])) heq
    exact ⟨hparity.trans heven, hodd hj⟩
  · omega

/-- What is a multiple of the power already is kept. -/
theorem units_of_multiple (hx : x.magnitude = roundedMagnitude n) {j : Nat}
    (hj : n = j * 2 ^ (n.log2 - 52)) : x.units = n := by
  have hle := nearest_mul_distance_le n j (Nat.two_pow_pos (n.log2 - 52))
  rw [← (units_of_rounded hx).1, ← hj] at hle
  omega

/-! ### Integers -/

/-- How many units make up the number one. -/
def unitsOfOne : Nat :=
  2 ^ 1074

/-- A finite number in units. -/
def signedUnits (x : Binary64) : Int :=
  if x.negative then -x.units else x.units

/-- Whether a number is the nearest one to an integer. -/
structure IsNearest (x : Binary64) (i : Int) : Prop where
  finite : x.isFinite
  negative : x.negative = decide (i < 0)
  exact : i.natAbs ≤ 2 ^ 53 → x.signedUnits = i * unitsOfOne
  nearest : ∀ y : Binary64, y.isFinite →
    (x.signedUnits - i * unitsOfOne).natAbs ≤ (y.signedUnits - i * unitsOfOne).natAbs
  /-- Of two absolute values at the same distance this one has the even significand. -/
  even : ∀ y : Binary64, y.isFinite → y.units ≠ x.units →
    (y.signedUnits - i * unitsOfOne).natAbs = (x.signedUnits - i * unitsOfOne).natAbs →
    x.significand % 2 = 0 ∧ y.significand % 2 = 1

/-- A number of the other sign is no nearer to an integer than its absolute value is. -/
theorem distance_le_signed (i : Int) (y : Binary64) :
    ((y.units : Int) - (i.natAbs * unitsOfOne : Nat)).natAbs ≤
      (y.signedUnits - i * unitsOfOne).natAbs := by
  have habs : (i * unitsOfOne).natAbs = i.natAbs * unitsOfOne := Int.natAbs_mul i unitsOfOne
  rw [← habs, signedUnits]
  split_ifs <;> omega

theorem distance_eq_signed (h : y.negative = decide (i < 0)) :
    ((y.units : Int) - (i.natAbs * unitsOfOne : Nat)).natAbs =
      (y.signedUnits - i * unitsOfOne).natAbs := by
  have habs : (i * unitsOfOne).natAbs = i.natAbs * unitsOfOne := Int.natAbs_mul i unitsOfOne
  rw [← habs, signedUnits, h]
  by_cases hi : i < 0
  · have hneg : i * unitsOfOne ≤ 0 := Int.mul_nonpos_of_nonpos_of_nonneg (by omega) (by omega)
    simp only [hi, decide_true, if_true]
    omega
  · have hpos : 0 ≤ i * unitsOfOne := Int.mul_nonneg (by omega) (by omega)
    simp only [hi, decide_false, Bool.false_eq_true, if_false]
    omega

theorem log2_mul_two_pow_lt {a b : Nat} (k : Nat) (h : a < 2 ^ b) (hb : b ≠ 0) :
    (a * 2 ^ k).log2 < b + k := by
  by_cases hzero : a * 2 ^ k = 0
  · rw [hzero, Nat.log2_zero]
    omega
  · rw [Nat.log2_lt hzero, Nat.pow_add]
    exact Nat.mul_lt_mul_of_pos_right h (Nat.two_pow_pos k)

theorem roundedMagnitude_lt {a : Nat} (h : a < 2 ^ 64) :
    roundedMagnitude (a * unitsOfOne) < infinite := by
  have hlog := log2_mul_two_pow_lt 1074 h (by decide)
  rw [← unitsOfOne] at hlog
  have hle := nearest_log2_le (a * unitsOfOne)
  unfold roundedMagnitude infinite
  simp only [Nat.pow_eq]
  omega

theorem magnitude_ofInt (h : i.natAbs < 2 ^ 64) :
    (ofInt i).magnitude = roundedMagnitude (i.natAbs * unitsOfOne) := by
  have hof : magnitudeOf i.natAbs 1 = min infinite (roundedMagnitude (i.natAbs * unitsOfOne)) := by
    have hpow : ∀ k, Nat.pow 2 k = 2 ^ k := fun _ => Nat.pow_eq
    unfold magnitudeOf roundedMagnitude
    rw [hpow 1074, ← unitsOfOne]
    simp only [hpow, Nat.div_one, Nat.one_mul]
  rw [ofInt, magnitude_ofMagnitude _ (magnitudeOf_le _ _), hof]
  exact Nat.min_eq_right (Nat.le_of_lt (roundedMagnitude_lt h))

theorem negative_ofMagnitude (negative : Bool) {m : Nat} (h : m ≤ infinite) :
    (ofMagnitude negative m).negative = negative := by
  have hlt : m < 2 ^ 63 := Nat.lt_of_le_of_lt h (by decide)
  unfold Binary64.negative ofMagnitude
  simp only [Nat.pow_eq, Nat.toUInt64_eq, UInt64.toNat_ofNat']
  cases negative <;> simp <;> omega

theorem negative_ofInt (i : Int) : (ofInt i).negative = decide (i < 0) :=
  negative_ofMagnitude _ (magnitudeOf_le _ _)

/-- What has 53 bits in front of zeros, or one more as the next power of two, is a multiple of the
power to which it is rounded. -/
theorem exists_eq_mul_two_pow {a : Nat} (h : a ≤ 2 ^ 53) (k : Nat) :
    ∃ j, a * 2 ^ k = j * 2 ^ ((a * 2 ^ k).log2 - 52) := by
  rcases Nat.lt_or_eq_of_le h with hlt | rfl
  · have hlog := log2_mul_two_pow_lt k hlt (by decide)
    have hdvd : 2 ^ ((a * 2 ^ k).log2 - 52) ∣ 2 ^ k := Nat.pow_dvd_pow 2 (by omega)
    obtain ⟨j, hj⟩ := Nat.dvd_mul_left_of_dvd hdvd a
    exact ⟨j, by rwa [Nat.mul_comm j]⟩
  · refine ⟨2 ^ 52, ?_⟩
    rw [← Nat.pow_add, Nat.log2_two_pow, ← Nat.pow_add]
    congr 1
    omega

/-- Integers of 64 bits become the nearest numbers. -/
theorem isNearest_ofInt (h : i.natAbs < 2 ^ 64) : (ofInt i).IsNearest i := by
  have hmagnitude := magnitude_ofInt h
  have hnegative := negative_ofInt i
  have hdistance := distance_eq_signed hnegative
  refine ⟨?_, hnegative, fun hexact => ?_, fun y _ => ?_, fun y _ hne heq => ?_⟩
  · have hlt := roundedMagnitude_lt h
    rw [← hmagnitude] at hlt
    exact decide_eq_true hlt
  · obtain ⟨j, hj⟩ := exists_eq_mul_two_pow hexact 1074
    rw [← unitsOfOne] at hj
    rw [units_of_multiple hmagnitude hj] at hdistance
    omega
  · rw [← hdistance]
    exact Nat.le_trans (distance_le hmagnitude y) (distance_le_signed i y)
  · -- A number at the same distance with its sign is at the same distance without it.
    have hle := distance_le hmagnitude y
    have hsigned := distance_le_signed i y
    rw [heq, ← hdistance] at hsigned
    exact significand_of_tie hmagnitude hne (Nat.le_antisymm hsigned hle)

theorem isNearest_ofInt64 (n : Int64) : (ofInt n.toInt).IsNearest n.toInt := by
  have hlower := n.le_toInt
  have hupper := n.toInt_lt
  exact isNearest_ofInt (by omega)

-- Next to `2 ^ 53` the odd integers lie between two numbers and go to the even significand.
example : ofInt (-9007199254740993) = ofInt (-9007199254740992) ∧
    ofInt (-9007199254740995) = ofInt (-9007199254740996) := by
  decide +kernel

/-- The sign and the magnitude make up the bits. -/
theorem eq_of_magnitude_eq (hnegative : x.negative = y.negative)
    (hmagnitude : x.magnitude = y.magnitude) : x = y := by
  have hx := x.bits.toNat_lt
  have hy := y.bits.toNat_lt
  simp only [Binary64.negative, magnitude, Nat.pow_eq, decide_eq_decide] at hnegative hmagnitude
  have hbits : x.bits = y.bits := UInt64.toNat.inj (by omega)
  cases x
  cases y
  exact congrArg Binary64.mk hbits

/-- An integer has one nearest number. -/
theorem IsNearest.unique (hx : x.IsNearest i) (hy : y.IsNearest i) : x = y := by
  have hdistance := Nat.le_antisymm (hy.nearest x hx.finite) (hx.nearest y hy.finite)
  have hunits : x.units = y.units := by
    by_contra hne
    have hodd := (hx.even y hy.finite (Ne.symm hne) hdistance).2
    have heven := (hy.even x hx.finite hne hdistance.symm).1
    omega
  apply eq_of_magnitude_eq (hx.negative.trans hy.negative.symm)
  rcases Nat.lt_trichotomy x.magnitude y.magnitude with h | h | h
  · exact absurd hunits (Nat.ne_of_lt (units_lt_units h))
  · exact h
  · exact absurd hunits.symm (Nat.ne_of_lt (units_lt_units h))

end TaggedUnion.Binary64
