import Mathlib

/-!
# Rounding to the Nearest Double

Which numbers are rounded to a double.

A double is rounded from a mantissa and two bits, which say whether the rest
reaches one half and whether it is anything else. `Describes` says what such a
mantissa knows of a number. Dropping a binary place keeps that knowledge, so a
number may be measured in finer places first and rounded later.

The numbers that are rounded to a double reach from it halfway to its neighbours.
Below a power of two the neighbour is half as far away. There a number has one
place more than the double above it, its mantissa is rounded up to a power of two,
and only the shift behind that gives the double.

All of this is about exact numbers, so a product or a quotient of doubles is
rounded once, and so is a decimal.

## Main definitions

* `Describes`: What a mantissa with its two bits knows of a number.
* `Canonical`: The mantissa and the exponent of a positive double.
* `Narrow`: The neighbour below is half as far away.
* `RoundsTo`: The numbers that are rounded to a double.
* `Measured`: What is known of a number before it is rounded.

## Theorems

* `Describes.rounded`: A mantissa is rounded to the nearest integer.
* `RoundsTo.lower`, `RoundsTo.upper`: How small and how large such numbers are.
* `Measured.round_eq`: A number is rounded to the double among whose numbers it lies.
* `mul_eq`, `div_eq`: So are products and quotients.
-/

namespace WidgetSync

namespace Decimal

open Float.Model Float.Model.UnpackedFloat

/-- A power with an integer exponent, the part below zero on the other side. -/
theorem zpow_toNat {b : ℕ} (hb : 0 < b) (e : ℤ) :
    (b : ℚ) ^ e * (b : ℚ) ^ (-e).toNat = (b : ℚ) ^ e.toNat := by
  have hne : (b : ℚ) ≠ 0 := by exact_mod_cast hb.ne'
  rw [← zpow_natCast, ← zpow_natCast, ← zpow_add₀ hne]
  congr 1
  omega

/-- The number is the mantissa and a fraction, and the two bits say how the fraction
    compares with nothing and with one half. -/
def Describes (em : ExtendedMantissa) (r : ℚ) : Prop :=
  match em.roundBit, em.stickyBit with
  | false, false => r = em.mantissa
  | false, true => (em.mantissa : ℚ) < r ∧ r < em.mantissa + 1 / 2
  | true, false => r = em.mantissa + 1 / 2
  | true, true => (em.mantissa : ℚ) + 1 / 2 < r ∧ r < em.mantissa + 1

namespace Describes

variable {em : ExtendedMantissa} {r : ℚ}

theorem floor (h : Describes em r) : (em.mantissa : ℚ) ≤ r ∧ r < em.mantissa + 1 := by
  obtain ⟨m, round, sticky⟩ := em
  cases round <;> cases sticky <;> simp only [Describes] at h ⊢ <;>
    exact ⟨by linarith, by linarith⟩

/-- Dropping a binary place halves the number. -/
theorem shiftRightOne (h : Describes em r) : Describes em.shiftRightOne (r / 2) := by
  obtain ⟨m, round, sticky⟩ := em
  have hdiv : (m : ℚ) = 2 * (m / 2 : ℕ) + (m % 2 : ℕ) := by
    exact_mod_cast (Nat.div_add_mod m 2).symm
  -- The place that is dropped becomes the new round bit.
  rcases Nat.mod_two_eq_zero_or_one m with hbit | hbit
  all_goals
    rw [hbit] at hdiv
    push_cast at hdiv
    cases round <;> cases sticky <;>
      simp only [Describes, ExtendedMantissa.shiftRightOne, hbit, bne_self_eq_false,
        show (1 != 0) = true from rfl, Bool.or_false, Bool.or_true] at h ⊢
  all_goals first
    | linarith
    | exact ⟨by linarith, by linarith⟩

theorem shiftRight (h : Describes em r) (n : ℕ) : Describes (em >>> n) (r / 2 ^ n) := by
  induction n with
  | zero =>
      rw [pow_zero, div_one]
      exact h
  | succ n ih =>
      rw [pow_succ, ← div_div]
      exact ih.shiftRightOne

/-- The mantissa is rounded to an integer that is nearer than one half, or as near and
    even. -/
theorem rounded (h : Describes em r) {n : ℕ}
    (hlow : (n : ℚ) - 1 / 2 < r ∨ (n : ℚ) - 1 / 2 = r ∧ n % 2 = 0)
    (hhigh : r < n + 1 / 2 ∨ r = n + 1 / 2 ∧ n % 2 = 0) : em.roundedMantissa = n := by
  have hle : (n : ℚ) - 1 / 2 ≤ r := hlow.elim le_of_lt fun h => le_of_eq h.1
  have hge : r ≤ n + 1 / 2 := hhigh.elim le_of_lt fun h => le_of_eq h.1
  have hfloor := h.floor
  -- The mantissa is the integer or the one below it.
  have hnear : n = em.mantissa ∨ n = em.mantissa + 1 := by
    have hlower : em.mantissa < n + 1 := by
      exact_mod_cast (show (em.mantissa : ℚ) < n + 1 by linarith)
    have hupper : n < em.mantissa + 2 := by
      exact_mod_cast (show (n : ℚ) < em.mantissa + 2 by linarith)
    omega
  obtain ⟨m, round, sticky⟩ := em
  simp only at hnear
  cases round <;> cases sticky <;>
    simp only [Describes, ExtendedMantissa.roundedMantissa, ExtendedMantissa.accuracy,
      Accuracy.roundToNearestEven] at h ⊢
  all_goals
    rcases hnear with rfl | rfl
    all_goals push_cast at hlow hhigh hle hge
  -- Below one half the mantissa stays, above it goes up.
  case false.false.inl | false.true.inl | true.true.inr => rfl
  case false.false.inr | false.true.inr | true.true.inl => exfalso; linarith
  -- In the middle the even one of the two is taken.
  case true.false.inl =>
    rcases hhigh with hhigh | ⟨-, heven⟩
    · exfalso
      linarith
    · rw [heven, Nat.add_zero]
  case true.false.inr =>
    rcases hlow with hlow | ⟨-, heven⟩
    · exfalso
      linarith
    · omega

theorem exact (m : ℕ) : Describes (ExtendedMantissa.ofMantissaAndAccuracy m .exact) m := rfl

/-- The remainder says how the fraction compares with one half. -/
theorem compare_half (rest : ℕ) {b : ℕ} (hb : 0 < b) :
    compare (2 * rest) b = cmp ((rest : ℚ) / b) (1 / 2) := by
  have hpos : (0 : ℚ) < 2 * b := by positivity
  have hleft : (rest : ℚ) / b * (2 * b) = (2 * rest : ℕ) := by
    push_cast
    field_simp
  have hright : (1 / 2 : ℚ) * (2 * b) = b := by ring
  have hmono : StrictMono ((↑) : ℕ → ℚ) := Nat.strictMono_cast
  rw [← cmp_mul_pos_right hpos, hleft, hright, hmono.cmp_map_eq, cmp_eq_compare]

/-- A quotient is described by its whole part and what the remainder says. -/
theorem fraction (a : ℕ) {b : ℕ} (hb : 0 < b) :
    Describes (ExtendedMantissa.ofMantissaAndAccuracy (a / b) (accuracyOfFraction (a % b) b))
      (a / b) := by
  have hpos : (0 : ℚ) < b := by exact_mod_cast hb
  have hsum : (a : ℚ) = b * (a / b : ℕ) + (a % b : ℕ) := by
    exact_mod_cast (Nat.div_add_mod a b).symm
  have hquotient : (a : ℚ) / b = (a / b : ℕ) + (a % b : ℕ) / b := by
    rw [div_eq_iff hpos.ne', add_mul, div_mul_cancel₀ _ hpos.ne', mul_comm _ (b : ℚ)]
    exact hsum
  have hone : ((a % b : ℕ) : ℚ) / b < 1 :=
    (div_lt_one hpos).mpr (by exact_mod_cast Nat.mod_lt a hb)
  rw [hquotient]
  -- Only the part that is left over counts, and on which side of one half it lies.
  generalize a / b = whole
  generalize a % b = rest at hone
  unfold accuracyOfFraction
  split
  case isTrue hzero =>
    simp only [Describes, ExtendedMantissa.ofMantissaAndAccuracy, hzero, Nat.cast_zero, zero_div,
      add_zero]
  case isFalse hzero =>
    have hnonzero : 0 < (rest : ℚ) / b :=
      div_pos (by exact_mod_cast Nat.pos_of_ne_zero hzero) hpos
    rw [compare_half rest hb]
    cases hcompare : cmp ((rest : ℚ) / b) (1 / 2) with
    | lt =>
        have hlt := (cmp_eq_lt_iff _ _).mp hcompare
        change (whole : ℚ) < whole + rest / b ∧ whole + rest / b < (whole : ℚ) + 1 / 2
        exact ⟨by linarith, by linarith⟩
    | eq =>
        rw [(cmp_eq_eq_iff _ _).mp hcompare]
        rfl
    | gt =>
        have hgt := (cmp_eq_gt_iff _ _).mp hcompare
        change (whole : ℚ) + 1 / 2 < whole + rest / b ∧ whole + rest / b < (whole : ℚ) + 1
        exact ⟨by linarith, by linarith⟩

end Describes

/-- The exponent of the last place that a double of this size has. -/
theorem targetExponent_eq (m : ℕ) (e : ℤ) :
    Format.binary64.targetExponent (totalExponent m e) = max (m.log2 + e - 52) (-1074) := by
  simp only [Format.targetExponent, totalExponent, Format.mantissaBits, Format.minExponent]
  norm_num
  omega

/-- A positive double, in the form in which its mantissa is unique. -/
structure Canonical (m : ℕ) (e : ℤ) : Prop where
  pos : 0 < m
  below : m < 2 ^ 53
  low : -1074 ≤ e
  high : e ≤ 971
  /-- Only the smallest doubles have fewer places. -/
  normal : 2 ^ 52 ≤ m ∨ e = -1074

/-- The neighbour below is half as far away as the neighbour above. -/
def Narrow (m : ℕ) (e : ℤ) : Prop :=
  m = 2 ^ 52 ∧ -1074 < e

instance (m : ℕ) (e : ℤ) : Decidable (Narrow m e) :=
  inferInstanceAs (Decidable (_ ∧ _))

/-- The number lies among those that are rounded to the double. -/
structure RoundsTo (q : ℚ) (m : ℕ) (e : ℤ) : Prop where
  low : ((m : ℚ) - if Narrow m e then 1 / 4 else 1 / 2) * 2 ^ e < q ∨
    ((m : ℚ) - if Narrow m e then 1 / 4 else 1 / 2) * 2 ^ e = q ∧ m % 2 = 0
  high : q < ((m : ℚ) + 1 / 2) * 2 ^ e ∨ q = ((m : ℚ) + 1 / 2) * 2 ^ e ∧ m % 2 = 0

namespace RoundsTo

variable {q : ℚ} {m : ℕ} {e : ℤ}

theorem half_le (h : RoundsTo q m e) : ((m : ℚ) - 1 / 2) * 2 ^ e ≤ q := by
  have hpos : (0 : ℚ) < 2 ^ e := by positivity
  have hle : ((m : ℚ) - 1 / 2) * 2 ^ e
      ≤ ((m : ℚ) - if Narrow m e then 1 / 4 else 1 / 2) * 2 ^ e := by
    refine mul_le_mul_of_nonneg_right ?_ hpos.le
    split
    · linarith
    · exact le_refl _
  exact hle.trans (h.low.elim le_of_lt fun h => le_of_eq h.1)

/-- The number in units of the last place, around the mantissa. -/
theorem around (h : RoundsTo q m e) :
    ((m : ℚ) - 1 / 2 < q / 2 ^ e ∨ (m : ℚ) - 1 / 2 = q / 2 ^ e ∧ m % 2 = 0) ∧
      (q / 2 ^ e < m + 1 / 2 ∨ q / 2 ^ e = m + 1 / 2 ∧ m % 2 = 0) := by
  have hpos : (0 : ℚ) < 2 ^ e := by positivity
  rw [lt_div_iff₀ hpos, eq_div_iff hpos.ne', div_lt_iff₀ hpos, div_eq_iff hpos.ne']
  refine ⟨?_, h.high⟩
  have hlow := h.low
  split at hlow
  · left
    have hless := mul_lt_mul_of_pos_right (show (m : ℚ) - 1 / 2 < m - 1 / 4 by linarith) hpos
    exact hlow.elim hless.trans fun heq => heq.1 ▸ hless
  · exact hlow

theorem le_half (h : RoundsTo q m e) : q ≤ ((m : ℚ) + 1 / 2) * 2 ^ e :=
  h.high.elim le_of_lt fun h => le_of_eq h.1

/-- In a narrow place the lower bound is nearer. -/
theorem quarter_le (h : RoundsTo q m e) (hnarrow : Narrow m e) :
    ((m : ℚ) - 1 / 4) * 2 ^ e ≤ q := by
  have hlow := h.low
  rw [if_pos hnarrow] at hlow
  exact hlow.elim le_of_lt fun h => le_of_eq h.1

/-- A double is rounded to itself. -/
theorem self (m : ℕ) (e : ℤ) : RoundsTo (m * 2 ^ e) m e := by
  have hpos : (0 : ℚ) < 2 ^ e := by positivity
  refine ⟨.inl ?_, .inl ?_⟩
  · refine mul_lt_mul_of_pos_right ?_ hpos
    split
    · linarith
    · linarith
  · exact mul_lt_mul_of_pos_right (by linarith) hpos

section Bounds

variable (h : RoundsTo q m e) (hm : Canonical m e)

include h hm

/-- What is rounded to a double has no more places than the double. -/
theorem below : q < 2 ^ 53 * 2 ^ e := by
  have hpos : (0 : ℚ) < 2 ^ e := by positivity
  have hless : (m : ℚ) ≤ 2 ^ 53 - 1 := by
    have := hm.below
    exact_mod_cast (show (m : ℤ) ≤ 2 ^ 53 - 1 by omega)
  exact lt_of_le_of_lt h.le_half (mul_lt_mul_of_pos_right (by linarith) hpos)

/-- What is rounded to a double is not much smaller than the smallest. -/
theorem lower : (2 : ℚ) ^ (-1075 : ℤ) ≤ q := by
  have hpos : (0 : ℚ) < 2 ^ e := by positivity
  have hone : (1 : ℚ) ≤ m := by exact_mod_cast hm.pos
  calc (2 : ℚ) ^ (-1075 : ℤ) = 1 / 2 * 2 ^ (-1074 : ℤ) := by
        rw [show (-1075 : ℤ) = -1 + -1074 by norm_num, zpow_add₀ two_ne_zero, zpow_neg_one, one_div]
    _ ≤ 1 / 2 * 2 ^ e :=
        mul_le_mul_of_nonneg_left (zpow_le_zpow_right₀ one_le_two hm.low) (by norm_num)
    _ ≤ (m - 1 / 2) * 2 ^ e := mul_le_mul_of_nonneg_right (by linarith) hpos.le
    _ ≤ q := h.half_le

/-- What is rounded to a double is not beyond all doubles. -/
theorem upper : q < 2 ^ (1024 : ℤ) :=
  calc q < 2 ^ 53 * 2 ^ e := h.below hm
    _ ≤ 2 ^ 53 * 2 ^ (971 : ℤ) :=
        mul_le_mul_of_nonneg_left (zpow_le_zpow_right₀ one_le_two hm.high) (by norm_num)
    _ = 2 ^ (1024 : ℤ) := by
        rw [← zpow_natCast, ← zpow_add₀ two_ne_zero]
        rfl

/-- Below a power of two only the double at the power is as near as that. -/
theorem narrow (he : e ≠ -1074) (hq : q < 2 ^ 52 * 2 ^ e) : Narrow m e := by
  have hpos : (0 : ℚ) < 2 ^ e := by positivity
  have hnormal := hm.normal.resolve_right he
  have hlow := hm.low
  refine ⟨?_, by omega⟩
  by_contra hne
  have hmore : (2 : ℚ) ^ 52 + 1 ≤ m := by
    exact_mod_cast (show (2 : ℕ) ^ 52 + 1 ≤ m by omega)
  have hle := mul_le_mul_of_nonneg_right (show (2 : ℚ) ^ 52 ≤ m - 1 / 2 by linarith) hpos.le
  exact absurd (hle.trans h.half_le) (not_le.mpr hq)

end Bounds

end RoundsTo

/-- What is known of a positive number before it is rounded: it is described in units of
    a power of two, and these are no coarser than the last place of the double. -/
structure Measured (q : ℚ) (m : ℕ) (e : ℤ) (accuracy : Accuracy) : Prop where
  describes : Describes (ExtendedMantissa.ofMantissaAndAccuracy m accuracy) (q / 2 ^ e)
  fine : e ≤ max (m.log2 + e - 52) (-1074)
  /-- A number smaller than the unit is smaller than the smallest double. -/
  small : m = 0 → e = -1074

theorem Canonical.log2_eq {M : ℕ} {E : ℤ} (h : Canonical M E) :
    max ((M.log2 : ℤ) + E - 52) (-1074) = E := by
  have hlow := h.low
  have hupper := (Nat.log2_lt h.pos.ne').mpr h.below
  rcases h.normal with hnormal | hE
  · have hlower := (Nat.le_log2 h.pos.ne').mpr hnormal
    omega
  · omega

/-- A double needs no shift. -/
theorem Canonical.shift {M : ℕ} {E : ℤ} (h : Canonical M E) :
    shiftToTargetExponent .binary64 M E .exact = (⟨M, false, false⟩, E) := by
  have hzero : (E - E).toNat = 0 := by rw [sub_self]; rfl
  simp only [shiftToTargetExponent, targetExponent_eq, h.log2_eq, shiftToExponent, hzero,
    Nat.cast_zero, add_zero]
  rfl

/-- A mantissa that was rounded up to a power of two is shifted by one place. -/
theorem shift_carry {E : ℤ} (h : -1074 < E) :
    shiftToTargetExponent .binary64 (2 ^ 53) (E - 1) .exact = (⟨2 ^ 52, false, false⟩, E) := by
  have htarget : max (((2 ^ 53 : ℕ).log2 : ℤ) + (E - 1) - 52) (-1074) = E := by
    rw [Nat.log2_two_pow]
    push_cast
    omega
  have hone : (E - (E - 1)).toNat = 1 := by omega
  simp only [shiftToTargetExponent, targetExponent_eq, htarget, shiftToExponent, hone,
    Nat.cast_one, sub_add_cancel]
  rfl

namespace Measured

variable {q : ℚ} {m M : ℕ} {e E : ℤ} {accuracy : Accuracy}

theorem floor (h : Measured q m e accuracy) : (m : ℚ) * 2 ^ e ≤ q ∧ q < (m + 1) * 2 ^ e := by
  have hpos : (0 : ℚ) < 2 ^ e := by positivity
  have hmantissa : (ExtendedMantissa.ofMantissaAndAccuracy m accuracy).mantissa = m := by
    cases accuracy with
    | exact => rfl
    | inexact o => cases o <;> rfl
  have hfloor := h.describes.floor
  rw [hmantissa, le_div_iff₀ hpos, div_lt_iff₀ hpos] at hfloor
  exact hfloor

/-- The exponent of the leading place. -/
theorem leading (h : Measured q m e accuracy) (hm : m ≠ 0) :
    (2 : ℚ) ^ (m.log2 + e) ≤ q ∧ q < 2 ^ (m.log2 + 1 + e) := by
  have hpos : (0 : ℚ) < 2 ^ e := by positivity
  have hlow : (2 : ℚ) ^ m.log2 ≤ m := by exact_mod_cast Nat.log2_self_le hm
  have hhigh : (m : ℚ) + 1 ≤ 2 ^ (m.log2 + 1) := by exact_mod_cast Nat.lt_log2_self
  rw [zpow_add₀ two_ne_zero, zpow_add₀ two_ne_zero, zpow_natCast]
  refine ⟨le_trans ?_ h.floor.1, lt_of_lt_of_le h.floor.2 ?_⟩
  · exact mul_le_mul_of_nonneg_right hlow hpos.le
  · refine mul_le_mul_of_nonneg_right ?_ hpos.le
    exact_mod_cast hhigh

theorem zpow_lt {a b : ℤ} (h : (2 : ℚ) ^ a < 2 ^ b) : a < b :=
  (zpow_lt_zpow_iff_right₀ one_lt_two).mp h

/-- A number without a whole part is rounded to a double in the smallest place. -/
theorem exponent_of_zero (h : Measured q m e accuracy) (hm : m = 0) (hM : Canonical M E)
    (hq : RoundsTo q M E) : E = -1074 := by
  have hsmall := h.floor.2
  rw [hm, h.small hm, Nat.cast_zero, zero_add, one_mul] at hsmall
  by_contra hE
  have hpos : (0 : ℚ) < 2 ^ E := by positivity
  have hnormal : (2 : ℚ) ^ 52 ≤ M := by exact_mod_cast hM.normal.resolve_right hE
  have hplace : (2 : ℚ) ^ (-1074 : ℤ) ≤ 2 ^ E := zpow_le_zpow_right₀ one_le_two hM.low
  have hlarge : (2 : ℚ) ^ E ≤ ((M : ℚ) - 1 / 2) * 2 ^ E :=
    le_mul_of_one_le_left hpos.le (by linarith)
  exact absurd (hplace.trans (hlarge.trans hq.half_le)) (not_le.mpr hsmall)

/-- The last place of the number is that of the double, unless the number lies just
    below a power of two. -/
theorem place (h : Measured q m e accuracy) (hM : Canonical M E) (hq : RoundsTo q M E) :
    max (m.log2 + e - 52) (-1074) = E ∨
      (Narrow M E ∧ max (m.log2 + e - 52) (-1074) = E - 1 ∧ q < 2 ^ 52 * 2 ^ E) := by
  by_cases hm : m = 0
  · left
    rw [h.exponent_of_zero hm hM hq, hm, h.small hm, Nat.log2_zero]
    norm_num
  rcases h.leading hm with ⟨hleast, hmost⟩
  have hElow := hM.low
  have hplaces : ∀ n : ℕ, (2 : ℚ) ^ n * 2 ^ E = 2 ^ (n + E) := fun n => by
    rw [zpow_add₀ two_ne_zero, zpow_natCast]
  have hupper : (m.log2 : ℤ) + e < 53 + E := zpow_lt (hplaces 53 ▸ hleast.trans_lt (hq.below hM))
  by_cases hE : E = -1074
  · left
    omega
  by_cases hpower : (2 : ℚ) ^ 52 * 2 ^ E ≤ q
  · have hlower : (52 : ℤ) + E < m.log2 + 1 + e := zpow_lt (hplaces 52 ▸ hpower.trans_lt hmost)
    left
    omega
  rw [not_le] at hpower
  right
  have hnarrow := hq.narrow hM hE hpower
  have hhalf : (2 : ℚ) ^ 51 * 2 ^ E ≤ q := by
    have hpos : (0 : ℚ) < 2 ^ E := by positivity
    refine le_trans (mul_le_mul_of_nonneg_right ?_ hpos.le) (hq.quarter_le hnarrow)
    rw [hnarrow.1]
    norm_num
  have hupper' : (m.log2 : ℤ) + e < 52 + E := zpow_lt (hplaces 52 ▸ hleast.trans_lt hpower)
  have hlower : (51 : ℤ) + E < m.log2 + 1 + e := zpow_lt (hplaces 51 ▸ hhalf.trans_lt hmost)
  exact ⟨hnarrow, by omega, hpower⟩

/-- The number is rounded to the double among whose numbers it lies. -/
theorem round_eq (h : Measured q m e accuracy) (hM : Canonical M E) (hq : RoundsTo q M E)
    (sign : Sign) :
    roundWithAccuracy .binary64 sign m e accuracy = .finite sign M E hM.pos := by
  have hpos : (0 : ℚ) < 2 ^ E := by positivity
  -- The shift brings the number to the last place of the double, or to the one below.
  have hshift : ∀ T, max ((m.log2 : ℤ) + e - 52) (-1074) = T →
      ∃ em, shiftToTargetExponent .binary64 m e accuracy = (em, T) ∧ Describes em (q / 2 ^ T) := by
    intro T hT
    have hfine := h.fine
    obtain ⟨n, rfl⟩ : ∃ n : ℕ, T = e + n := ⟨(T - e).toNat, by omega⟩
    have hamount : (e + n - e).toNat = n := by omega
    have hdescribes := h.describes.shiftRight n
    rw [div_div, ← zpow_natCast, ← zpow_add₀ two_ne_zero] at hdescribes
    refine ⟨_, ?_, hdescribes⟩
    simp only [shiftToTargetExponent, targetExponent_eq, hT, shiftToExponent, hamount]
  rcases h.place hM hq with hT | ⟨hnarrow, hT, hpower⟩
  · rcases hshift E hT with ⟨em, hem, hdescribes⟩
    have hrounded : em.roundedMantissa = M := hdescribes.rounded hq.around.1 hq.around.2
    simp only [roundWithAccuracy, hem, hrounded, hM.shift, dif_neg hM.pos.ne']
  · rcases hshift (E - 1) hT with ⟨em, hem, hdescribes⟩
    have hquarter := hq.quarter_le hnarrow
    have hhalf : (0 : ℚ) < 2 ^ (E - 1) := by positivity
    have hdouble : (2 : ℚ) ^ E = 2 * 2 ^ (E - 1) := by
      rw [← zpow_one_add₀ two_ne_zero, add_sub_cancel]
    rw [hnarrow.1, hdouble] at hquarter
    rw [hdouble] at hpower
    push_cast at hquarter
    have hrounded : em.roundedMantissa = 2 ^ 53 := by
      refine hdescribes.rounded ?_ (.inl ?_)
      · -- The mantissa is even, so the middle counts.
        have hle : ((2 ^ 53 : ℕ) : ℚ) - 1 / 2 ≤ q / 2 ^ (E - 1) := by
          rw [le_div_iff₀ hhalf]
          push_cast
          linarith
        exact hle.lt_or_eq.imp_right fun heq => ⟨heq, by norm_num⟩
      · rw [div_lt_iff₀ hhalf]
        push_cast
        linarith
    obtain ⟨rfl, hE⟩ := hnarrow
    simp only [roundWithAccuracy, hem, hrounded, shift_carry hE]
    rfl

end Measured

section Arithmetic

variable {m₁ m₂ M : ℕ} {e₁ e₂ E : ℤ} (h₁ : 0 < m₁) (h₂ : 0 < m₂)

/-- The product is rounded to the double among whose numbers it lies. -/
theorem mul_eq (hM : Canonical M E) (hplaces : 2 ^ 52 ≤ m₁ * m₂)
    (hq : RoundsTo ((m₁ : ℚ) * 2 ^ e₁ * (m₂ * 2 ^ e₂)) M E) :
    UnpackedFloat.mul .binary64 (.finite .positive m₁ e₁ h₁) (.finite .positive m₂ e₂ h₂)
      = .finite .positive M E hM.pos := by
  have hpos : (0 : ℚ) < 2 ^ (e₁ + e₂) := by positivity
  have hlog := (Nat.le_log2 (Nat.mul_pos h₁ h₂).ne').mpr hplaces
  have hmeasured : Measured ((m₁ : ℚ) * 2 ^ e₁ * (m₂ * 2 ^ e₂)) (m₁ * m₂) (e₁ + e₂) .exact := by
    refine ⟨?_, by omega, fun hzero => absurd hzero (Nat.mul_pos h₁ h₂).ne'⟩
    have hquotient : (m₁ : ℚ) * 2 ^ e₁ * (m₂ * 2 ^ e₂) / 2 ^ (e₁ + e₂) = (m₁ * m₂ : ℕ) := by
      rw [div_eq_iff hpos.ne', zpow_add₀ two_ne_zero]
      push_cast
      ring
    rw [hquotient]
    exact Describes.exact _
  exact hmeasured.round_eq hM hq .positive

include h₂

/-- The quotient in units of the last place to which the dividend was shifted. -/
theorem quotient_eq {n : ℕ} {t : ℤ} (hn : e₁ - e₂ - t = n) :
    (m₁ : ℚ) * 2 ^ e₁ / (m₂ * 2 ^ e₂) / 2 ^ t = (m₁ * 2 ^ n : ℕ) / m₂ := by
  have hm₂ : (m₂ : ℚ) ≠ 0 := by exact_mod_cast h₂.ne'
  have hpow : (2 : ℚ) ^ e₁ = 2 ^ n * 2 ^ e₂ * 2 ^ t := by
    rw [← zpow_natCast, ← zpow_add₀ two_ne_zero, ← zpow_add₀ two_ne_zero]
    congr 1
    omega
  rw [hpow]
  push_cast
  field_simp

include h₁

/-- A dividend that is shifted far enough has a quotient with all places of a double. -/
theorem le_quotient {n : ℕ} (hn : m₂.log2 + 1 + 52 ≤ m₁.log2 + n) : 2 ^ 52 ≤ m₁ * 2 ^ n / m₂ := by
  have hdividend : 2 ^ m₁.log2 ≤ m₁ := Nat.log2_self_le h₁.ne'
  have hdivisor : m₂ < 2 ^ (m₂.log2 + 1) := Nat.lt_log2_self
  rw [Nat.le_div_iff_mul_le h₂]
  calc 2 ^ 52 * m₂ ≤ 2 ^ 52 * 2 ^ (m₂.log2 + 1) := Nat.mul_le_mul_left _ hdivisor.le
    _ = 2 ^ (m₂.log2 + 1 + 52) := by rw [← pow_add, Nat.add_comm]
    _ ≤ 2 ^ (m₁.log2 + n) := Nat.pow_le_pow_right (by decide) hn
    _ = 2 ^ m₁.log2 * 2 ^ n := pow_add _ _ _
    _ ≤ m₁ * 2 ^ n := Nat.mul_le_mul_right _ hdividend

/-- The quotient is rounded to the double among whose numbers it lies. -/
theorem div_eq (hM : Canonical M E) (hexponent : -1074 ≤ e₁ - e₂)
    (hq : RoundsTo ((m₁ : ℚ) * 2 ^ e₁ / (m₂ * 2 ^ e₂)) M E) :
    UnpackedFloat.div .binary64 (.finite .positive m₁ e₁ h₁) (.finite .positive m₂ e₂ h₂)
      = .finite .positive M E hM.pos := by
  have htarget : Format.binary64.targetExponent (totalExponent m₁ e₁ - totalExponent m₂ e₂)
      = max ((m₁.log2 : ℤ) - m₂.log2 + e₁ - e₂ - 53) (-1074) := by
    simp only [Format.targetExponent, totalExponent, Format.mantissaBits, Format.minExponent]
    norm_num
    omega
  -- The dividend is shifted until the quotient has all its places, or the last possible one.
  obtain ⟨t, ht⟩ : ∃ t, min (e₁ - e₂) (max ((m₁.log2 : ℤ) - m₂.log2 + e₁ - e₂ - 53) (-1074)) = t :=
    ⟨_, rfl⟩
  obtain ⟨n, hn⟩ : ∃ n : ℕ, e₁ - e₂ - t = n := ⟨(e₁ - e₂ - t).toNat, by omega⟩
  have hcore : divCore .binary64 m₁ e₁ m₂ e₂
      = (m₁ * 2 ^ n / m₂, t, accuracyOfFraction (m₁ * 2 ^ n % m₂) m₂) := by
    simp only [divCore, htarget, ht, hn, Int.toNat_natCast, Nat.shiftLeft_eq]
  have hmany : -1074 < t → 2 ^ 52 ≤ m₁ * 2 ^ n / m₂ := fun hlt => le_quotient h₁ h₂ (by omega)
  have hmeasured : Measured ((m₁ : ℚ) * 2 ^ e₁ / (m₂ * 2 ^ e₂)) (m₁ * 2 ^ n / m₂) t
      (accuracyOfFraction (m₁ * 2 ^ n % m₂) m₂) := by
    refine ⟨quotient_eq h₂ hn ▸ Describes.fraction _ h₂, ?_, fun hzero => ?_⟩
    · by_cases hlt : -1074 < t
      · have hpos := Nat.lt_of_lt_of_le (by decide : 0 < 2 ^ 52) (hmany hlt)
        have hlog := (Nat.le_log2 hpos.ne').mpr (hmany hlt)
        omega
      · omega
    · by_contra hne
      have hplaces := hmany (by omega)
      rw [hzero] at hplaces
      exact absurd hplaces (by decide)
  have hround := hmeasured.round_eq hM hq .positive
  simp only [UnpackedFloat.div, hcore]
  exact hround

end Arithmetic

/-- A double is rounded to itself. -/
theorem Canonical.round_eq {M : ℕ} {E : ℤ} (h : Canonical M E) (sign : Sign) :
    roundWithAccuracy .binary64 sign M E .exact = .finite sign M E h.pos := by
  have hpos : (0 : ℚ) < 2 ^ E := by positivity
  have hmeasured : Measured ((M : ℚ) * 2 ^ E) M E .exact := by
    refine ⟨?_, by rw [h.log2_eq], fun hzero => absurd hzero h.pos.ne'⟩
    rw [mul_div_cancel_right₀ _ hpos.ne']
    exact Describes.exact M
  exact hmeasured.round_eq h (RoundsTo.self M E) sign

end Decimal

end WidgetSync
