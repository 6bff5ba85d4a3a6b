import WidgetSync.Decimal.Reader
import WidgetSync.Proofs.Rounding

/-!
# From Decimals to Doubles

A decimal is read as the double to which it is rounded.

There are two ways from a decimal to a double. Digits that fit into a double and a
power of ten from a table are both exact, and one product or quotient of them
rounds. All other decimals are put together as integers and rounded from there. In
both ways there is one rounding only, so the result is the same.

The reader decides by the place of the leading digit whether a decimal is beyond
all doubles or below them. A decimal that is rounded to a double passes these
guards.

## Main definitions

* `double`: The double with a sign, a mantissa and an exponent.

## Theorems

* `unpack_double`: A double is made of its parts.
* `RoundsTo.place_bounds`: The place of the leading digit of a decimal near a double.
* `ofScientific_eq`: Both ways lead to the nearest double.
* `rounded_eq`: A decimal is read as the double to which it is rounded.
* `isNaN_rounded`: No decimal is read as the undefined value.
-/

namespace WidgetSync

namespace Decimal

open Float.Model Float.Model.UnpackedFloat

/-- The double with a sign, a mantissa and an exponent. -/
def double (sign : Sign) {M : ℕ} {E : ℤ} (h : Canonical M E) : Float :=
  ⟨Float.Model.pack (.finite sign M E h.pos)⟩

/-- The digit in front that a normal double leaves out. -/
theorem toNat_implicit (fraction : BitVec 52) :
    (1#1 ++ fraction).toNat = 2 ^ 52 + fraction.toNat := by
  rw [BitVec.toNat_append, ← Nat.shiftLeft_add_eq_or_of_lt fraction.isLt]
  rfl

/-- The bits of a double. -/
theorem pack_canonical (sign : Sign) {M : ℕ} {E : ℤ} (h : Canonical M E) :
    UnpackedFloat.pack .binary64 (.finite sign M E h.pos)
      = packComponents .binary64 sign
        (if 2 ^ 52 ≤ M then BitVec.ofNat 11 (E + 1075).toNat else 0#11) (BitVec.ofNat 52 M) := by
  have hbias : (Format.binary64.exponentBias : ℤ) = 1023 := by
    simp only [Format.exponentBias]
    norm_num
  have hplaces : Format.binary64.mantissaBits = 53 := rfl
  have hexponent : (E + 1023 + (52 : ℕ)).toNat = (E + 1075).toNat := by omega
  have hhigh := h.high
  have hfits : ¬ 2 ^ 11 ≤ (E + 1075).toNat + 1 := by omega
  simp only [UnpackedFloat.pack, hbias, hplaces, hexponent, if_neg hfits]
  by_cases hnormal : 2 ^ 52 ≤ M
  · have hlower := (Nat.le_log2 h.pos.ne').mpr hnormal
    have hupper := (Nat.log2_lt h.pos.ne').mpr h.below
    rw [if_pos (by omega), if_pos hnormal]
  · have hupper := (Nat.log2_lt h.pos.ne').mpr (Nat.lt_of_not_le hnormal)
    rw [if_neg (by omega), if_neg hnormal]

/-- A double has the sign, the mantissa and the exponent that it was made from. -/
theorem unpack_double (sign : Sign) {M : ℕ} {E : ℤ} (h : Canonical M E) :
    (double sign h).toModel.unpack = .finite sign M E h.pos := by
  have hlow := h.low
  have hhigh := h.high
  have hpos := h.pos
  have hbelow := h.below
  have hbias : (Format.binary64.exponentBias : ℤ) = 1023 := by
    simp only [Format.exponentBias]
    norm_num
  change UnpackedFloat.unpack .binary64 (UnpackedFloat.pack .binary64 (.finite sign M E h.pos)) = _
  rw [pack_canonical sign h]
  unfold UnpackedFloat.unpack
  simp only [unpackMantissa_packComponents, unpackExponent_packComponents,
    unpackSign_packComponents, Sign.ofBitVec_toBitVec]
  by_cases hnormal : 2 ^ 52 ≤ M
  · have hbiased : (BitVec.ofNat 11 (E + 1075).toNat).toNat = (E + 1075).toNat := by
      rw [BitVec.toNat_ofNat]
      omega
    have hinner : ∀ c : BitVec 11, c.toNat ≠ (E + 1075).toNat →
        BitVec.ofNat 11 (E + 1075).toNat ≠ c := fun c hc heq => hc (heq ▸ hbiased)
    have hinfinity := hinner (-1#11) (show 2047 ≠ _ by omega)
    have hzero := hinner 0#11 (show 0 ≠ _ by omega)
    have hmantissa : (1#1 ++ BitVec.ofNat 52 M).toNat = M := by
      rw [toNat_implicit, BitVec.toNat_ofNat]
      omega
    simp only [if_pos hnormal, if_neg hinfinity, if_neg hzero, hbiased, hmantissa, hbias]
    congr 1
    omega
  · have hE : E = -1074 := h.normal.resolve_left hnormal
    have hmantissa : (BitVec.ofNat 52 M).toNat = M := by
      rw [BitVec.toNat_ofNat]
      omega
    have hnonzero : BitVec.ofNat 52 M ≠ 0#52 := fun heq => by
      rw [heq] at hmantissa
      exact absurd hmantissa hpos.ne
    simp only [if_neg hnormal, show (0#11) ≠ -1#11 by decide, if_false, if_true,
      dif_neg hnonzero, hmantissa, hbias, hE]
    rfl

section Arithmetic

variable {x y : Float} {m₁ m₂ M : ℕ} {e₁ e₂ E : ℤ} {h₁ : 0 < m₁} {h₂ : 0 < m₂}

theorem mul_eq_double (hx : x.toModel.unpack = .finite .positive m₁ e₁ h₁)
    (hy : y.toModel.unpack = .finite .positive m₂ e₂ h₂) (hM : Canonical M E)
    (hplaces : 2 ^ 52 ≤ m₁ * m₂) (hq : RoundsTo ((m₁ : ℚ) * 2 ^ e₁ * (m₂ * 2 ^ e₂)) M E) :
    x * y = double .positive hM := by
  change Float.ofModel (Float.Model.pack
    (UnpackedFloat.mul .binary64 x.toModel.unpack y.toModel.unpack)) = _
  rw [hx, hy, mul_eq h₁ h₂ hM hplaces hq]
  rfl

theorem div_eq_double (hx : x.toModel.unpack = .finite .positive m₁ e₁ h₁)
    (hy : y.toModel.unpack = .finite .positive m₂ e₂ h₂) (hM : Canonical M E)
    (hexponent : -1074 ≤ e₁ - e₂) (hq : RoundsTo ((m₁ : ℚ) * 2 ^ e₁ / (m₂ * 2 ^ e₂)) M E) :
    x / y = double .positive hM := by
  change Float.ofModel (Float.Model.pack
    (UnpackedFloat.div .binary64 x.toModel.unpack y.toModel.unpack)) = _
  rw [hx, hy, div_eq h₁ h₂ hM hexponent hq]
  rfl

end Arithmetic

/-- An integer that has no more places than a double is one. -/
theorem toFloat_eq {n : ℕ} (hn : 0 < n) (hplaces : n < 2 ^ 53) :
    ∃ (k : ℕ) (h : Canonical (n * 2 ^ k) (-k)), k ≤ 52 ∧ 2 ^ 52 ≤ n * 2 ^ k ∧
      n.toUInt64.toFloat = double .positive h := by
  have hlog := (Nat.log2_lt hn.ne').mpr hplaces
  have hlow : 2 ^ 52 ≤ n * 2 ^ (52 - n.log2) := by
    calc 2 ^ 52 = 2 ^ n.log2 * 2 ^ (52 - n.log2) := by rw [← pow_add]; congr 1; omega
      _ ≤ n * 2 ^ (52 - n.log2) := Nat.mul_le_mul_right _ (Nat.log2_self_le hn.ne')
  have hhigh : n * 2 ^ (52 - n.log2) < 2 ^ 53 := by
    calc n * 2 ^ (52 - n.log2) < 2 ^ (n.log2 + 1) * 2 ^ (52 - n.log2) :=
          Nat.mul_lt_mul_of_pos_right Nat.lt_log2_self (by positivity)
      _ = 2 ^ 53 := by rw [← pow_add]; congr 1; omega
  have hcanonical : Canonical (n * 2 ^ (52 - n.log2)) (-(52 - n.log2 : ℕ)) :=
    ⟨by omega, hhigh, by omega, by omega, .inl hlow⟩
  refine ⟨52 - n.log2, hcanonical, by omega, hlow, ?_⟩
  have hvalue : n.toUInt64.toNat = n := by
    simp only [Nat.toUInt64, UInt64.toNat_ofNat']
    omega
  have htarget : max ((n.log2 : ℤ) + 0 - 52) (-1074) = -(52 - n.log2 : ℕ) := by omega
  have hround : UnpackedFloat.ofUInt64 .binary64 n.toUInt64
      = .finite .positive (n * 2 ^ (52 - n.log2)) (-(52 - n.log2 : ℕ)) hcanonical.pos := by
    have hcompare : compare (n : ℤ) 0 = .gt := by
      rw [compare_gt_iff_gt]
      omega
    rw [← hcanonical.round_eq .positive]
    simp only [UnpackedFloat.ofUInt64, UnpackedFloat.ofNat, UnpackedFloat.ofInt,
      UnpackedFloat.normalize, hvalue, hcompare, Int.toNat_natCast, UnpackedFloat.round,
      targetExponent_eq, htarget, decreaseExponent, Nat.shiftLeft_eq, zero_sub, neg_neg]
  rw [double, ← hround]
  rfl

/-- The unpacked double is this power of ten, with all its places. -/
def isPower (n : ℕ) : UnpackedFloat → Bool
  | .finite .positive m e _ =>
    m * 2 ^ e.toNat == 10 ^ n * 2 ^ (-e).toNat && decide (2 ^ 52 ≤ m ∧ -52 ≤ e ∧ e ≤ 22)
  | _ => false

/-- The powers of ten that are doubles are in their table. -/
theorem power_eq (n : Fin 23) :
    ∃ (m : ℕ) (e : ℤ) (hm : 0 < m),
      (Float.exactlyRepresentablePowersOfTen[n]).toModel.unpack = .finite .positive m e hm ∧
        (m : ℚ) * 2 ^ e = 10 ^ (n : ℕ) ∧ 2 ^ 52 ≤ m ∧ -52 ≤ e ∧ e ≤ 22 := by
  have htable : ∀ n : Fin 23,
      isPower n (Float.exactlyRepresentablePowersOfTen[n]).toModel.unpack = true := by
    decide +kernel
  have hn := htable n
  unfold isPower at hn
  split at hn
  · rename_i m e hm hunpack
    simp only [Bool.and_eq_true, beq_iff_eq, decide_eq_true_eq] at hn
    refine ⟨m, e, hm, hunpack, ?_, hn.2⟩
    have hscaled : (m : ℚ) * 2 ^ e.toNat = 10 ^ (n : ℕ) * 2 ^ (-e).toNat := by
      exact_mod_cast hn.1
    have hsplit := zpow_toNat (b := 2) (by decide) e
    push_cast at hsplit
    rw [← hsplit, ← mul_assoc] at hscaled
    exact mul_right_cancel₀ (by positivity) hscaled
  · exact absurd hn (by decide)

theorem digitCount_bounds {d : ℕ} (hd : 0 < d) :
    0 < digitCount d ∧ 10 ^ (digitCount d - 1) ≤ d ∧ d < 10 ^ digitCount d := by
  have hpos : 0 < digitCount d := List.length_pos_iff.mpr Nat.toDigits_ne_nil
  refine ⟨hpos, ?_, (Nat.length_toDigits_le_iff (by decide) hpos).mp (Nat.le_refl _)⟩
  by_cases hone : digitCount d = 1
  · rw [hone]
    exact hd
  · rw [← Nat.not_lt, ← Nat.length_toDigits_le_iff (by decide) (by omega)]
    change ¬ digitCount d ≤ digitCount d - 1
    omega

/-- The place of the leading digit of a decimal. -/
theorem decimal_bounds {d : ℕ} (hd : 0 < d) (k : ℤ) :
    (10 : ℚ) ^ (digitCount d + k - 1) ≤ d * 10 ^ k ∧
      (d : ℚ) * 10 ^ k < 10 ^ (digitCount d + k) := by
  have hpos : (0 : ℚ) < 10 ^ k := by positivity
  rcases digitCount_bounds hd with ⟨hcount, hlow, hhigh⟩
  have hten : (10 : ℚ) ≠ 0 := by norm_num
  have hleast : (10 : ℚ) ^ (digitCount d - 1) ≤ d := by exact_mod_cast hlow
  have hmost : (d : ℚ) < 10 ^ digitCount d := by exact_mod_cast hhigh
  refine ⟨?_, ?_⟩
  · calc (10 : ℚ) ^ (digitCount d + k - 1) = 10 ^ (digitCount d - 1) * 10 ^ k := by
          rw [← zpow_natCast, ← zpow_add₀ hten]
          congr 1
          omega
      _ ≤ d * 10 ^ k := mul_le_mul_of_nonneg_right hleast hpos.le
  · calc (d : ℚ) * 10 ^ k < 10 ^ digitCount d * 10 ^ k := mul_lt_mul_of_pos_right hmost hpos
      _ = 10 ^ (digitCount d + k) := by rw [zpow_add₀ hten, zpow_natCast]

/-- A decimal that is rounded to a double has its leading digit in a bounded place. -/
theorem RoundsTo.place_bounds {d M : ℕ} {k E : ℤ} (hd : 0 < d)
    (h : RoundsTo ((d : ℚ) * 10 ^ k) M E) (hM : Canonical M E) :
    -330 ≤ digitCount d + k ∧ digitCount d + k ≤ 320 := by
  rcases decimal_bounds hd k with ⟨hlow, hhigh⟩
  have hten : (1 : ℚ) ≤ 10 := by norm_num
  constructor
  · by_contra hless
    have hsmall : (10 : ℚ) ^ (-331 : ℤ) ≤ 2 ^ (-1075 : ℤ) := by
      have hpowers : (2 : ℚ) ^ 1075 ≤ 10 ^ 331 := by
        exact_mod_cast (show (2 : ℕ) ^ 1075 ≤ 10 ^ 331 by decide +kernel)
      rw [zpow_neg, zpow_neg]
      exact inv_anti₀ (by positivity) hpowers
    have hle : (10 : ℚ) ^ (digitCount d + k) ≤ 10 ^ (-331 : ℤ) :=
      zpow_le_zpow_right₀ hten (by omega)
    exact absurd (h.lower hM) (not_le.mpr (hhigh.trans_le (hle.trans hsmall)))
  · by_contra hmore
    have hlarge : (2 : ℚ) ^ (1024 : ℤ) ≤ 10 ^ (320 : ℤ) := by
      exact_mod_cast (show (2 : ℕ) ^ 1024 ≤ 10 ^ 320 by decide +kernel)
    have hle : (10 : ℚ) ^ (320 : ℤ) ≤ 10 ^ (digitCount d + k - 1) :=
      zpow_le_zpow_right₀ hten (by omega)
    exact absurd (h.upper hM) (not_lt.mpr (hlarge.trans (hle.trans hlow)))

theorem digitCount_le_log2 {d : ℕ} (hd : 0 < d) : digitCount d ≤ d.log2 + 1 := by
  rcases digitCount_bounds hd with ⟨hcount, hlow, -⟩
  have hpowers : 2 ^ (digitCount d - 1) < 2 ^ (d.log2 + 1) :=
    calc 2 ^ (digitCount d - 1) ≤ 10 ^ (digitCount d - 1) := Nat.pow_le_pow_left (by decide) _
      _ ≤ d := hlow
      _ < 2 ^ (d.log2 + 1) := Nat.lt_log2_self
  have hless := (Nat.pow_lt_pow_iff_right (by decide)).mp hpowers
  omega

section Scientific

variable {d M : ℕ} {k E : ℤ} (hd : 0 < d) (hM : Canonical M E)
  (h : RoundsTo ((d : ℚ) * 10 ^ k) M E)

include hd h

/-- Few digits and a small power of ten are doubles, and one operation on them rounds. -/
theorem ofScientific_small (hsmall : d < 2 ^ 53 ∧ k.natAbs ≤ 22) :
    Float.ofScientific d (decide (k < 0)) k.natAbs = double .positive hM := by
  obtain ⟨j, hj, hplaces, hfull, hdigits⟩ := toFloat_eq hd hsmall.1
  obtain ⟨m, e, hm, hunpack, hpower, hleast, hlow, hhigh⟩ :=
    power_eq ⟨k.natAbs, Nat.lt_succ_of_le hsmall.2⟩
  have hvalue : ((d * 2 ^ j : ℕ) : ℚ) * 2 ^ (-j : ℤ) = d := by
    rw [zpow_neg, zpow_natCast]
    push_cast
    field_simp
  have hfirst : (d.toUInt64.toFloat).toModel.unpack
      = .finite .positive (d * 2 ^ j) (-j) hj.pos := by
    rw [hdigits, unpack_double]
  rw [Float.ofScientific, dif_pos hsmall]
  by_cases hk : k < 0
  · have hq : ((d * 2 ^ j : ℕ) : ℚ) * 2 ^ (-j : ℤ) / (m * 2 ^ e) = d * 10 ^ k := by
      rw [hvalue, hpower, div_eq_mul_inv, ← zpow_natCast, ← zpow_neg,
        show (-(k.natAbs : ℤ)) = k by omega]
    rw [if_pos (decide_eq_true hk)]
    exact div_eq_double hfirst hunpack hM (by omega) (hq ▸ h)
  · have hq : ((d * 2 ^ j : ℕ) : ℚ) * 2 ^ (-j : ℤ) * (m * 2 ^ e) = d * 10 ^ k := by
      rw [hvalue, hpower, ← zpow_natCast, show ((k.natAbs : ℕ) : ℤ) = k by omega]
    rw [if_neg (by simpa only [decide_eq_true_eq] using hk)]
    exact mul_eq_double hfirst hunpack hM (hfull.trans (Nat.le_mul_of_pos_right _ hm)) (hq ▸ h)

/-- The other decimals are put together exactly and rounded once. -/
theorem ofScientific_exact : Float.Model.UnpackedFloat.ofScientific .binary64 d k
    = .finite .positive M E hM.pos := by
  have hplace := h.place_bounds hd hM
  have hcount := digitCount_le_log2 hd
  rw [UnpackedFloat.ofScientific, dif_neg hd.ne', if_neg (by simp only; omega),
    if_neg (by simp only; omega)]
  split
  · -- The power is multiplied in. The digits are moved up first, so that there are enough of them.
    rename_i hk
    have hfull : 2 ^ 52 ≤ d <<< 53 * 10 ^ k.toNat := by
      rw [Nat.shiftLeft_eq]
      calc 2 ^ 52 ≤ 1 * 2 ^ 53 * 1 := by decide
        _ ≤ d * 2 ^ 53 * 10 ^ k.toNat :=
          Nat.mul_le_mul (Nat.mul_le_mul_right _ hd) (Nat.one_le_pow _ _ (by decide))
    have hq : ((d <<< 53 : ℕ) : ℚ) * 2 ^ (-53 : ℤ) * ((10 ^ k.toNat : ℕ) * 2 ^ (0 : ℤ))
        = d * 10 ^ k := by
      have hshift : ((d <<< 53 : ℕ) : ℚ) * 2 ^ (-53 : ℤ) = d := by
        rw [Nat.shiftLeft_eq, zpow_neg]
        push_cast
        exact mul_inv_cancel_right₀ (by positivity) _
      rw [hshift, zpow_zero, mul_one]
      push_cast
      rw [← zpow_natCast, Int.toNat_of_nonneg hk]
    have hdigits : 0 < d <<< 53 := by
      rw [Nat.shiftLeft_eq]
      exact Nat.mul_pos hd (by decide)
    have hten : 0 < 10 ^ k.toNat := Nat.pow_pos (by decide)
    rw [← hq] at h
    exact mul_eq hdigits hten hM hfull h
  · -- The digits are divided by the power.
    rename_i hk
    have hq : (d : ℚ) * 2 ^ (0 : ℤ) / ((10 ^ (-k).toNat : ℕ) * 2 ^ (0 : ℤ)) = d * 10 ^ k := by
      rw [zpow_zero, mul_one, mul_one, div_eq_mul_inv]
      push_cast
      rw [← zpow_natCast, ← zpow_neg, show (-((-k).toNat : ℤ)) = k by omega]
    have hten : 0 < 10 ^ (-k).toNat := Nat.pow_pos (by decide)
    rw [← hq] at h
    exact div_eq hd hten hM (by decide) h

theorem ofScientific_eq :
    Float.ofScientific d (decide (k < 0)) k.natAbs = double .positive hM := by
  by_cases hsmall : d < 2 ^ 53 ∧ k.natAbs ≤ 22
  · exact ofScientific_small hd hM h hsmall
  · rw [Float.ofScientific, dif_neg hsmall]
    have hk : (if decide (k < 0) = true then Int.negOfNat k.natAbs else .ofNat k.natAbs) = k := by
      simp only [decide_eq_true_eq]
      split
      · rw [Int.negOfNat_eq]
        change -(k.natAbs : ℤ) = k
        omega
      · change (k.natAbs : ℤ) = k
        omega
    simp only [hk, Float.Model.ofScientific, ofScientific_exact hd hM h, double]

/-- A decimal among the numbers that are rounded to a double is rounded to it. -/
theorem rounded_eq (negative : Bool) :
    rounded negative d k = double (if negative then .negative else .positive) hM := by
  have hplace := h.place_bounds hd hM
  have hguard : ¬ (d = 0 ∨ (digitCount d : ℤ) + k < -330) := by omega
  have hmagnitude := ofScientific_eq hd hM h
  simp only [rounded, if_neg hguard, if_neg (not_lt.mpr hplace.2), hmagnitude]
  cases negative with
  | false => rfl
  | true =>
      change Float.ofModel (Float.Model.pack (double .positive hM).toModel.unpack.neg) = _
      rw [unpack_double]
      rfl

end Scientific

-- No decimal is undefined, be it in the range of doubles or not

/-- Only the highest exponent stands for no number. -/
theorem isNaN_packComponents (sign : Sign) {exponent : BitVec 11} (fraction : BitVec 52)
    (h : exponent ≠ -1#11) :
    (UnpackedFloat.unpack .binary64 (packComponents .binary64 sign exponent fraction)).isNaN
      = false := by
  unfold UnpackedFloat.unpack
  simp only [unpackExponent_packComponents]
  rw [if_neg h]
  split
  · split <;> rfl
  · rfl

/-- Packing keeps a number defined. -/
theorem isNaN_pack {u : UnpackedFloat} (h : u.isNaN = false) :
    (Float.Model.pack u).unpack.isNaN = false := by
  cases u with
  | notANumber => exact absurd h (by decide)
  | infinity s => cases s <;> decide
  | zero s => cases s <;> decide
  | finite s m e hm =>
      change (UnpackedFloat.unpack .binary64 (UnpackedFloat.pack .binary64 _)).isNaN = false
      simp only [UnpackedFloat.pack]
      split
      · cases s <;> decide
      · rename_i hfits
        split
        · refine isNaN_packComponents s _ fun heq => ?_
          have hones := congrArg BitVec.toNat heq
          simp only [BitVec.toNat_ofNat, BitVec.toNat_neg] at hones
          omega
        · exact isNaN_packComponents s _ (by decide)

/-- Rounding gives a number. -/
theorem isNaN_roundWithAccuracy (sign : Sign) (m : ℕ) (e : ℤ) (accuracy : Accuracy) :
    (UnpackedFloat.roundWithAccuracy .binary64 sign m e accuracy).isNaN = false := by
  simp only [UnpackedFloat.roundWithAccuracy]
  split <;> rfl

/-- A decimal that is put together from integers is a number. -/
theorem isNaN_ofScientific (d : ℕ) (k : ℤ) :
    (UnpackedFloat.ofScientific .binary64 d k).isNaN = false := by
  unfold UnpackedFloat.ofScientific
  split
  · rfl
  split
  · rfl
  split
  · rfl
  split
  · exact isNaN_roundWithAccuracy _ _ _ _
  · exact isNaN_roundWithAccuracy _ _ _ _

section Products

variable {x y : Float} {s₁ s₂ : Sign} {m₁ m₂ : ℕ} {e₁ e₂ : ℤ} {h₁ : 0 < m₁} {h₂ : 0 < m₂}
  (hx : x.toModel.unpack = .finite s₁ m₁ e₁ h₁) (hy : y.toModel.unpack = .finite s₂ m₂ e₂ h₂)

include hx hy

theorem isNaN_mul : (x * y).isNaN = false := by
  refine isNaN_pack ?_
  rw [hx, hy]
  exact isNaN_roundWithAccuracy _ _ _ _

theorem isNaN_div : (x / y).isNaN = false := by
  refine isNaN_pack ?_
  rw [hx, hy]
  exact isNaN_roundWithAccuracy _ _ _ _

end Products

theorem isNaN_scientific {d : ℕ} (hd : 0 < d) (negative : Bool) (k : ℕ) :
    (Float.ofScientific d negative k).isNaN = false := by
  rw [Float.ofScientific]
  by_cases hsmall : d < 2 ^ 53 ∧ k ≤ 22
  · obtain ⟨j, hj, -, -, hdigits⟩ := toFloat_eq hd hsmall.1
    obtain ⟨m, e, hm, hpower, -⟩ := power_eq ⟨k, Nat.lt_succ_of_le hsmall.2⟩
    have hfirst : (d.toUInt64.toFloat).toModel.unpack
        = .finite .positive (d * 2 ^ j) (-j) hj.pos := by
      rw [hdigits, unpack_double]
    rw [dif_pos hsmall]
    cases negative with
    | true => exact isNaN_div hfirst hpower
    | false => exact isNaN_mul hfirst hpower
  · rw [dif_neg hsmall]
    exact isNaN_pack (isNaN_ofScientific d _)

theorem isNaN_neg {x : Float} (h : x.isNaN = false) : (-x).isNaN = false := by
  refine isNaN_pack ?_
  have hx : x.toModel.unpack.isNaN = false := h
  cases hu : x.toModel.unpack with
  | notANumber => exact absurd (hu ▸ hx) (by decide)
  | infinity s => rfl
  | zero s => rfl
  | finite s m e hm => rfl

/-- No decimal is read as the undefined value. -/
theorem isNaN_rounded (negative : Bool) (d : ℕ) (k : ℤ) : (rounded negative d k).isNaN = false := by
  have hmagnitude : (if d = 0 ∨ (digitCount d : ℤ) + k < -330 then (0.0 : Float)
      else if 320 < (digitCount d : ℤ) + k then 1.0 / 0.0
      else Float.ofScientific d (decide (k < 0)) k.natAbs).isNaN = false := by
    split
    · decide
    split
    · decide
    · rename_i hguard _
      exact isNaN_scientific (by omega) _ _
  unfold rounded
  simp only
  split
  · exact isNaN_neg hmagnitude
  · exact hmagnitude

end Decimal

end WidgetSync
