import WidgetSync.Proofs.Conversion

/-!
# Shortest Decimals Read Back

The decimal that is chosen for a double is rounded to the double.

The choice asks of each candidate whether it reads back, and compares the candidate
with the two ends of the double's interval. `readsBack_iff` says that this is the
interval of `RoundsTo`. Nothing is needed of the order in which the candidates are
tried: if none reads back, the double itself is taken as a decimal.

The parts of a double are taken from its bits. They are the parts that arithmetic
uses.

## Main definitions

* `Digits.value`: The number that a decimal stands for.
* `Binary.Positive`: The parts of a positive double.

## Theorems

* `compareScaled_eq`: Decimals and binary numbers are compared as numbers.
* `Binary.Positive.readsBack_iff`: What reads back is what is rounded to the double.
* `Binary.Positive.shortest_roundsTo`: The shortest decimal reads back.
* `double_of_unpack`: A double is made of the parts of its bits.
-/

namespace WidgetSync

namespace Decimal

open Float.Model Float.Model.UnpackedFloat

/-- The number that a decimal stands for. -/
def Digits.value (d : Digits) : ℚ :=
  d.digits * 10 ^ d.exponent

/-- Decimals and binary numbers are compared as numbers. -/
theorem compareScaled_eq (a : ℕ) (i : ℤ) (n : ℕ) (j : ℤ) :
    compareScaled a i n j = cmp ((a : ℚ) * 10 ^ i) (n * 2 ^ j) := by
  have hpos : (0 : ℚ) < 10 ^ (-i).toNat * 2 ^ (-j).toNat := by positivity
  have hten := zpow_toNat (b := 10) (by decide) i
  have htwo := zpow_toNat (b := 2) (by decide) j
  push_cast at hten htwo
  have hleft : (a : ℚ) * 10 ^ i * (10 ^ (-i).toNat * 2 ^ (-j).toNat)
      = (a * tenTo i * twoTo (-j) : ℕ) := by
    simp only [tenTo, twoTo, Nat.pow_eq]
    push_cast
    rw [← hten]
    ring
  have hright : (n : ℚ) * 2 ^ j * (10 ^ (-i).toNat * 2 ^ (-j).toNat)
      = (n * twoTo j * tenTo (-i) : ℕ) := by
    simp only [tenTo, twoTo, Nat.pow_eq]
    push_cast
    rw [← htwo]
    ring
  have hmono : StrictMono ((↑) : ℕ → ℚ) := Nat.strictMono_cast
  rw [← cmp_mul_pos_right hpos, hleft, hright, hmono.cmp_map_eq, cmp_eq_compare]
  rfl

/-- The parts of a positive double. -/
structure Binary.Positive (x : Binary) : Prop where
  canonical : Canonical x.significand x.exponent
  narrow : x.narrowBelow = decide (Narrow x.significand x.exponent)

/-- The decimals that read back are those that are rounded to the double. -/
theorem Binary.Positive.readsBack_iff {x : Binary} (hx : x.Positive) (d : Digits) :
    x.readsBack d = true ↔ RoundsTo d.value x.significand x.exponent := by
  have hpos := hx.canonical.pos
  have hquarter : (2 : ℚ) ^ (x.exponent - 2) = 2 ^ x.exponent / 4 := by
    rw [zpow_sub₀ two_ne_zero]
    norm_num
  have hlow : ((if x.narrowBelow then 4 * x.significand - 1 else 4 * x.significand - 2 : ℕ) : ℚ)
      * 2 ^ (x.exponent - 2)
      = ((x.significand : ℚ) - if Narrow x.significand x.exponent then 1 / 4 else 1 / 2)
        * 2 ^ x.exponent := by
    rw [hquarter, hx.narrow]
    simp only [decide_eq_true_eq]
    split
    · rw [Nat.cast_sub (by omega)]
      push_cast
      ring
    · rw [Nat.cast_sub (by omega)]
      push_cast
      ring
  have hhigh : ((4 * x.significand + 2 : ℕ) : ℚ) * 2 ^ (x.exponent - 2)
      = ((x.significand : ℚ) + 1 / 2) * 2 ^ x.exponent := by
    rw [hquarter]
    push_cast
    ring
  simp only [Binary.readsBack, compareScaled_eq, hlow, hhigh, Bool.and_eq_true, Bool.or_eq_true,
    beq_iff_eq, cmp_eq_gt_iff, cmp_eq_lt_iff, cmp_eq_eq_iff]
  refine ⟨fun h => ⟨h.1.imp_right fun h => ⟨h.2.symm, h.1⟩, h.2.imp_right And.symm⟩,
    fun h => ⟨h.low.imp_right fun h => ⟨h.2, h.1.symm⟩, h.high.imp_right And.symm⟩⟩

theorem closest?_readsBack {x : Binary} {e : ℤ} {d : Digits} (h : closest? x e = some d) :
    x.readsBack d = true := by
  unfold closest? at h
  simp only at h
  split at h
  · rename_i hbelow habove
    split at h
    · exact Option.some.inj h ▸ hbelow
    · exact Option.some.inj h ▸ habove
    · split at h
      · exact Option.some.inj h ▸ hbelow
      · exact Option.some.inj h ▸ habove
  · rename_i hbelow _
    exact Option.some.inj h ▸ hbelow
  · rename_i _ habove
    exact Option.some.inj h ▸ habove
  · cases h

theorem dropZeros_value (k : ℕ) (d : Digits) : (dropZeros k d).value = d.value := by
  induction k generalizing d with
  | zero => rfl
  | succ k ih =>
      unfold dropZeros
      split
      · rename_i hzero
        rw [ih, Digits.value, Digits.value, zpow_add_one₀ (by norm_num)]
        have hdigits : (d.digits : ℚ) = 10 * (d.digits / 10 : ℕ) := by
          exact_mod_cast (Nat.mul_div_cancel' (Nat.dvd_of_mod_eq_zero hzero)).symm
        rw [hdigits]
        ring
      · rfl

theorem exact_value (x : Binary) : (exact x).value = x.significand * 2 ^ x.exponent := by
  have htwo := zpow_toNat (b := 2) (by decide) x.exponent
  push_cast at htwo
  have hmin : min x.exponent 0 = -((-x.exponent).toNat : ℤ) := by omega
  simp only [Digits.value, exact, hmin, twoTo, Nat.pow_eq, zpow_neg, zpow_natCast]
  push_cast
  rw [← htwo, show (10 : ℚ) = 2 * 5 by norm_num, mul_pow]
  field_simp

/-- The shortest decimal is rounded to its double. -/
theorem Binary.Positive.shortest_roundsTo {x : Binary} (hx : x.Positive) :
    RoundsTo (shortest x).value x.significand x.exponent := by
  simp only [shortest, dropZeros_value]
  cases hfound : (List.range 17).findSome? fun (n : ℕ) => closest? x (scale x - ((n : ℤ) + 1)) with
  | none =>
      rw [Option.getD_none, exact_value]
      exact RoundsTo.self _ _
  | some d =>
      obtain ⟨n, -, hn⟩ := List.exists_of_findSome?_eq_some hfound
      exact (hx.readsBack_iff d).mp (closest?_readsBack hn)

section Rounded

variable {d : Digits} {M : ℕ} {E : ℤ} (hM : Canonical M E) (h : RoundsTo d.value M E)

include hM h

theorem Digits.pos : 0 < d.digits := by
  have hle := h.lower hM
  rw [Nat.pos_iff_ne_zero]
  intro hzero
  rw [Digits.value, hzero, Nat.cast_zero, zero_mul] at hle
  exact absurd hle (not_le.mpr (by positivity))

/-- A decimal among the numbers that are rounded to a double is read as the double. -/
theorem Digits.rounded_eq (negative : Bool) : rounded negative d.digits d.exponent
    = double (if negative then .negative else .positive) hM :=
  Decimal.rounded_eq (Digits.pos hM h) hM h negative

end Rounded

theorem Binary.Positive.shortest_pos {x : Binary} (hx : x.Positive) : 0 < (shortest x).digits :=
  Digits.pos hx.canonical hx.shortest_roundsTo

-- The parts of a bit pattern

theorem exponent_toNat (b : UInt64) :
    ((b >>> 52) &&& 0x7FF).toNat = (@unpackExponent .binary64 b.toBitVec).toNat := by
  rw [unpackExponent_def, BitVec.extractLsb'_toNat, UInt64.toNat_and, UInt64.toNat_shiftRight]
  exact Nat.and_two_pow_sub_one_eq_mod _ 11

theorem mantissa_toNat (b : UInt64) :
    (b &&& 0xFFFFFFFFFFFFF).toNat = (@unpackMantissa .binary64 b.toBitVec).toNat := by
  rw [unpackMantissa_def, BitVec.extractLsb'_toNat, UInt64.toNat_and]
  exact Nat.and_two_pow_sub_one_eq_mod _ 52

theorem sign_eq (b : UInt64) : Sign.ofBitVec (@unpackSign .binary64 b.toBitVec)
    = if b >>> 63 == 1 then .negative else .positive := by
  have hbit : (@unpackSign .binary64 b.toBitVec).toNat = (b >>> 63).toNat := by
    rw [unpackSign_def, BitVec.extractLsb'_toNat, UInt64.toNat_shiftRight]
    have hlt : b.toNat < 2 ^ 64 := b.toNat_lt
    have hmod : b.toNat >>> 63 % 2 ^ 1 = b.toNat >>> 63 := by
      rw [Nat.shiftRight_eq_div_pow]
      omega
    exact hmod
  have hlast : (b >>> 63).toNat < 2 := hbit ▸ (@unpackSign .binary64 b.toBitVec).isLt
  simp only [Sign.ofBitVec, beq_iff_eq, ← BitVec.toNat_inj, ← UInt64.toNat_inj, hbit,
    BitVec.toNat_ofNat, UInt64.toNat_one]
  split
  · rw [if_neg (by omega)]
  · rw [if_pos (by omega)]

/-- A double is packed from its parts. -/
theorem eq_pack {x : Float} {u : UnpackedFloat} (h : x.toModel.unpack = u) :
    x = ⟨Float.Model.pack u⟩ := by
  subst h
  rw [← Float.toBits_inj]
  exact UInt64.toBitVec_inj.mp (pack_unpack_of_valid x.toModel.valid).symm

/-- The parts of a bit pattern that stands for a number are those of the number. -/
theorem ofBits_unpack {b : UInt64} {s : Sign} {M : ℕ} {E : ℤ} {hM : 0 < M}
    (h : UnpackedFloat.unpack .binary64 b.toBitVec = .finite s M E hM) :
    s = (if b >>> 63 == 1 then .negative else .positive) ∧ Canonical M E ∧
      Binary.ofBits b = ⟨M, E, decide (Narrow M E)⟩ := by
  have hfraction : (@unpackMantissa .binary64 b.toBitVec).toNat < 2 ^ 52 := BitVec.isLt _
  have hbiased : (@unpackExponent .binary64 b.toBitVec).toNat < 2 ^ 11 := BitVec.isLt _
  have hzero : (0#11).toNat = 0 := rfl
  have hones : (-1#11).toNat = 2047 := rfl
  rw [← sign_eq, Binary.ofBits, exponent_toNat, mantissa_toNat]
  unfold UnpackedFloat.unpack at h
  simp only [← BitVec.toNat_inj] at h
  split at h
  · split at h <;> cases h
  rename_i hfinite
  split at h
  -- The smallest doubles have no digit in front.
  case isTrue hsubnormal =>
    split at h
    · cases h
    · injection h with hs hM hE
      have hE' : E = -1074 := by
        rw [← hE, hsubnormal]
        rfl
      have hnarrow : ¬ Narrow M E := fun hnarrow => absurd hnarrow.2 (by omega)
      refine ⟨hs.symm, ⟨‹0 < M›, by omega, by omega, by omega, .inr hE'⟩, ?_⟩
      rw [if_pos (hsubnormal.trans hzero), hM, hE', decide_eq_false (hE' ▸ hnarrow)]
  case isFalse hnormal =>
    injection h with hs hM hE
    have hM' := (toNat_implicit _).symm.trans hM
    have hE' : ((@unpackExponent .binary64 b.toBitVec).toNat : ℤ) - 1075 = E := hE
    refine ⟨hs.symm, ⟨‹0 < M›, by omega, by omega, by omega, .inl (by omega)⟩, ?_⟩
    have hnarrow : ((@unpackMantissa .binary64 b.toBitVec).toNat == 0
        && decide (1 < (@unpackExponent .binary64 b.toBitVec).toNat)) = decide (Narrow M E) := by
      rw [Bool.eq_iff_iff]
      simp only [Bool.and_eq_true, beq_iff_eq, decide_eq_true_eq]
      unfold Narrow
      omega
    rw [if_neg (by omega), hnarrow, hE', ← hM']
    rfl

/-- A double that is neither zero nor beyond all numbers is made of its parts. -/
theorem double_of_unpack {x : Float} {s : Sign} {M : ℕ} {E : ℤ} {hM : 0 < M}
    (h : x.toModel.unpack = .finite s M E hM) : ∃ hx : (Binary.ofBits x.toBits).Positive,
      x = double (if x.toBits >>> 63 == 1 then .negative else .positive) hx.canonical := by
  obtain ⟨hs, hc, hbits⟩ : _ ∧ _ ∧ Binary.ofBits x.toBits = _ := ofBits_unpack h
  generalize Binary.ofBits x.toBits = y at hbits
  subst hbits hs
  exact ⟨⟨hc, rfl⟩, eq_pack h⟩

end Decimal

end WidgetSync
