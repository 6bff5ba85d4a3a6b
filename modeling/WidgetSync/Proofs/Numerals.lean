import WidgetSync.Proofs.JsonText
import WidgetSync.Proofs.Shortest

/-!
# The Text of a Double

Every double is written as a text that is read as the double.

A text may show the digits of the shortest decimal in four ways: all behind the
point, all before it, on both sides of it, or with a power of ten. Zeros are added
where the point stands outside the digits, so the digits that are read are not
always those of the decimal, but they stand for the same number (`Shows`).

The values that are no numbers are words, and zero has a text of its own for each
sign.

## Main definitions

* `numeral`: The decimal that the text of a number stands for.
* `Shows`: A text is that of a double and stands for a number.
* `Numerals`: The digits of a number that is not zero.

## Theorems

* `Numerals.positional_shows`, `Numerals.scientific_shows`: All ways show the decimal.
* `Layout.write_shows`: A double that is a number is written as one that stands for it.
* `spells_float`: Every double is written as a text that spells it.
-/

namespace WidgetSync

namespace Text

theorem digitsValue_zeros_append (k : ℕ) (ds : List Char) :
    digitsValue (List.replicate k '0' ++ ds) = digitsValue ds := by
  induction k with
  | zero => rfl
  | succ k ih => exact ih

theorem digitsValue_append_zeros (ds : List Char) (k : ℕ) :
    digitsValue (ds ++ List.replicate k '0') = digitsValue ds * 10 ^ k := by
  induction k with
  | zero => rw [List.replicate_zero, List.append_nil, pow_zero, Nat.mul_one]
  | succ k ih =>
      rw [List.replicate_succ', ← List.append_assoc, digitsValue_concat, ih, pow_succ,
        ← Nat.mul_assoc]
      rfl

end Text

namespace Decimal

/-- The decimal that the text of a number stands for. -/
def numeral (n : Markup.NumberText) : Digits :=
  ⟨Text.digitsValue (n.whole ++ n.places),
    (n.exponent.map Markup.ExponentText.value).getD 0 - n.places.length⟩

theorem value_numeral {n : Markup.NumberText} (h : (n.point || n.exponent.isSome) = true) :
    n.value = .ok (.float (rounded n.negative (numeral n).digits (numeral n).exponent)) := by
  rw [Markup.NumberText.value, if_pos h]
  rfl

/-- The text is that of a double, and stands for a decimal with this value. -/
def Shows (negative : Bool) (cs : List Char) (q : ℚ) : Prop :=
  ∃ n : Markup.NumberText, Json.Written n ∧ n.negative = negative ∧
    (n.point || n.exponent.isSome) = true ∧
    Json.numberChars n = (if negative then ['-'] else []) ++ cs ∧ (numeral n).value = q

section Point

variable {whole places : List Char} (hwhole : whole ≠ []) (hplaces : places ≠ [])
  (hdigits : ∀ c ∈ whole ++ places, c.isDigit = true)
  (hzero : whole.head? = some '0' → whole = ['0']) (negative : Bool)

include hwhole hplaces hdigits hzero

theorem written_point : Json.Written ⟨negative, whole, true, places, none⟩ where
  whole := hwhole
  digits := fun c hc => hdigits c (List.mem_append_left _ hc)
  zero := hzero
  point := by
    cases places with
    | nil => exact absurd rfl hplaces
    | cons c cs => rfl
  places := fun c hc => hdigits c (List.mem_append_right _ hc)
  power := fun e he => absurd he (Option.not_mem_none e)

/-- Digits with a point between them stand for the number of all digits, moved by the
    places. -/
theorem shows_point : Shows negative (whole ++ '.' :: places)
    (Text.digitsValue (whole ++ places) * 10 ^ (-places.length : ℤ)) := by
  refine ⟨_, written_point hwhole hplaces hdigits hzero negative, rfl, rfl, ?_, ?_⟩
  · rw [Json.numberChars, Json.placeChars, if_pos rfl, Json.powerChars, List.append_nil]
  · rw [Digits.value, numeral, Option.map_none, Option.getD_none, zero_sub]

end Point

/-- The digits of a power of ten, two at least. -/
def powerDigits (k : ℕ) : List Char :=
  let size := Nat.toDigits 10 k
  if size.length < 2 then '0' :: size else size

theorem powerDigits_ne_nil (k : ℕ) : powerDigits k ≠ [] := by
  rw [powerDigits]
  split
  · exact List.cons_ne_nil _ _
  · exact Nat.toDigits_ne_nil

theorem isDigit_powerDigits {k : ℕ} {c : Char} (hc : c ∈ powerDigits k) : c.isDigit = true := by
  have hsize : ∀ c ∈ Nat.toDigits 10 k, c.isDigit = true := fun c hc =>
    Nat.isDigit_of_mem_toDigits (by decide) (by decide) hc
  rw [powerDigits] at hc
  split at hc
  · rcases List.mem_cons.mp hc with rfl | hc
    · rfl
    · exact hsize c hc
  · exact hsize c hc

theorem digitsValue_powerDigits (k : ℕ) : Text.digitsValue (powerDigits k) = k := by
  rw [powerDigits]
  split
  · exact (Text.digitsValue_zeros_append 1 _).trans (Text.digitsValue_toDigits k)
  · exact Text.digitsValue_toDigits k

/-- The digits of a number that is not zero. -/
structure Numerals (ds : List Char) (n : ℕ) : Prop where
  digits : ∀ c ∈ ds, c.isDigit = true
  value : Text.digitsValue ds = n
  leading : ∃ d es, ds = d :: es ∧ d ≠ '0'

theorem numerals_toDigits {n : ℕ} (hn : 0 < n) : Numerals (Nat.toDigits 10 n) n where
  digits := fun _ hc => Nat.isDigit_of_mem_toDigits (by decide) (by decide) hc
  value := Text.digitsValue_toDigits n
  leading := by
    have hvalue := Text.digitsValue_toDigits n
    cases hds : Nat.toDigits 10 n with
    | nil => exact absurd hds Nat.toDigits_ne_nil
    | cons d es =>
        refine ⟨d, es, rfl, ?_⟩
        rintro rfl
        rw [hds, Json.toDigits_zero hds] at hvalue
        exact absurd hvalue hn.ne

namespace Numerals

variable {ds : List Char} {n : ℕ} (h : Numerals ds n) (negative : Bool) {leading : ℤ}

include h

theorem ne_nil : ds ≠ [] := by
  rcases h.leading with ⟨d, es, rfl, -⟩
  exact List.cons_ne_nil d es

/-- What starts with the digits does not start with zero. -/
theorem head?_ne {cs : List Char} (hhead : cs.head? = ds.head?) : cs.head? ≠ some '0' := by
  rcases h.leading with ⟨d, es, rfl, hd⟩
  rw [hhead]
  exact fun heq => hd (Option.some.inj heq)

/-- All digits stand behind the point, with zeros in front of them. -/
theorem positional_below (hleading : leading < 0) :
    Shows negative (positional ds leading) (n * 10 ^ (leading + 1 - ds.length)) := by
  have hzeros : ∀ k, ['0'] ++ (List.replicate k '0' ++ ds) = List.replicate (k + 1) '0' ++ ds :=
    fun k => rfl
  have hplaces : List.replicate ((-leading).toNat - 1) '0' ++ ds ≠ [] :=
    List.append_ne_nil_of_right_ne_nil _ h.ne_nil
  have hdigits : ∀ c ∈ ['0'] ++ (List.replicate ((-leading).toNat - 1) '0' ++ ds),
      c.isDigit = true := by
    intro c hc
    rw [hzeros] at hc
    rcases List.mem_append.mp hc with hc | hc
    · rw [List.eq_of_mem_replicate hc]
      rfl
    · exact h.digits c hc
  have hshows :=
    shows_point (List.cons_ne_nil '0' []) hplaces hdigits (fun _ => rfl) negative
  have hexponent : (-((-leading).toNat - 1 + ds.length : ℕ) : ℤ) = leading + 1 - ds.length := by
    omega
  rw [hzeros, Text.digitsValue_zeros_append, h.value, List.length_append, List.length_replicate,
    hexponent] at hshows
  rw [positional, if_pos hleading]
  exact hshows

/-- All digits stand before the point, with zeros behind them. -/
theorem positional_padded (hleading : 0 ≤ leading) (hshort : ds.length ≤ leading.toNat + 1) :
    Shows negative (positional ds leading) (n * 10 ^ (leading + 1 - ds.length)) := by
  obtain ⟨k, hk⟩ : ∃ k, leading.toNat + 1 - ds.length = k := ⟨_, rfl⟩
  have hzeros : ds ++ List.replicate k '0' ++ ['0'] = ds ++ List.replicate (k + 1) '0' := by
    rw [List.replicate_succ', List.append_assoc]
  have hhead : (ds ++ List.replicate k '0').head? ≠ some '0' :=
    h.head?_ne (List.head?_append_of_ne_nil _ h.ne_nil)
  have hdigits : ∀ c ∈ ds ++ List.replicate k '0' ++ ['0'], c.isDigit = true := by
    intro c hc
    rw [hzeros] at hc
    rcases List.mem_append.mp hc with hc | hc
    · exact h.digits c hc
    · rw [List.eq_of_mem_replicate hc]
      rfl
  have hshows := shows_point (List.append_ne_nil_of_left_ne_nil h.ne_nil _)
    (List.cons_ne_nil '0' []) hdigits (fun hzero => absurd hzero hhead) negative
  have hvalue : ((n * 10 ^ (k + 1) : ℕ) : ℚ) * 10 ^ (-['0'].length : ℤ)
      = n * 10 ^ (leading + 1 - ds.length) := by
    push_cast
    rw [mul_assoc, ← zpow_natCast, ← zpow_add₀ (by norm_num), List.length_singleton]
    congr 2
    omega
  rw [hzeros, Text.digitsValue_append_zeros, h.value, hvalue] at hshows
  rw [positional, if_neg (not_lt.mpr hleading)]
  simp only [List.take_of_length_le hshort, List.drop_eq_nil_of_le hshort, hk, List.isEmpty_nil,
    if_true]
  exact hshows

/-- The point stands among the digits. -/
theorem positional_split (hleading : 0 ≤ leading) (hlong : leading.toNat + 1 < ds.length) :
    Shows negative (positional ds leading) (n * 10 ^ (leading + 1 - ds.length)) := by
  have hparts := List.take_append_drop (leading.toNat + 1) ds
  have hwhole : ds.take (leading.toNat + 1) ≠ [] := by
    rw [List.ne_nil_iff_length_pos, List.length_take]
    omega
  have hplaces : ds.drop (leading.toNat + 1) ≠ [] := by
    rw [List.ne_nil_iff_length_pos, List.length_drop]
    omega
  have hhead : (ds.take (leading.toNat + 1)).head? ≠ some '0' := by
    refine h.head?_ne ?_
    rw [List.head?_take, if_neg (Nat.succ_ne_zero _)]
  have hshows := shows_point hwhole hplaces (hparts.symm ▸ h.digits)
    (fun hzero => absurd hzero hhead) negative
  have hexponent : (-(ds.length - (leading.toNat + 1) : ℕ) : ℤ) = leading + 1 - ds.length := by
    omega
  rw [hparts, h.value, List.length_drop, hexponent] at hshows
  rw [positional, if_neg (not_lt.mpr hleading)]
  simp only [Nat.sub_eq_zero_of_le hlong.le, List.replicate_zero, List.append_nil,
    List.isEmpty_eq_false_iff.mpr hplaces, Bool.false_eq_true, if_false]
  exact hshows

theorem positional_shows (leading : ℤ) :
    Shows negative (positional ds leading) (n * 10 ^ (leading + 1 - ds.length)) := by
  by_cases hleading : leading < 0
  · exact h.positional_below negative hleading
  by_cases hshort : ds.length ≤ leading.toNat + 1
  · exact h.positional_padded negative (not_lt.mp hleading) hshort
  · exact h.positional_split negative (not_lt.mp hleading) (not_le.mp hshort)

/-- The first digit stands before the point, and a power of ten behind the others. -/
theorem scientific_shows (leading : ℤ) :
    Shows negative (scientific ds leading) (n * 10 ^ (leading + 1 - ds.length)) := by
  rcases h.leading with ⟨d, es, rfl, hd⟩
  refine ⟨⟨negative, [d], !es.isEmpty, es,
      some ⟨some (if leading < 0 then '-' else '+'), powerDigits leading.natAbs⟩⟩,
    ⟨List.cons_ne_nil _ _, ?_, ?_, rfl, ?_, ?_⟩, rfl, Bool.or_true _, ?_, ?_⟩
  · intro c hc
    exact h.digits c (List.mem_singleton.mp hc ▸ List.mem_cons_self)
  · exact fun hzero => absurd (Option.some.inj hzero) hd
  · exact fun c hc => h.digits c (List.mem_cons_of_mem _ hc)
  · intro e he
    obtain rfl := Option.mem_some_iff.mp he
    refine ⟨?_, powerDigits_ne_nil _, fun c hc => isDigit_powerDigits hc⟩
    split
    · exact .inr rfl
    · exact .inl rfl
  · cases es with
    | nil => rfl
    | cons e es => rfl
  · have hpower : (Markup.ExponentText.value
        ⟨some (if leading < 0 then '-' else '+'), powerDigits leading.natAbs⟩) = leading := by
      rw [Markup.ExponentText.value, digitsValue_powerDigits]
      by_cases hleading : leading < 0
      · rw [if_pos hleading, if_pos rfl]
        omega
      · rw [if_neg hleading, if_neg (fun heq => absurd (Option.some.inj heq) (by decide))]
        omega
    have hexponent : leading - es.length = leading + 1 - (d :: es).length := by
      rw [List.length_cons]
      omega
    rw [Digits.value, numeral, Option.map_some, Option.getD_some, hpower, List.singleton_append,
      h.value, hexponent]

end Numerals

/-- The text of a positive double stands for its shortest decimal. -/
theorem Layout.magnitude_shows (l : Layout) {x : Binary} (hx : x.Positive) (negative : Bool) :
    Shows negative (l.magnitude x) (shortest x).value := by
  have hnumerals := numerals_toDigits hx.shortest_pos
  have hvalue : (shortest x).value = (shortest x).digits
      * 10 ^ ((shortest x).exponent + (Nat.toDigits 10 (shortest x).digits).length - 1 + 1
        - (Nat.toDigits 10 (shortest x).digits).length) := by
    rw [Digits.value, sub_add_cancel, add_sub_cancel_right]
  rw [hvalue, Layout.magnitude, if_neg hx.canonical.pos.ne']
  simp only
  split
  · exact hnumerals.positional_shows negative _
  · exact hnumerals.scientific_shows negative _

/-- The texts of zeros. -/
theorem written_zero (negative : Bool) : Json.Written ⟨negative, ['0'], true, ['0'], none⟩ :=
  written_point (List.cons_ne_nil _ _) (List.cons_ne_nil _ _) (List.all_eq_true.mp rfl)
    (fun _ => rfl) negative

theorem Layout.write_zero (l : Layout) (s : Float.Model.UnpackedFloat.Sign) :
    (l.write ⟨Float.Model.pack (.zero s)⟩).toList
      = Json.numberChars ⟨s == .negative, ['0'], true, ['0'], none⟩ := by
  obtain ⟨x, hx⟩ : ∃ x : Float, x = ⟨Float.Model.pack (.zero s)⟩ := ⟨_, rfl⟩
  have hnumber : x.isNaN = false ∧ x.isInf = false ∧ (Binary.ofBits x.toBits).significand = 0 ∧
      (x.toBits >>> 63 == 1) = (s == .negative) := by
    rw [hx]
    cases s <;> decide
  rw [← hx, Layout.write, hnumber.1, hnumber.2.1, hnumber.2.2.2, Layout.magnitude,
    if_pos hnumber.2.2.1]
  simp only [Bool.false_eq_true, if_false, String.toList_append, String.toList_ofList]
  cases s <;> rfl

/-- A double that is a number is written as a number that stands for it, whatever the layout
    calls the other values. -/
theorem Layout.write_shows (l : Layout) {x : Float} (hnan : x.isNaN = false)
    (hinf : x.isInf = false) :
    ∃ n : Markup.NumberText, Json.Written n ∧ (l.write x).toList = Json.numberChars n ∧
      n.value = .ok (.float x) := by
  have hdefined : x.toModel.unpack.isNaN = false := hnan
  have hbounded : x.toModel.unpack.isInf = false := hinf
  cases h : x.toModel.unpack with
  | notANumber =>
      rw [h] at hdefined
      exact Bool.noConfusion hdefined
  | infinity s =>
      rw [h] at hbounded
      exact Bool.noConfusion hbounded
  | zero s =>
      obtain rfl := eq_pack h
      refine ⟨_, written_zero (s == .negative), l.write_zero s, ?_⟩
      cases s <;> rfl
  | finite s M E hM =>
      obtain ⟨hx, hdouble⟩ := double_of_unpack h
      obtain ⟨n, hwritten, hnegative, hfraction, hchars, hvalue⟩ :=
        l.magnitude_shows hx (x.toBits >>> 63 == 1)
      have hround := Digits.rounded_eq hx.canonical (hvalue ▸ hx.shortest_roundsTo) n.negative
      refine ⟨n, hwritten, ?_, ?_⟩
      · rw [Layout.write, hnan, hinf, hchars]
        simp only [Bool.false_eq_true, if_false, String.toList_append, String.toList_ofList]
        split <;> rfl
      · rw [value_numeral hfraction, hround, hnegative, ← hdouble]

end Decimal

namespace Json

open Decimal Float.Model

/-- A double that is a number is written as a text that spells it. -/
theorem spells_finite {x : Float} (hnan : x.isNaN = false) (hinf : x.isInf = false) :
    Spells (number.write x).toList (.float x) := by
  obtain ⟨n, hwritten, htext, hvalue⟩ := number.write_shows hnan hinf
  rw [htext]
  exact spells_number hwritten hvalue

/-- Every double is written as a text that spells it. -/
theorem spells_float (x : Float) : Spells (number.write x).toList (.float x) := by
  cases h : x.toModel.unpack with
  | notANumber =>
      obtain rfl := eq_pack h
      exact spells_word rfl ⟨by decide, by decide, by decide⟩ fun _ => rfl
  | infinity s =>
      obtain rfl := eq_pack h
      cases s with
      | positive => exact spells_word rfl ⟨by decide, by decide, by decide⟩ fun _ => rfl
      | negative => exact spells_word rfl ⟨by decide, by decide, by decide⟩ fun _ => rfl
  | zero s =>
      obtain rfl := eq_pack h
      exact spells_finite (by cases s <;> decide) (by cases s <;> decide)
  | finite s M E hM =>
      refine spells_finite ?_ ?_
      · change x.toModel.unpack.isNaN = false
        rw [h]
        rfl
      · change x.toModel.unpack.isInf = false
        rw [h]
        rfl

end Json

end WidgetSync
