import WidgetSync.Markup.Literal
import WidgetSync.Node.Ids

/-!
# Characters of the Written Text

What the classes of characters have to do with each other.

The writer puts names, numbers and quotes next to blanks, colons and braces, and
the reader tells them apart character by character. Whether it finds the same
borders again depends on a few facts only: what may start a name is neither a
digit nor a blank, what may stand inside a name is no punctuation, and no word
character is trimmed away.

The classes are tables for the whole character standard, but a name starts with
a basic letter, so most facts are about the first 128 characters and are settled
by looking at each of them. The exception is that word characters are not blank,
which concerns all scripts. There the table of blanks is the short one:
`isWord_of_isBlank` goes through its twenty-nine members.

Digits come in from the other side. An integer is written with the digits of the
standard library, and `digitsValue_toDigits` says that the reader's value of
these digits is the integer again.

## Main definitions

* `CharClass.runs`: The members of a class as runs of code points.

## Theorems

* `ascii_forall`: A property of the first 128 characters, by looking at each.
* `exists_run_of_contains`: A member of a class lies in one of its runs.
* `isWord_of_isBlank`: A blank is no word character.
* `digitsValue_toDigits`: The digits of a number have the number as their value.
* `startsName_lt`: What starts a name is a basic character.
* `isIdChar_continuesName`: What may stand in an id may stand in a name.
-/

namespace WidgetSync

/-- A property that holds of each of the first 128 characters. -/
theorem ascii_forall {p : Char → Bool}
    (h : (List.range 128).all (fun n => p (Char.ofNat n)) = true) (c : Char)
    (hc : c.toNat < 128) : p c = true := by
  have hn := List.all_eq_true.mp h c.toNat (List.mem_range.mpr hc)
  rwa [Char.ofNat_toNat] at hn

namespace Text

/-- The runs of code points between the places where membership starts and ends. -/
def CharClass.runs : List Nat → List (Nat × Nat)
  | a :: b :: rest => (a, b) :: CharClass.runs rest
  | _ => []

theorem exists_run_of_oddChanges (n : Nat) (changes : List Nat) (heven : changes.length % 2 = 0)
    (h : oddChanges changes n = true) :
    ∃ r ∈ CharClass.runs changes, r.1 ≤ n ∧ n < r.2 := by
  induction changes using CharClass.runs.induct with
  | case1 a b rest ih =>
      simp only [List.length_cons] at heven
      unfold oddChanges oddChanges at h
      split at h
      · exact absurd h (by decide)
      · split at h
        · exact ⟨(a, b), List.mem_cons_self, by simp only; omega⟩
        · rw [Bool.not_not] at h
          rcases ih (by omega) h with ⟨r, hr, hin⟩
          exact ⟨r, List.mem_cons_of_mem _ hr, hin⟩
  | case2 changes hshort =>
      rcases changes with _ | ⟨a, _ | ⟨b, rest⟩⟩
      · exact absurd h (by simp only [oddChanges, Bool.false_eq_true, not_false_eq_true])
      · simp only [List.length_cons, List.length_nil] at heven
        omega
      · exact absurd rfl (hshort a b rest)

/-- A member of a class lies in one of its runs. -/
theorem exists_run_of_contains (k : CharClass) (heven : k.changes.length % 2 = 0) {c : Char}
    (h : k.contains c = true) : ∃ r ∈ CharClass.runs k.changes, r.1 ≤ c.toNat ∧ c.toNat < r.2 :=
  exists_run_of_oddChanges c.toNat k.changes heven h

/-- The code points of the blanks. -/
def blankCodes : List Nat :=
  (CharClass.runs blank.changes).flatMap fun r => List.range' r.1 (r.2 - r.1)

theorem mem_blankCodes {c : Char} (h : isBlank c = true) : c.toNat ∈ blankCodes := by
  rcases exists_run_of_contains blank (by decide) h with ⟨r, hr, hlow, hhigh⟩
  exact List.mem_flatMap.mpr ⟨r, hr, by rw [List.mem_range'_1]; omega⟩

/-- A blank is no word character. -/
theorem isWord_of_isBlank {c : Char} (h : isBlank c = true) : isWord c = false := by
  have hall : blankCodes.all (fun n => !isWord (Char.ofNat n)) = true := by decide +kernel
  have hc := List.all_eq_true.mp hall c.toNat (mem_blankCodes h)
  rw [Char.ofNat_toNat] at hc
  simpa only [Bool.not_eq_true'] using hc

theorem isBlank_of_isWord {c : Char} (h : isWord c = true) : isBlank c = false := by
  by_cases hb : isBlank c = true
  · rw [isWord_of_isBlank hb] at h
    exact absurd h (by decide)
  · simpa only [Bool.not_eq_true] using hb

theorem digitsValue_concat (ds : List Char) (c : Char) :
    digitsValue (ds ++ [c]) = digitsValue ds * 10 + (digitValue? c).getD 0 := by
  simp only [digitsValue, List.foldl_append, List.foldl_cons, List.foldl_nil]

theorem digitValue?_digitChar {d : Nat} (h : d < 10) :
    digitValue? (Nat.digitChar d) = some d := by
  have hall : ∀ d < 10, digitValue? (Nat.digitChar d) = some d := by decide
  exact hall d h

/-- The digits of a number have the number as their value. -/
theorem digitsValue_toDigits (n : Nat) : digitsValue (Nat.toDigits 10 n) = n := by
  induction n using Nat.strongRecOn with
  | _ n ih =>
      by_cases h : n < 10
      · rw [Nat.toDigits_of_lt_base h]
        simp only [digitsValue, List.foldl_cons, List.foldl_nil, digitValue?_digitChar h,
          Option.getD_some]
        omega
      · rw [Nat.toDigits_of_base_le (by omega) (by omega), digitsValue_concat,
          ih (n / 10) (by omega), digitValue?_digitChar (Nat.mod_lt n (by omega)),
          Option.getD_some]
        omega

theorem isDigit_of_basic {c : Char} (h : c.isDigit = true) : isDigit c = true := by
  have hlt : c.toNat < 128 := by
    simp only [Char.isDigit, Bool.and_eq_true, decide_eq_true_eq] at h
    have : c.toNat ≤ 57 := h.2
    omega
  have hall := ascii_forall (p := fun c => !c.isDigit || isDigit c) (by decide) c hlt
  simpa only [h, Bool.not_true, Bool.false_or] using hall

theorem isDigit_of_mem_toDigits {n : Nat} {c : Char} (h : c ∈ Nat.toDigits 10 n) :
    isDigit c = true :=
  isDigit_of_basic (Nat.isDigit_of_mem_toDigits (by omega) (by omega) h)

end Text

namespace Markup

/-- Letters are basic characters. -/
theorem isAlpha_lt {c : Char} (h : c.isAlpha = true) : c.toNat < 128 := by
  have hcase : (c.isUpper || c.isLower) = true := h
  rcases (Bool.or_eq_true _ _).mp hcase with hupper | hlower
  · have hrange : decide (c.val ≥ 'A'.val ∧ c.val ≤ 'Z'.val) = true := hupper
    have : c.toNat ≤ 90 := (of_decide_eq_true hrange).2
    omega
  · have hrange : (decide (c.val ≥ 'a'.val) && decide (c.val ≤ 'z'.val)) = true := hlower
    have : c.toNat ≤ 122 := of_decide_eq_true ((Bool.and_eq_true _ _).mp hrange).2
    omega

/-- What starts a name is a basic character. -/
theorem startsName_lt {c : Char} (h : startsName c = true) : c.toNat < 128 := by
  simp only [startsName, Bool.or_eq_true, beq_iff_eq] at h
  rcases h with (h | rfl) | rfl
  · exact isAlpha_lt h
  · decide
  · decide

theorem startsName_continuesName {c : Char} (h : startsName c = true) :
    continuesName c = true := by
  have hall := ascii_forall (p := fun c => !startsName c || continuesName c) (by decide +kernel) c
    (startsName_lt h)
  simpa only [h, Bool.not_true, Bool.false_or] using hall

theorem startsName_not_isDigit {c : Char} (h : startsName c = true) : Text.isDigit c = false := by
  have hall := ascii_forall (p := fun c => !startsName c || !Text.isDigit c) (by decide +kernel) c
    (startsName_lt h)
  simpa only [h, Bool.not_true, Bool.false_or, Bool.not_eq_true'] using hall

theorem continuesName_not_isBlank {c : Char} (h : continuesName c = true) :
    Text.isBlank c = false := by
  simp only [continuesName, Bool.or_eq_true, beq_iff_eq] at h
  rcases h with h | rfl
  · exact Text.isBlank_of_isWord h
  · decide

theorem isIdChar_lt {c : Char} (h : isIdChar c = true) : c.toNat < 128 := by
  have hcase : ((c.isAlpha || c.isDigit) || c == '_') = true := h
  simp only [Bool.or_eq_true, beq_iff_eq] at hcase
  rcases hcase with (halpha | hdigit) | rfl
  · exact isAlpha_lt halpha
  · have hrange : (decide (c.val ≥ '0'.val) && decide (c.val ≤ '9'.val)) = true := hdigit
    have : c.toNat ≤ 57 := of_decide_eq_true ((Bool.and_eq_true _ _).mp hrange).2
    omega
  · decide

/-- What may stand in an id may stand in a name. -/
theorem isIdChar_continuesName {c : Char} (h : isIdChar c = true) : continuesName c = true := by
  have hall := ascii_forall (p := fun c => !isIdChar c || continuesName c) (by decide +kernel) c
    (isIdChar_lt h)
  simpa only [h, Bool.not_true, Bool.false_or] using hall

end Markup

end WidgetSync
