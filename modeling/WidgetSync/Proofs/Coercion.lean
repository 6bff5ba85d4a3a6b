import WidgetSync.Proofs.Firm
import WidgetSync.Proofs.Numerals

/-!
# Values Written and Read Again

A value that was read from source text is written as source text that is read as the value.

Source text under a spelling is a literal of the kind, or it stays source text (`valueOf_cases`).
A literal is not written as it came: a text gets other quotes and other escapes, a number other
digits, and only the name of a choice is given its scope back as it stood. What matters is that
the new text is again a literal of the kind and of the same value. Source text comes back as it
is, so it is again no literal.

Numbers need most of the work. A double is written with the digits of its shortest decimal, in a
form that the reader of source text knows as well (`numberText?_chars`). A literal is never the
undefined value, whose name would be read as source text. It may be infinite though, if it is
beyond the doubles, and then its name is not read back.

## Theorems

* `numberLiteral?_chars`: A written number is read as the number.
* `LiteralOf.scalar`: A literal is written as a literal of the same value.
* `valueOf_scalar`: What was read is written as a text that is read as the same.
-/

namespace WidgetSync

namespace Markup

section Numbers

open Json (powerChars placeChars numberChars)

variable {n : NumberText} (h : Json.Written n)

/-- The digits of a number end where no digit follows. -/
theorem takeWhile_isDigit {ds rest : List Char} (hds : ∀ c ∈ ds, c.isDigit = true)
    (hrest : ∀ c ∈ rest.head?, Text.isDigit c = false) :
    (ds ++ rest).takeWhile Text.isDigit = ds :=
  takeWhile_append_of_forall (fun c hc => Text.isDigit_of_basic (hds c hc)) hrest

include h

theorem exponentText?_chars : exponentText? (powerChars n.exponent) = n.exponent := by
  cases hpower : n.exponent with
  | none => rfl
  | some e =>
      rcases h.power e (by rw [hpower]; rfl) with ⟨hsign, hne, hdigits⟩
      have hread := @takeWhile_isDigit _ [] hdigits (by simp)
      rw [List.append_nil] at hread
      rcases e with ⟨sign, ds⟩
      rcases hsign with rfl | rfl
      all_goals simp [exponentText?, powerChars, hread, hne]

/-- A number without its sign is read from its parts. -/
theorem unsignedText?_chars :
    unsignedText? n.negative (n.whole ++ (placeChars n ++ powerChars n.exponent)) = some n := by
  have hpower := exponentText?_chars h
  have hwhole := h.whole
  -- Neither run of digits goes on behind its end: there is a point, a mark or nothing.
  have hmark : ∀ c ∈ (powerChars n.exponent).head?, c = 'e' := by
    intro c hc
    cases he : n.exponent with
    | none => simp [he, powerChars] at hc
    | some e => simpa [he, powerChars, eq_comm] using hc
  have hends : ∀ c ∈ (powerChars n.exponent).head?, Text.isDigit c = false := by
    intro c hc
    rw [hmark c hc]
    decide
  obtain ⟨negative, whole, point, places, exponent⟩ := n
  simp only at hpower hwhole hmark hends ⊢
  cases point with
  | true =>
      have hfirst := @takeWhile_isDigit _ ('.' :: (places ++ powerChars exponent)) h.digits
        (by simp; decide)
      have hsecond := takeWhile_isDigit h.places hends
      simp only at hfirst hsecond
      simp [unsignedText?, placeChars, hfirst, hsecond, hpower, hwhole]
  | false =>
      have hplaces : places = [] := by simpa using h.point
      have hfirst := takeWhile_isDigit h.digits hends
      simp only at hfirst
      subst hplaces
      have hempty : whole.isEmpty = false := by simpa using hwhole
      simp only [unsignedText?, placeChars, Bool.false_eq_true, if_false, List.nil_append, hfirst,
        List.drop_left, hempty]
      split
      · -- What follows the digits is no point.
        rename_i heq
        have hpoint := hmark '.' (by rw [heq]; rfl)
        exact absurd hpoint (by decide)
      · rw [hpower]

theorem numberText?_chars : numberText? (numberChars n) = some n := by
  have hread := unsignedText?_chars h
  rw [numberChars]
  by_cases hnegative : n.negative = true
  · simp only [hnegative, if_true, List.singleton_append, numberText?] at hread ⊢
    exact hread
  · -- The first character is a digit, so it is no sign.
    rw [if_neg hnegative, List.nil_append]
    rw [Bool.not_eq_true] at hnegative
    rw [hnegative] at hread
    cases hwhole : n.whole with
    | nil => exact absurd hwhole h.whole
    | cons d ds =>
        rw [hwhole, List.cons_append] at hread
        have hd := h.digits d (by simp [hwhole])
        rw [List.cons_append, numberText?.eq_def]
        split
        · rename_i heq
          rw [(List.cons.inj heq).1] at hd
          exact absurd hd (by decide)
        · exact hread

theorem newline_not_mem_chars : '\n' ∉ numberChars n := by
  have hdigits : ∀ ds : List Char, (∀ c ∈ ds, c.isDigit = true) → '\n' ∉ ds :=
    fun ds hds hmem => absurd (hds _ hmem) (by decide)
  have hplaces : '\n' ∉ placeChars n := by
    rw [placeChars]
    split
    · simpa using hdigits _ h.places
    · simp
  have hpower : '\n' ∉ powerChars n.exponent := by
    cases he : n.exponent with
    | none => simp [powerChars]
    | some e =>
        obtain ⟨hsign | hsign, -, hds⟩ := h.power e (by rw [he]; rfl)
        all_goals simpa [powerChars, hsign] using hdigits _ hds
  have hsign : '\n' ∉ (if n.negative then ['-'] else []) := by
    split <;> simp
  simp only [numberChars, List.mem_append, not_or]
  exact ⟨hsign, hdigits _ h.digits, hplaces, hpower⟩

/-- A written number is read as the number. -/
theorem numberLiteral?_chars {v : Value} (hv : n.value = .ok v) :
    numberLiteral? (String.ofList (numberChars n)) = .ok (some v) := by
  have hline : Catalog.withoutFinalLineFeed (numberChars n) = numberChars n :=
    Catalog.withoutFinalLineFeed_eq_self fun c hc heq => newline_not_mem_chars h (heq ▸ hc)
  simp only [numberLiteral?, String.toList_ofList, hline, numberText?_chars h,
    Json.numberChars_length h, if_true, hv]
  rfl

end Numbers

/-- A number that its text stands for is not the undefined value. -/
theorem NumberText.defined {n : NumberText} {x : Float} (h : n.value = .ok (.float x)) :
    x.isNaN = false := by
  unfold NumberText.value at h
  split at h
  · simp only [Except.ok.injEq, Value.float.injEq] at h
    rw [← h]
    exact Decimal.isNaN_rounded _ _ _
  · split at h
    · simp at h
    · simp at h

/-- A number that is read comes from the parts of its text. -/
theorem numberLiteral?_parts {raw : String} {v : Value} (h : numberLiteral? raw = .ok (some v)) :
    ∃ n : NumberText, n.value = .ok v := by
  simp only [numberLiteral?] at h
  split at h
  · rename_i n _
    refine ⟨n, ?_⟩
    split at h
    · cases hn : n.value with
      | error e => simp [hn, Except.map] at h
      | ok w => simpa [hn, Except.map] using h
    · simp at h
  · simp at h

-- Each kind of literal

/-- A simple name with a line end behind it has no point. -/
theorem not_mem_of_withoutFinalLineFeed {cs : List Char}
    (h : isSimpleName (Catalog.withoutFinalLineFeed cs) = true) : '.' ∉ cs := by
  have hname := not_mem_of_isSimpleName h (c := '.') (by decide)
  unfold Catalog.withoutFinalLineFeed at hname
  split at hname
  · rename_i front hrev
    have hcs : cs = front.reverse ++ ['\n'] := by
      rw [← List.reverse_reverse cs, hrev, List.reverse_cons]
    simp only [hcs, List.mem_append, not_or]
    exact ⟨hname, by decide⟩
  · exact hname

variable {raw : String} {spelling : Catalog.Spelling} {v : Value}

/-- A name that was taken out of its scope is put back there as it stood. -/
theorem inScope_of_scopedName? {scope : Option String} {name : String}
    (h : scopedName? scope raw = some name) : inScope scope name = raw := by
  cases scope with
  | none => simp [scopedName?] at h
  | some scope =>
      simp only [scopedName?] at h
      split at h
      · simp at h
      · rename_i hfront
        split at h
        · rename_i hsimple
          simp only [Bool.or_eq_true, Bool.not_eq_true', not_or, Bool.not_eq_false,
            List.isPrefixOf_iff_prefix, Bool.not_eq_true] at hfront
          obtain ⟨hempty, rest, hrest⟩ := hfront
          rw [← hrest, List.drop_left] at h hsimple
          obtain rfl := Option.some.inj h
          have hpoint : rest.contains '.' = false := by
            simpa using not_mem_of_withoutFinalLineFeed hsimple
          simp only [inScope, String.toList_ofList, hempty, hpoint]
          rw [← String.toList_inj]
          simp [← hrest, toString]
        · simp at h

/-- A literal that is written is a literal of the same value. -/
theorem LiteralOf.scalar (h : LiteralOf raw spelling v)
    (hbounded : ∀ x, v = .float x → x.isInf = false) :
    ∃ text, scalar v (some spelling) = .ok text ∧ LiteralOf text spelling v := by
  cases h with
  | @bool _ b => exact ⟨_, rfl, .bool rfl⟩
  | number h =>
      obtain ⟨n, hn⟩ := numberLiteral?_parts h
      cases gainedNumber_of_numberLiteral? h with
      | int hwritable =>
          refine ⟨_, ?_, .number (numberLiteral?_integer hwritable)⟩
          rw [scalar_integer, literal_integer, if_pos hwritable]
      | float x =>
          obtain ⟨m, hwritten, htext, hm⟩ :=
            Decimal.shown.write_shows (NumberText.defined hn) (hbounded x rfl)
          refine ⟨Decimal.shown.write x, rfl, .number ?_⟩
          have hread := numberLiteral?_chars hwritten hm
          rwa [← htext, String.ofList_toList] at hread
  | name hname =>
      exact ⟨raw, by simp only [Markup.scalar, inScope_of_scopedName? hname], .name hname⟩
  | @text kind scope t hkind =>
      rcases hkind with rfl | rfl | rfl
      · exact ⟨localized t, rfl, .text (.inl rfl) (stringLiteral?_localized t)⟩
      · exact ⟨quote t, rfl, .text (.inr (.inl rfl)) (stringLiteral?_quote t)⟩
      · exact ⟨quote t, rfl, .text (.inr (.inr rfl)) (stringLiteral?_quote t)⟩

/-- What was read from source text, under any spelling or none, is written as source text that is
    read as the same value. The values that are beyond all numbers are not: they have no
    literal. -/
theorem valueOf_scalar {spelling : Option Catalog.Spelling} (h : valueOf raw spelling = .ok v)
    (hbounded : ∀ x, v = .float x → x.isInf = false) :
    ∃ text, scalar v spelling = .ok text ∧ valueOf text spelling = .ok v := by
  rcases valueOf_cases h with rfl | ⟨spelling, rfl, hliteral⟩
  · -- It stayed source text, and is written as it came.
    exact ⟨raw, rfl, h⟩
  · obtain ⟨text, hscalar, hread⟩ := hliteral.scalar hbounded
    exact ⟨text, hscalar, hread.valueOf⟩

/-- Digits of any script stand for a number, which is then written with other digits. -/
theorem valueOf_scalar_digits :
    valueOf "-٢.50E+1\n" (some ⟨.number, none⟩) = .ok (.float (-25.0)) ∧
      ∃ text, scalar (.float (-25.0)) (some ⟨.number, none⟩) = .ok text ∧
        valueOf text (some ⟨.number, none⟩) = .ok (.float (-25.0)) :=
  have h : valueOf "-٢.50E+1\n" (some ⟨.number, none⟩) = .ok (.float (-25.0)) := by rfl
  ⟨h, valueOf_scalar h fun x hx => by cases hx; decide⟩

end Markup

end WidgetSync
