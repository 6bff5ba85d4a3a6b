import WidgetSync.Proofs.Gained
import WidgetSync.Wire.JsonReader
import WidgetSync.Wire.JsonWriter

/-!
# JSON Values without Parts

What the writer makes of a text, a number or a word is read as the same value.

A text spells a value if the reader finds the value in it and stops behind it,
whatever a value may be followed by: nothing, a comma or the end of a line. The
reader counts the values it has opened, and a text that spells a value is long
enough to pay for them, one character each. So the length of the text is the
measure that an induction over nested values needs, and no bound on the nesting is
left in the result.

Each kind of value has its own argument. A text goes through its escapes and back.
A number is put together from its parts and taken apart again, so that a number
that is written in some other way needs its parts only.

## Main definitions

* `endsValue`: What may follow a value.
* `Spells`: A text stands for a value.
* `numberChars`: The characters of a number with given parts.
* `Written`: The parts of a number, as numbers are written.

## Theorems

* `readText?_quoted`: A quoted text is read as written.
* `spells_text`, `spells_word`, `spells_integer`: Texts, words and integers.
* `spells_number`: A number is read from its parts.
-/

namespace WidgetSync

namespace Json

/-- Nothing follows, or what may follow a value: a comma or the end of a line. -/
def endsValue (rest : List Char) : Prop :=
  ∀ c ∈ rest.head?, c = ',' ∨ c = '\n'

theorem endsValue_nil : endsValue [] := fun _ hc =>
  absurd hc (by simp only [List.head?_nil, Option.mem_def, reduceCtorEq, not_false_eq_true])

theorem endsValue_comma (rest : List Char) : endsValue (',' :: rest) := fun _ hc =>
  .inl (Option.mem_some_iff.mp hc).symm

theorem endsValue_newline (rest : List Char) : endsValue ('\n' :: rest) := fun _ hc =>
  .inr (Option.mem_some_iff.mp hc).symm

/-- The text stands for the value, wherever a value may end. -/
def Spells (cs : List Char) (v : Value) : Prop :=
  ∀ rest, endsValue rest → ∀ fuel, cs.length ≤ fuel →
    readValue? fuel (cs ++ rest) = some (v, rest)

-- Texts

theorem codeUnit?_hexadecimal {n : Nat} (h : n < 0x20) (rest : List Char) :
    codeUnit? (hexadecimal 4 n ++ rest) = some (n, rest) := by
  have hall : ∀ n < 0x20, (hexadecimal 4 n).length = 4
      ∧ Markup.hexNumber? (hexadecimal 4 n) = some n := by decide
  rcases hall n h with ⟨hlength, hnumber⟩
  rw [codeUnit?, if_pos (by rw [List.length_append]; omega), List.take_left' hlength,
    List.drop_left' hlength, hnumber]
  rfl

theorem codePoint?_hexadecimal {n : Nat} (h : n < 0x20) (rest : List Char) :
    codePoint? (hexadecimal 4 n ++ rest) = some (Char.ofNat n, rest) := by
  have hall : ∀ n < 0x20, Markup.charOf n = Char.ofNat n := by decide
  -- A control character is no half of a pair, whatever follows.
  have hpair : ¬ (0xD800 ≤ n ∧ n ≤ 0xDBFF) := by omega
  simp only [codePoint?, codeUnit?_hexadecimal h, if_neg hpair, hall n h]
  split <;> rfl

/-- A character is written as an escape for it, or as it is where it needs none. -/
theorem escaped_cases (c : Char) :
    (∃ cs, escaped c = '\\' :: cs ∧ ∀ rest, escape? (cs ++ rest) = some (c, rest)) ∨
      (escaped c = [c] ∧ c ≠ '"' ∧ c ≠ '\\' ∧ ¬ c.toNat < 0x20) := by
  have hcode : ∀ n, c.toNat = n → c = Char.ofNat n := fun n hn => by
    rw [← hn, Char.ofNat_toNat]
  unfold escaped
  split
  case isTrue hc =>
    rcases hc with rfl | rfl
    all_goals exact .inl ⟨_, rfl, fun _ => rfl⟩
  case isFalse hmark =>
    rw [not_or] at hmark
    split_ifs with hnewline hreturn htab hback hfeed hcontrol
    · exact .inl ⟨_, rfl, fun _ => by rw [hnewline]; rfl⟩
    · exact .inl ⟨_, rfl, fun _ => by rw [hreturn]; rfl⟩
    · exact .inl ⟨_, rfl, fun _ => by rw [htab]; rfl⟩
    · exact .inl ⟨_, rfl, fun _ => by rw [hcode _ hback]; rfl⟩
    · exact .inl ⟨_, rfl, fun _ => by rw [hcode _ hfeed]; rfl⟩
    · refine .inl ⟨_, rfl, fun rest => ?_⟩
      rw [List.cons_append, escape?, codePoint?_hexadecimal hcontrol, Char.ofNat_toNat]
    · exact .inr ⟨rfl, hmark.1, hmark.2, hcontrol⟩

theorem readText?_escaped (fuel : Nat) (read : List Char) (c : Char) (rest : List Char) :
    readText? (fuel + 1) read (escaped c ++ rest) = readText? fuel (c :: read) rest := by
  rcases escaped_cases c with ⟨cs, hcs, hescape⟩ | ⟨hcs, hquote, hbackslash, hcontrol⟩
  · rw [hcs, List.cons_append, readText?, if_neg (by decide), if_pos rfl, hescape]
  · rw [hcs, List.singleton_append, readText?, if_neg hquote, if_neg hbackslash, if_neg hcontrol]

/-- A text goes through its escapes and back. -/
theorem readText?_quoted {fuel : Nat} (read cs rest : List Char) (h : cs.length < fuel) :
    readText? fuel read (cs.flatMap escaped ++ '"' :: rest)
      = some (String.ofList (read.reverse ++ cs), rest) := by
  induction cs generalizing fuel read with
  | nil =>
      cases fuel with
      | zero => exact absurd h (Nat.not_lt_zero _)
      | succ fuel =>
          rw [List.flatMap_nil, List.nil_append, readText?, if_pos rfl, List.append_nil]
  | cons c cs ih =>
      cases fuel with
      | zero => exact absurd h (Nat.not_lt_zero _)
      | succ fuel =>
          rw [List.length_cons] at h
          rw [List.flatMap_cons, List.append_assoc, readText?_escaped,
            ih (c :: read) (Nat.lt_of_succ_lt_succ h), List.reverse_cons, List.append_assoc,
            List.singleton_append]

theorem length_le_escaped (cs : List Char) : cs.length ≤ (cs.flatMap escaped).length := by
  induction cs with
  | nil => exact Nat.le_refl 0
  | cons c cs ih =>
      have hc : 1 ≤ (escaped c).length := by
        rcases escaped_cases c with ⟨ds, hds, -⟩ | ⟨hds, -⟩
        all_goals
          rw [hds, List.length_cons]
          omega
      rw [List.flatMap_cons, List.length_cons, List.length_append]
      omega

theorem quote_toList (s : String) :
    (quote s).toList = '"' :: (s.toList.flatMap escaped ++ ['"']) := by
  rw [quote, String.toList_ofList, List.cons_append]

/-- The quoted text that starts behind its first quote is read with the fuel that the
    reader gives it. -/
theorem readText?_quote (s : String) (rest : List Char) :
    ∃ cs, (quote s).toList ++ rest = '"' :: cs ∧
      readText? (cs.length + 1) [] cs = some (s, rest) := by
  refine ⟨s.toList.flatMap escaped ++ '"' :: rest, ?_, ?_⟩
  · rw [quote_toList, List.cons_append, List.append_assoc, List.singleton_append]
  · rw [readText?_quoted, List.reverse_nil, List.nil_append, String.ofList_toList]
    have := length_le_escaped s.toList
    rw [List.length_append]
    omega

theorem spells_text (s : String) : Spells (quote s).toList (.text s) := by
  intro rest hrest fuel hfuel
  cases fuel with
  | zero =>
      rw [quote_toList, List.length_cons] at hfuel
      exact absurd hfuel (Nat.not_succ_le_zero _)
  | succ fuel =>
      rcases readText?_quote s rest with ⟨cs, hcs, hread⟩
      rw [hcs, readValue?, hread]
      rfl

-- Numbers

/-- The characters of a power of ten. -/
def powerChars : Option Markup.ExponentText → List Char
  | some e => 'e' :: (e.sign.toList ++ e.digits)
  | none => []

/-- The characters of the places behind the point, with the point. -/
def placeChars (n : Markup.NumberText) : List Char :=
  if n.point then '.' :: n.places else []

/-- The characters of a number. -/
def numberChars (n : Markup.NumberText) : List Char :=
  (if n.negative then ['-'] else []) ++ (n.whole ++ (placeChars n ++ powerChars n.exponent))

/-- The parts of a number, as numbers are written. -/
structure Written (n : Markup.NumberText) : Prop where
  /-- There are digits before the point. -/
  whole : n.whole ≠ []
  digits : ∀ c ∈ n.whole, c.isDigit = true
  /-- Zero stands alone before the point. -/
  zero : n.whole.head? = some '0' → n.whole = ['0']
  /-- There is a point if there are digits behind it. -/
  point : n.point = !n.places.isEmpty
  places : ∀ c ∈ n.places, c.isDigit = true
  /-- A power of ten has a sign and digits. -/
  power : ∀ e ∈ n.exponent, (e.sign = some '+' ∨ e.sign = some '-') ∧ e.digits ≠ [] ∧
    ∀ c ∈ e.digits, c.isDigit = true

/-- No digit follows. -/
def endsDigits (rest : List Char) : Prop :=
  ∀ c ∈ rest.head?, c.isDigit = false

theorem endsDigits_of_endsValue {rest : List Char} (h : endsValue rest) : endsDigits rest := by
  intro c hc
  rcases h c hc with rfl | rfl
  all_goals rfl

theorem endsDigits_power {rest : List Char} (h : endsValue rest)
    (power : Option Markup.ExponentText) : endsDigits (powerChars power ++ rest) := by
  cases power with
  | none => exact endsDigits_of_endsValue h
  | some e =>
      intro c hc
      rw [powerChars, List.cons_append, List.head?_cons, Option.mem_some_iff] at hc
      rw [← hc]
      rfl

theorem digitsOf_append {ds rest : List Char} (hds : ∀ c ∈ ds, c.isDigit = true)
    (hrest : endsDigits rest) : digitsOf (ds ++ rest) = ds :=
  Markup.takeWhile_append_of_forall hds hrest

theorem powerOf?_chars {n : Markup.NumberText} (h : Written n) {rest : List Char}
    (hrest : endsValue rest) : powerOf? (powerChars n.exponent ++ rest) = n.exponent := by
  cases hpower : n.exponent with
  | none =>
      rw [powerChars, List.nil_append]
      cases rest with
      | nil => rfl
      | cons c rest =>
          rcases hrest c rfl with rfl | rfl
          all_goals rfl
  | some e =>
      rcases h.power e (by rw [hpower]; rfl) with ⟨hsign, hne, hdigits⟩
      have hread := digitsOf_append hdigits (endsDigits_of_endsValue hrest)
      have hempty : e.digits.isEmpty = false := List.isEmpty_eq_false_iff.mpr hne
      rcases e with ⟨sign, ds⟩
      rcases hsign with rfl | rfl
      all_goals
        unfold powerOf? powerChars
        simp only [List.cons_append, Option.toList_some, List.nil_append, true_or, if_true, hread,
          hempty, Bool.false_eq_true, if_false]

theorem placesOf_chars {n : Markup.NumberText} (h : Written n) {rest : List Char}
    (hrest : endsValue rest) :
    placesOf (placeChars n ++ (powerChars n.exponent ++ rest)) = n.places := by
  have hpower := endsDigits_power hrest n.exponent
  by_cases hpoint : n.point = true
  · rw [placeChars, if_pos hpoint, List.cons_append, placesOf, digitsOf_append h.places hpower]
  · have hnone : n.places = [] := by
      rwa [h.point, Bool.not_eq_true', Bool.not_eq_false, List.isEmpty_iff] at hpoint
    rw [placeChars, if_neg hpoint, List.nil_append, hnone]
    -- What follows is a power of ten or the end, and no point.
    cases n.exponent with
    | some e => rfl
    | none =>
        cases rest with
        | nil => rfl
        | cons c rest =>
            rcases hrest c rfl with rfl | rfl
            all_goals rfl

theorem endsDigits_places {n : Markup.NumberText} {rest : List Char} (hrest : endsValue rest) :
    endsDigits (placeChars n ++ (powerChars n.exponent ++ rest)) := by
  unfold placeChars
  split
  · intro c hc
    rw [List.cons_append, List.head?_cons, Option.mem_some_iff] at hc
    rw [← hc]
    rfl
  · exact endsDigits_power hrest n.exponent

/-- The digits before the point. Zero stands alone. -/
def wholeOf (cs : List Char) : List Char :=
  match cs with
  | '0' :: _ => ['0']
  | _ => digitsOf cs

theorem wholeOf_chars {n : Markup.NumberText} (h : Written n) {rest : List Char}
    (hrest : endsDigits rest) : wholeOf (n.whole ++ rest) = n.whole := by
  unfold wholeOf
  split
  · rename_i hcons
    cases hwhole : n.whole with
    | nil => exact absurd hwhole h.whole
    | cons c cs =>
        rw [hwhole] at hcons
        rw [← hwhole, h.zero (by rw [hwhole, (List.cons.inj hcons).1]; rfl)]
  · exact digitsOf_append h.digits hrest

/-- The number in a text, part by part. -/
theorem numberText?_eq {negative : Bool} {whole behind : List Char}
    (hwhole : wholeOf (whole ++ behind) = whole) (hne : whole ≠ []) :
    numberText? negative (whole ++ behind)
      = some ⟨negative, whole, !(placesOf behind).isEmpty, placesOf behind,
          powerOf? (if !(placesOf behind).isEmpty then behind.drop ((placesOf behind).length + 1)
            else behind)⟩ := by
  have heq : numberText? negative (whole ++ behind)
      = if (wholeOf (whole ++ behind)).isEmpty then none
        else
          let rest := (whole ++ behind).drop (wholeOf (whole ++ behind)).length
          some ⟨negative, wholeOf (whole ++ behind), !(placesOf rest).isEmpty, placesOf rest,
            powerOf? (if !(placesOf rest).isEmpty then rest.drop ((placesOf rest).length + 1)
              else rest)⟩ := rfl
  rw [heq, hwhole, if_neg (by rwa [List.isEmpty_iff]), List.drop_left]

/-- A number without its sign is read from its parts. -/
theorem numberText?_chars {n : Markup.NumberText} (h : Written n) {rest : List Char}
    (hrest : endsValue rest) :
    numberText? n.negative (n.whole ++ (placeChars n ++ (powerChars n.exponent ++ rest)))
      = some n := by
  have hbehind : (if (!n.places.isEmpty) = true then
        (placeChars n ++ (powerChars n.exponent ++ rest)).drop (n.places.length + 1)
      else placeChars n ++ (powerChars n.exponent ++ rest)) = powerChars n.exponent ++ rest := by
    rw [← h.point, placeChars]
    split
    · rw [List.cons_append, List.drop_succ_cons, List.drop_left]
    · rfl
  rw [numberText?_eq (wholeOf_chars h (endsDigits_places hrest)) h.whole,
    placesOf_chars h hrest, hbehind, powerOf?_chars h hrest, ← h.point]

theorem powerChars_length {n : Markup.NumberText} (h : Written n) :
    n.length = (if n.negative then 1 else 0) + n.whole.length + (if n.point then 1 else 0)
      + n.places.length + (powerChars n.exponent).length := by
  rcases hn : n.exponent with _ | e
  · simp only [Markup.NumberText.length, hn, powerChars, List.length_nil]
  · rcases h.power e (by rw [hn]; rfl) with ⟨hsign | hsign, -⟩
    all_goals
      simp only [Markup.NumberText.length, hn, powerChars, Markup.ExponentText.length, hsign,
        List.length_cons, List.length_append, Option.toList_some, List.length_nil,
        Option.isSome_some, if_true]
      omega

theorem numberChars_length {n : Markup.NumberText} (h : Written n) :
    (numberChars n).length = n.length := by
  have hplaces : (placeChars n).length = (if n.point then 1 else 0) + n.places.length := by
    unfold placeChars
    split
    · rw [List.length_cons, Nat.add_comm]
    · rename_i hpoint
      rw [h.point, Bool.not_eq_true', Bool.not_eq_false, List.isEmpty_iff] at hpoint
      rw [hpoint]
      rfl
  rw [numberChars, powerChars_length h, List.length_append, List.length_append,
    List.length_append, hplaces]
  split
  all_goals
    simp only [List.length_cons, List.length_nil]
    omega

/-- A text that starts with a digit, perhaps behind a minus sign. -/
def startsNumber (cs : List Char) : Prop :=
  ∃ d ds, d.isDigit = true ∧ (cs = d :: ds ∨ cs = '-' :: d :: ds)

theorem startsNumber_chars {n : Markup.NumberText} (h : Written n) (rest : List Char) :
    startsNumber (numberChars n ++ rest) := by
  cases hwhole : n.whole with
  | nil => exact absurd hwhole h.whole
  | cons d ds =>
      refine ⟨d, ds ++ (placeChars n ++ powerChars n.exponent) ++ rest,
        h.digits d (by rw [hwhole]; exact List.mem_cons_self), ?_⟩
      rw [numberChars, hwhole]
      split
      · exact .inr rfl
      · exact .inl rfl

/-- The parts of the number that a text starts with. -/
def parsed? (cs : List Char) : Option Markup.NumberText :=
  match cs with
  | '-' :: ds => numberText? true ds
  | ds => numberText? false ds

theorem readNumber?_eq (cs : List Char) : readNumber? cs
    = match parsed? cs with
      | none => none
      | some n =>
        match n.value with
        | .ok v => some (v, cs.drop n.length)
        | .error _ => none :=
  rfl

theorem readNumber?_parsed {cs : List Char} {n : Markup.NumberText} {v : Value}
    (h : parsed? cs = some n) (hv : n.value = .ok v) :
    readNumber? cs = some (v, cs.drop n.length) := by
  rw [readNumber?_eq, h]
  simp only [hv]

theorem parsed?_chars {n : Markup.NumberText} (h : Written n) {rest : List Char}
    (hrest : endsValue rest) : parsed? (numberChars n ++ rest) = some n := by
  have hread := numberText?_chars h hrest
  rw [numberChars, List.append_assoc, List.append_assoc, List.append_assoc]
  cases hnegative : n.negative with
  | true =>
      rw [hnegative] at hread
      exact hread
  | false =>
      -- Without a minus sign the first character is a digit.
      rw [hnegative] at hread
      simp only [Bool.false_eq_true, if_false, List.nil_append]
      unfold parsed?
      split
      · rename_i hcons
        cases hwhole : n.whole with
        | nil => exact absurd hwhole h.whole
        | cons d ds =>
            have hd := h.digits d (by rw [hwhole]; exact List.mem_cons_self)
            rw [hwhole, List.cons_append] at hcons
            rw [(List.cons.inj hcons).1] at hd
            exact absurd hd (by decide)
      · exact hread

/-- A number is read from its parts. -/
theorem readNumber?_chars {n : Markup.NumberText} (h : Written n) {v : Value}
    (hv : n.value = .ok v) {rest : List Char} (hrest : endsValue rest) :
    readNumber? (numberChars n ++ rest) = some (v, rest) := by
  rw [readNumber?_parsed (parsed?_chars h hrest) hv, ← numberChars_length h, List.drop_left]

theorem afterWord?_eq_none {word : String} {cs : List Char}
    (h : word.toList.isPrefixOf cs = false) : afterWord? word cs = none := by
  rw [afterWord?, h]
  rfl

/-- What starts like a number is no word. -/
theorem readWord?_number {cs : List Char} (h : startsNumber cs) : readWord? cs = none := by
  rcases h with ⟨d, ds, hd, hcs⟩
  have hletter : ∀ c : Char, c.isDigit = false → (c == d) = false := fun c hc => by
    rw [beq_eq_false_iff_ne]
    rintro rfl
    rw [hd] at hc
    exact absurd hc (by decide)
  have hnone : ∀ word ∈ ["null", "true", "false", "NaN", "Infinity", "-Infinity"],
      afterWord? word cs = none := by
    intro word hword
    refine afterWord?_eq_none ?_
    -- Each word has a letter where the number has its first digit.
    simp only [List.mem_cons, List.not_mem_nil, or_false] at hword
    rcases hword with rfl | rfl | rfl | rfl | rfl | rfl
    all_goals
      rcases hcs with rfl | rfl
      all_goals
        simp only [String.reduceToList, List.isPrefixOf, hletter 'n' rfl, hletter 't' rfl,
          hletter 'f' rfl, hletter 'N' rfl, hletter 'I' rfl, hletter '-' rfl, Bool.false_and,
          Bool.and_false, Char.reduceBEq]
  simp only [List.forall_mem_cons] at hnone
  obtain ⟨hnull, htrue, hfalse, hnan, hinfinity, hminus, -⟩ := hnone
  simp only [readWord?, List.findSome?_cons, List.findSome?_nil, hnull, htrue, hfalse, hnan,
    hinfinity, hminus, Option.map_none]

-- Values without parts

theorem readValue?_plain {c : Char} (fuel : Nat) (cs : List Char)
    (h : c ≠ '"' ∧ c ≠ '[' ∧ c ≠ '\x7b') :
    readValue? (fuel + 1) (c :: cs) = (readWord? (c :: cs)).or (readNumber? (c :: cs)) := by
  rw [readValue?]
  · exact fun ds hcons => h.1 (List.cons.inj hcons).1
  · exact fun ds hcons => h.2.1 (List.cons.inj hcons).1
  · exact fun ds hcons => h.2.2 (List.cons.inj hcons).1

/-- A number is read from its parts. -/
theorem spells_number {n : Markup.NumberText} (h : Written n) {v : Value}
    (hv : n.value = .ok v) : Spells (numberChars n) v := by
  intro rest hrest fuel hfuel
  have hstarts := startsNumber_chars h rest
  have hread : (readWord? (numberChars n ++ rest)).or (readNumber? (numberChars n ++ rest))
      = some (v, rest) := by
    rw [readWord?_number hstarts, Option.none_or, readNumber?_chars h hv hrest]
  cases fuel with
  | zero =>
      rcases startsNumber_chars h [] with ⟨d, ds, -, hcs | hcs⟩
      all_goals
        rw [List.append_nil] at hcs
        rw [hcs, List.length_cons] at hfuel
        exact absurd hfuel (Nat.not_succ_le_zero _)
  | succ fuel =>
      rcases hstarts with ⟨d, ds, hd, hcs | hcs⟩
      · rw [hcs] at hread ⊢
        rw [readValue?_plain, hread]
        refine ⟨?_, ?_, ?_⟩
        all_goals
          rintro rfl
          exact absurd hd (by decide)
      · rw [hcs] at hread ⊢
        rw [readValue?_plain _ _ ⟨by decide, by decide, by decide⟩, hread]

theorem spells_word {cs : List Char} {v : Value} {c : Char} {ds : List Char} (hcs : cs = c :: ds)
    (hplain : c ≠ '"' ∧ c ≠ '[' ∧ c ≠ '\x7b')
    (hread : ∀ rest, readWord? (cs ++ rest) = some (v, rest)) : Spells cs v := by
  intro rest hrest fuel hfuel
  have hword := hread rest
  rw [hcs] at hfuel hword ⊢
  cases fuel with
  | zero => exact absurd hfuel (Nat.not_succ_le_zero _)
  | succ fuel =>
      rw [List.cons_append] at hword ⊢
      rw [readValue?_plain _ _ hplain, hword, Option.some_or]

theorem spells_null : Spells "null".toList .null :=
  spells_word rfl ⟨by decide, by decide, by decide⟩ fun _ => rfl

theorem spells_bool (b : Bool) : Spells (if b then "true" else "false").toList (.bool b) := by
  cases b
  all_goals exact spells_word rfl ⟨by decide, by decide, by decide⟩ fun _ => rfl

theorem toDigits_zero {n : Nat} {ds : List Char} (h : Nat.toDigits 10 n = '0' :: ds) : ds = [] := by
  -- The digits behind a zero would be too few for the number.
  have hvalue : Text.digitsValue ds = n := by
    rw [← Text.digitsValue_toDigits n, h]
    rfl
  have hlt := Markup.digitsValue_lt ds
  rw [hvalue] at hlt
  cases ds with
  | nil => rfl
  | cons d ds =>
      have hle := (Nat.length_toDigits_le_iff (by decide : 1 < 10)
        (Nat.succ_pos ds.length)).mpr hlt
      rw [h, List.length_cons, List.length_cons] at hle
      omega

theorem written_integer (n : Int) : Written (Markup.integerParts n) where
  whole := Nat.toDigits_ne_nil
  digits := fun _ hc => Nat.isDigit_of_mem_toDigits (by decide) (by decide) hc
  zero := by
    intro hhead
    rw [Markup.integerParts] at hhead ⊢
    cases hdigits : Nat.toDigits 10 n.natAbs with
    | nil => exact absurd hdigits Nat.toDigits_ne_nil
    | cons d ds =>
        simp only [hdigits, List.head?_cons, Option.some.injEq] at hhead
        subst hhead
        rw [toDigits_zero hdigits]
  point := rfl
  places := fun _ hc => absurd hc List.not_mem_nil
  power := fun _ he => absurd he (by simp only [Markup.integerParts, Option.mem_def, reduceCtorEq,
    not_false_eq_true])

theorem spells_integer {n : Int} (h : (Value.int n).writable = true) :
    Spells (toString n).toList (.int n) := by
  have hchars : (toString n).toList = numberChars (Markup.integerParts n) := by
    rw [Markup.toString_int, Markup.integerText, numberChars]
    simp only [Markup.integerParts, placeChars, powerChars, Bool.false_eq_true, if_false,
      List.append_nil, decide_eq_true_eq]
  rw [hchars]
  exact spells_number (written_integer n) (Markup.integerParts_value h)

end Json

end WidgetSync
