import WidgetSync.Markup.Writer
import WidgetSync.Proofs.SelfDelimiting

/-!
# Literals Read as Written

The literal that the writer makes of a value stands for that value again.

Every kind of property has its own way to be written and its own way to be read,
and the catalog says which one applies. A text goes through its escapes and back,
an integer through its digits, a name out of a scope gets the scope in front and
loses it again, and the two truth values are words. Nothing about the texts
themselves is assumed: quotes, backslashes, line ends and whole pieces of markup
may stand in them.

An integer is the one value that cannot always be written. Both directions stop at
the same number of digits, so `writable` is the exact condition, and it is kept as
a hypothesis of the lemmas here and becomes a condition on documents later.

Names out of a scope depend on the catalog: a scope has to be a name itself, or
the two together would not be one. `scope_isSimpleName` looks at every table.

## Main definitions

* `Spelling.admits`: The value is a plain value of the kind.
* `LiteralOf`: Source text is a literal of a value, in the way of a spelling.
* `Stands`: A literal of a value stands for it, and is found where it is written.

## Theorems

* `unescape_escaped`: Escapes are undone.
* `stringLiteral?_quote`, `stringLiteral?_localized`: A text is read as written.
* `numberLiteral?_integer`: An integer is read as written.
* `scopedName?_inScope`: A name is read without its scope.
* `valueOf_cases`: Source text is a literal of its spelling, or it stays source text.
* `scalar_spec`: A plain value is written as a self-delimiting text that stands
  for it.
* `writable_of_scalar`: A plain value that is written has no integer that is too
  long.
-/

namespace WidgetSync

namespace Table

theorem mem_of_get? {α : Type} {t : Table α} {key : String} {value : α}
    (h : get? t key = some value) : (key, value) ∈ t := by
  induction t with
  | nil => exact absurd h (by simp only [get?, reduceCtorEq, not_false_eq_true])
  | cons e t ih =>
      obtain ⟨k, v⟩ := e
      simp only [get?] at h
      split at h
      · rename_i hk
        rw [← hk, ← Option.some.inj h]
        exact List.mem_cons_self
      · exact List.mem_cons_of_mem _ (ih h)

end Table

namespace Catalog

/-- The value is a plain value of the kind. -/
def Spelling.admits (spelling : Spelling) : Value → Bool
  | .text s =>
    match spelling.kind with
    | .text | .string | .color => true
    | .enum => Markup.isSimpleName s.toList
    | .number | .bool => false
  | .int _ => spelling.kind == .number
  | .bool _ => spelling.kind == .bool
  | _ => false

theorem spelling?_mem {key : String} {group : Option String} {spelling : Spelling}
    (h : spelling? key group = some spelling) :
    (key, spelling) ∈ properties ∨ ∃ g ∈ groups, (key, spelling) ∈ g.2 := by
  cases group with
  | none => exact Or.inl (Table.mem_of_get? h)
  | some name =>
      simp only [spelling?] at h
      cases hg : Table.get? groups name with
      | none =>
          rw [hg] at h
          exact absurd h (by simp only [Option.getD_none, Table.get?, reduceCtorEq,
            not_false_eq_true])
      | some fields =>
          rw [hg] at h
          exact Or.inr ⟨(name, fields), Table.mem_of_get? hg, Table.mem_of_get? h⟩

/-- The scope of a name is a name itself. -/
def scopeFits (spelling : Spelling) : Bool :=
  spelling.kind != .enum ||
    match spelling.scope with
    | some scope => Markup.isSimpleName scope.toList && scope.toList.all Char.isAlpha
    | none => false

theorem spelling?_scopeFits {key : String} {group : Option String} {spelling : Spelling}
    (h : spelling? key group = some spelling) : scopeFits spelling = true := by
  have hproperties : properties.all (fun e => scopeFits e.2) = true := by decide
  have hgroups : groups.all (fun g => g.2.all fun e => scopeFits e.2) = true := by decide
  rcases spelling?_mem h with h | ⟨g, hg, h⟩
  · exact List.all_eq_true.mp hproperties _ h
  · exact List.all_eq_true.mp (List.all_eq_true.mp hgroups _ hg) _ h

theorem withoutFinalLineFeed_eq_self {cs : List Char} (h : ∀ c ∈ cs, c ≠ '\n') :
    withoutFinalLineFeed cs = cs := by
  unfold withoutFinalLineFeed
  split
  · rename_i front hrev
    have hmem : '\n' ∈ cs := by
      rw [← List.mem_reverse, hrev]
      exact List.mem_cons_self
    exact absurd rfl (h _ hmem)
  · rfl

end Catalog

namespace Markup

theorem unescape_plain {c : Char} (cs : List Char) (h : c ≠ '\\') :
    unescape (c :: cs) = c :: unescape cs := by
  rw [unescape, if_neg h]

theorem unescape_backslash {c d : Char} (cs : List Char) (hu : c ≠ 'u') (hx : c ≠ 'x')
    (hd : simpleEscape c = d) : unescape ('\\' :: c :: cs) = d :: unescape cs := by
  rw [unescape, if_pos rfl]
  simp only [escape?, hu, hx, if_false, ne_eq, not_true_eq_false, false_and, hd]
  rfl

theorem unescape_escaped_append (c : Char) (rest : List Char) :
    unescape (escaped c ++ rest) = c :: unescape rest := by
  unfold escaped
  split
  case h_6 hbackslash _ _ _ _ => exact unescape_plain rest hbackslash
  all_goals exact unescape_backslash rest (by decide) (by decide) rfl

/-- Reading escapes gives the text that was written with them. -/
theorem unescape_escaped (cs : List Char) : unescape (cs.flatMap escaped) = cs := by
  induction cs with
  | nil => rw [List.flatMap_nil, unescape]
  | cons c cs ih => rw [List.flatMap_cons, unescape_escaped_append, ih]

theorem quotedInside?_cons {quote c : Char} (cs : List Char) (hc : c ≠ '\\') :
    quotedInside? quote (c :: cs) =
      if c = quote then some ([], cs)
      else (quotedInside? quote cs).map fun (inside, rest) => (c :: inside, rest) := by
  rw [quotedInside?.eq_def]
  split
  · rename_i heq
    exact absurd heq (by simp only [reduceCtorEq, not_false_eq_true])
  · rename_i heq
    exact absurd (List.cons.inj heq).1 hc
  · rename_i heq
    obtain ⟨rfl, rfl⟩ := List.cons.inj heq
    rfl

theorem quotedInside?_backslash (quote d : Char) (cs : List Char) :
    quotedInside? quote ('\\' :: d :: cs) =
      (quotedInside? quote cs).map fun (inside, rest) => ('\\' :: d :: inside, rest) := by
  rw [quotedInside?.eq_def]
  rfl

theorem quotedInside?_escaped_append (c : Char) (rest : List Char) :
    quotedInside? '"' (escaped c ++ rest) =
      (quotedInside? '"' rest).map fun (inside, rest) => (escaped c ++ inside, rest) := by
  unfold escaped
  split
  case h_6 hbackslash hquote _ _ _ =>
    rw [List.cons_append, List.nil_append, quotedInside?_cons _ hbackslash, if_neg hquote]
    rfl
  all_goals exact quotedInside?_backslash _ _ _

theorem quotedInside?_escaped (cs rest : List Char) :
    quotedInside? '"' (cs.flatMap escaped ++ '"' :: rest) = some (cs.flatMap escaped, rest) := by
  induction cs with
  | nil =>
      rw [List.flatMap_nil, List.nil_append, quotedInside?_cons _ (by decide), if_pos rfl]
  | cons c cs ih =>
      rw [List.flatMap_cons, List.append_assoc, quotedInside?_escaped_append, ih]
      rfl

theorem quotedStart?_quotedText (s : String) (rest : List Char) :
    quotedStart? (quotedText s ++ rest) = some ('"', s.toList.flatMap escaped, rest) := by
  rw [quotedText, List.cons_append, List.append_assoc, quotedStart?, if_pos (Or.inl rfl),
    List.singleton_append, quotedInside?_escaped]
  rfl

/-- A text in quotes is read as written. -/
theorem stringLiteral?_quote (s : String) : stringLiteral? (quote s) = some s := by
  have hlocalized : localized? (quotedText s) = none := by
    unfold localized?
    rw [if_neg]
    rw [show localizedMark = ['q', 's', 'T', 'r', '('] by decide, quotedText]
    simp only [List.isPrefixOf, Char.reduceBEq, Bool.false_and, Bool.false_eq_true,
      not_false_eq_true]
  have hwhole : wholeQuoted? (quotedText s) = some (s.toList.flatMap escaped) := by
    have hstart := quotedStart?_quotedText s []
    rw [List.append_nil] at hstart
    rw [wholeQuoted?, hstart]
    rfl
  rw [stringLiteral?, quote_toList]
  simp only [hlocalized, hwhole, Option.none_or, Option.map_some, unescape_escaped,
    String.ofList_toList]

theorem localized_toList (s : String) : (localized s).toList = localizedText s := by
  have happend : localized s = "qsTr(" ++ quote s ++ ")" := rfl
  rw [happend, String.toList_append, String.toList_append, quote_toList, localizedText]
  rfl

/-- A localized text is read as written. -/
theorem stringLiteral?_localized (s : String) : stringLiteral? (localized s) = some s := by
  have hmark : localizedMark = ['q', 's', 'T', 'r', '('] := by decide
  -- No blank stands between the bracket and the quote.
  have htrim : ∀ rest, Text.trimStart (quotedText s ++ rest) = quotedText s ++ rest := by
    intro rest
    rw [quotedText, List.cons_append, Text.trimStart, List.dropWhile_cons, if_neg (by decide)]
  have hlocalized : localized? (localizedText s) = some (s.toList.flatMap escaped) := by
    unfold localized?
    have hfront : localizedText s = localizedMark ++ (quotedText s ++ [')']) := by
      rw [hmark]
      rfl
    rw [hfront, if_pos (List.isPrefixOf_iff_prefix.mpr (List.prefix_append _ _)), List.drop_left,
      htrim, quotedStart?_quotedText]
    rfl
  rw [stringLiteral?, localized_toList]
  simp only [hlocalized, Option.some_or, Option.map_some, unescape_escaped, String.ofList_toList]

theorem writable_of_mem {fields : Fields} (h : Value.writableEntries fields = true)
    {f : String × Value} (hf : f ∈ fields) : f.2.writable = true := by
  induction fields with
  | nil => exact absurd hf List.not_mem_nil
  | cons e fields ih =>
      obtain ⟨k, v⟩ := e
      rw [Value.writableEntries, Bool.and_eq_true] at h
      rcases List.mem_cons.mp hf with rfl | hf
      · exact h.1
      · exact ih h.2 hf

theorem writableEntries_of_forall {fields : Fields}
    (h : ∀ f ∈ fields, f.2.writable = true) : Value.writableEntries fields = true := by
  induction fields with
  | nil => rw [Value.writableEntries]
  | cons e fields ih =>
      obtain ⟨k, v⟩ := e
      rw [Value.writableEntries, h (k, v) List.mem_cons_self,
        ih fun f hf => h f (List.mem_cons_of_mem _ hf), Bool.and_self]

theorem writableAll_of_forall {vs : List Value} (h : ∀ v ∈ vs, v.writable = true) :
    Value.writableAll vs = true := by
  induction vs with
  | nil => rw [Value.writableAll]
  | cons v vs ih =>
      rw [Value.writableAll, h v List.mem_cons_self,
        ih fun w hw => h w (List.mem_cons_of_mem _ hw), Bool.and_self]

/-- A size that may be one of the settings can be written if that can. -/
theorem writable_of_size {v : Value} {n : Int} (hn : (Value.int n).writable = true)
    (h : v = .int n ∨ v.writable = true) : v.writable = true := by
  rcases h with rfl | h
  · exact hn
  · exact h

theorem integer_writable_iff (n : Int) :
    (Value.int n).writable = true ↔ (Nat.toDigits 10 n.natAbs).length ≤ Decimal.digitLimit := by
  have hlimit : 0 < Decimal.digitLimit := by decide
  rw [Value.writable, decide_eq_true_eq]
  generalize Decimal.digitLimit = limit at hlimit ⊢
  exact (Nat.length_toDigits_le_iff (by omega) hlimit).symm

theorem integerParts_value {n : Int} (h : (Value.int n).writable = true) :
    (integerParts n).value = .ok (.int n) := by
  -- The digits are few enough to be converted, since the integer can be written.
  have hlimit : ¬ Decimal.digitLimit < (Nat.toDigits 10 n.natAbs).length :=
    Nat.not_lt.mpr ((integer_writable_iff n).mp h)
  simp only [NumberText.value, integerParts, Bool.false_or, Option.isSome_none,
    Bool.false_eq_true, if_false, if_neg hlimit, Text.digitsValue_toDigits, decide_eq_true_eq]
  by_cases hn : n < 0
  · rw [if_pos hn, show -(n.natAbs : Int) = n by omega]
  · rw [if_neg hn, show (n.natAbs : Int) = n by omega]

/-- An integer that can be written is read as written. -/
theorem numberLiteral?_integer {n : Int} (h : (Value.int n).writable = true) :
    numberLiteral? (toString n) = .ok (some (.int n)) := by
  -- There is no line feed at the end that the reader would drop.
  have hline : ∀ c ∈ integerText n, c ≠ '\n' := by
    intro c hc heq
    rcases mem_integerText hc with hc | hc
    · rw [heq] at hc
      exact absurd hc (by decide)
    · rw [heq] at hc
      exact absurd hc (by decide)
  have hparts : numberText? (integerText n) = some (integerParts n) := by
    have hnil := @numberText?_integer n [] (by
      intro c hc
      exact absurd hc (by simp only [List.head?_nil, Option.mem_def, reduceCtorEq,
        not_false_eq_true]))
    rwa [List.append_nil] at hnil
  unfold numberLiteral?
  simp only [toString_int, Catalog.withoutFinalLineFeed_eq_self hline, hparts, integerParts_length,
    if_true, integerParts_value h]
  rfl

theorem nameLength_continues (cs rest : List Char) (h : ∀ c ∈ cs, continuesName c = true) :
    nameLength (cs ++ rest) = cs.length + nameLength rest := by
  induction cs with
  | nil => rw [List.nil_append, List.length_nil, Nat.zero_add]
  | cons c cs ih =>
      rw [List.cons_append, nameLength_cons _ (h c List.mem_cons_self),
        ih fun d hd => h d (List.mem_cons_of_mem c hd), List.length_cons]
      omega

/-- Two names with a point between them are a name. -/
theorem isName_pointed {as bs : List Char} (has : isName as = true) (hpoint : '.' ∉ as)
    (hbs : isName bs = true) : isName (as ++ '.' :: bs) = true := by
  have hall : ∀ c ∈ as, continuesName c = true := by
    intro c hc
    refine (mem_of_isName has hc).resolve_right ?_
    rintro rfl
    exact hpoint hc
  cases as with
  | nil => exact absurd has (by decide)
  | cons a as =>
      cases bs with
      | nil => exact absurd hbs (by decide)
      | cons b bs =>
          simp only [isName, Bool.and_eq_true, beq_iff_eq] at has hbs
          -- The point is followed by the start of a name, so the name goes on behind it.
          have hbehind : nameLength ('.' :: b :: bs) = bs.length + 2 := by
            rw [nameLength.eq_def]
            simp only [show continuesName '.' = false by decide, Bool.false_eq_true, if_false,
              if_true, hbs.1, hbs.2]
          have hwords := nameLength_continues as ('.' :: b :: bs) fun c hc =>
            hall c (List.mem_cons_of_mem a hc)
          simp only [List.cons_append, isName, has.1, Bool.true_and, beq_iff_eq, hwords, hbehind,
            List.length_append, List.length_cons]

theorem isSimpleName_cons {cs : List Char} (h : isSimpleName cs = true) :
    ∃ d ds, cs = d :: ds ∧ startsName d = true ∧ Text.isWord d = true ∧
      ∀ c ∈ ds, Text.isWord c = true := by
  cases cs with
  | nil => exact absurd h (by decide)
  | cons d ds =>
      simp only [isSimpleName, Bool.and_eq_true, List.all_eq_true] at h
      have hstart : startsName d = true := by rw [startsName, h.1, Bool.true_or]
      have hword : Text.isWord d = true := by
        have hall := ascii_forall (p := fun c => !(c.isAlpha || c == '_') || Text.isWord c)
          (by decide +kernel) d (startsName_lt hstart)
        simpa only [h.1, Bool.not_true, Bool.false_or] using hall
      exact ⟨d, ds, rfl, hstart, hword, h.2⟩

theorem not_mem_of_isSimpleName {cs : List Char} (h : isSimpleName cs = true) {c : Char}
    (hc : Text.isWord c = false) : c ∉ cs := by
  rcases isSimpleName_cons h with ⟨d, ds, rfl, -, hd, hds⟩
  intro hmem
  rcases List.mem_cons.mp hmem with rfl | hmem
  · rw [hd] at hc
    exact absurd hc (by decide)
  · rw [hds c hmem] at hc
    exact absurd hc (by decide)

theorem isName_of_isSimpleName {cs : List Char} (h : isSimpleName cs = true) :
    isName cs = true := by
  rcases isSimpleName_cons h with ⟨d, ds, rfl, hstart, -, hds⟩
  have hlength := nameLength_continues ds [] fun c hc => by
    rw [continuesName, hds c hc, Bool.true_or]
  rw [List.append_nil, nameLength, Nat.add_zero] at hlength
  rw [isName, hstart, hlength, beq_self_eq_true, Bool.true_and]

/-- A name in a scope is a name with a point in it. -/
theorem isName_scoped {scope name : List Char} (hscope : isSimpleName scope = true)
    (hname : isSimpleName name = true) : isName (scope ++ '.' :: name) = true :=
  isName_pointed (isName_of_isSimpleName hscope) (not_mem_of_isSimpleName hscope (by decide))
    (isName_of_isSimpleName hname)

theorem inScope_toList {scope name : String} (hscope : isSimpleName scope.toList = true)
    (hname : isSimpleName name.toList = true) :
    (inScope (some scope) name).toList = scope.toList ++ '.' :: name.toList := by
  have hempty : scope.isEmpty = false := by
    rw [Bool.eq_false_iff, ne_eq, String.isEmpty_iff]
    rintro rfl
    exact absurd hscope (by decide)
  have hplain : name.toList.contains '.' = false := by
    rw [List.contains_eq_mem, decide_eq_false_iff_not]
    exact not_mem_of_isSimpleName hname (by decide)
  have hform : inScope (some scope) name = scope ++ "." ++ name := by
    unfold inScope
    simp only [hempty, hplain, Bool.or_self, Bool.false_eq_true, if_false]
    rfl
  rw [hform, String.toList_append, String.toList_append, List.append_assoc]
  rfl

/-- A name that is written with its scope is read without it. -/
theorem scopedName?_inScope {scope name : String} (hscope : isSimpleName scope.toList = true)
    (hname : isSimpleName name.toList = true) :
    scopedName? (some scope) (inScope (some scope) name) = some name := by
  have hempty : scope.isEmpty = false := by
    rw [Bool.eq_false_iff, ne_eq, String.isEmpty_iff]
    rintro rfl
    exact absurd hscope (by decide)
  have hfront : (inScope (some scope) name).toList
      = (scope.toList ++ ['.']) ++ name.toList := by
    rw [inScope_toList hscope hname, List.append_assoc, List.singleton_append]
  have hline : ∀ c ∈ name.toList, c ≠ '\n' := by
    rintro c hc rfl
    exact not_mem_of_isSimpleName hname (by decide) hc
  unfold scopedName?
  simp only [hfront, hempty, Bool.false_or, List.isPrefixOf_iff_prefix.mpr (List.prefix_append _ _),
    Bool.not_true, Bool.false_eq_true, if_false, List.drop_left,
    Catalog.withoutFinalLineFeed_eq_self hline, hname, if_true, String.ofList_toList]

/-- Source text is a literal of a value, in the way of a spelling. -/
inductive LiteralOf (raw : String) : Catalog.Spelling → Value → Prop
  | bool {scope : Option String} {b : Bool} (h : raw = if b then "true" else "false") :
    LiteralOf raw ⟨.bool, scope⟩ (.bool b)
  | number {scope : Option String} {v : Value} (h : numberLiteral? raw = .ok (some v)) :
    LiteralOf raw ⟨.number, scope⟩ v
  | name {scope : Option String} {t : String} (h : scopedName? scope raw = some t) :
    LiteralOf raw ⟨.enum, scope⟩ (.text t)
  | text {kind : Catalog.Kind} {scope : Option String} {t : String}
    (hkind : kind = .text ∨ kind = .string ∨ kind = .color) (h : stringLiteral? raw = some t) :
    LiteralOf raw ⟨kind, scope⟩ (.text t)

/-- A literal is read as its value. -/
theorem LiteralOf.valueOf {raw : String} {spelling : Catalog.Spelling} {v : Value}
    (h : LiteralOf raw spelling v) : valueOf raw (some spelling) = .ok v := by
  cases h with
  | @bool _ b h =>
      subst h
      cases b with
      | false => rfl
      | true => rfl
  | number h =>
      simp only [Markup.valueOf, h]
      rfl
  | name h => simp only [Markup.valueOf, h, Option.map_some, Option.getD_some]
  | text hkind h =>
      rcases hkind with rfl | rfl | rfl
      all_goals simp only [Markup.valueOf, h, Option.map_some, Option.getD_some]

/-- Source text stays source text, or it is a literal in the way of its spelling. -/
theorem valueOf_cases {raw : String} {spelling : Option Catalog.Spelling} {v : Value}
    (h : valueOf raw spelling = .ok v) :
    v = .raw raw ∨ ∃ s, spelling = some s ∧ LiteralOf raw s v := by
  have htext : ∀ {found : Option String}, (found.map Value.text).getD (.raw raw) = v →
      v = .raw raw ∨ ∃ t, found = some t ∧ v = .text t := by
    intro found hfound
    cases found with
    | none => exact .inl hfound.symm
    | some t => exact .inr ⟨t, rfl, hfound.symm⟩
  rcases spelling with _ | ⟨kind, scope⟩
  · exact .inl (Except.ok.inj h).symm
  cases kind with
  | bool =>
      simp only [valueOf, Except.ok.injEq] at h
      split at h
      · rename_i htrue
        exact .inr ⟨_, rfl, h ▸ .bool (b := true) htrue⟩
      · split at h
        · rename_i hfalse
          exact .inr ⟨_, rfl, h ▸ .bool (b := false) hfalse⟩
        · exact .inl h.symm
  | number =>
      simp only [valueOf] at h
      cases hnumber : numberLiteral? raw with
      | error fault =>
          rw [hnumber] at h
          exact absurd h (by simp only [Except.map, reduceCtorEq, not_false_eq_true])
      | ok found =>
          rw [hnumber] at h
          have hvalue := Except.ok.inj h
          cases found with
          | none => exact .inl hvalue.symm
          | some w => exact .inr ⟨_, rfl, .number (hvalue ▸ hnumber)⟩
  | enum =>
      rcases htext (Except.ok.inj h) with hraw | ⟨t, hname, rfl⟩
      · exact .inl hraw
      · exact .inr ⟨_, rfl, .name hname⟩
  | text =>
      rcases htext (Except.ok.inj h) with hraw | ⟨t, hfound, rfl⟩
      · exact .inl hraw
      · exact .inr ⟨_, rfl, .text (.inl rfl) hfound⟩
  | string =>
      rcases htext (Except.ok.inj h) with hraw | ⟨t, hfound, rfl⟩
      · exact .inl hraw
      · exact .inr ⟨_, rfl, .text (.inr (.inl rfl)) hfound⟩
  | color =>
      rcases htext (Except.ok.inj h) with hraw | ⟨t, hfound, rfl⟩
      · exact .inl hraw
      · exact .inr ⟨_, rfl, .text (.inr (.inr rfl)) hfound⟩

/-- The literal of a value stands for it, and is found where it is written. -/
def Stands (t : String) (spelling : Option Catalog.Spelling) (v : Value) : Prop :=
  SelfDelimiting t.toList ∧ valueOf t spelling = .ok v

theorem stands_integer {n : Int} {spelling : Catalog.Spelling}
    (hkind : spelling.kind = .number) (h : (Value.int n).writable = true) :
    Stands (toString n) (some spelling) (.int n) := by
  obtain ⟨kind, scope⟩ := spelling
  subst hkind
  exact ⟨by rw [toString_int]; exact selfDelimiting_integer n,
    (LiteralOf.number (numberLiteral?_integer h)).valueOf⟩

theorem stands_bool {b : Bool} {spelling : Catalog.Spelling} (hkind : spelling.kind = .bool) :
    Stands (if b then "true" else "false") (some spelling) (.bool b) := by
  obtain ⟨kind, scope⟩ := spelling
  subst hkind
  cases b with
  | false => exact ⟨selfDelimiting_name (by decide), rfl⟩
  | true => exact ⟨selfDelimiting_name (by decide), rfl⟩

theorem stands_quote (s : String) {spelling : Catalog.Spelling}
    (hkind : spelling.kind = .string ∨ spelling.kind = .color) :
    Stands (quote s) (some spelling) (.text s) := by
  obtain ⟨kind, scope⟩ := spelling
  exact ⟨by rw [quote_toList]; exact selfDelimiting_quoted s,
    (LiteralOf.text (.inr hkind) (stringLiteral?_quote s)).valueOf⟩

theorem stands_localized (s : String) {spelling : Catalog.Spelling}
    (hkind : spelling.kind = .text) : Stands (localized s) (some spelling) (.text s) := by
  obtain ⟨kind, scope⟩ := spelling
  exact ⟨by rw [localized_toList]; exact selfDelimiting_localized s,
    (LiteralOf.text (.inl hkind) (stringLiteral?_localized s)).valueOf⟩

theorem stands_scoped {scope name : String} (hscope : isSimpleName scope.toList = true)
    (hname : isSimpleName name.toList = true) :
    Stands (inScope (some scope) name) (some ⟨.enum, some scope⟩) (.text name) := by
  refine ⟨?_, ?_⟩
  · rw [inScope_toList hscope hname]
    exact selfDelimiting_name (isName_scoped hscope hname)
  · exact (LiteralOf.name (scopedName?_inScope hscope hname)).valueOf

theorem literal_integer (n : Int) :
    literal (.int n) = if (Value.int n).writable then .ok (toString n) else .error unwritable :=
  rfl

theorem scalar_integer (n : Int) (spelling : Option Catalog.Spelling) :
    scalar (.int n) spelling = literal (.int n) :=
  rfl

/-- A plain value of its kind is written as a text that stands for it. -/
theorem scalar_spec {v : Value} {spelling : Catalog.Spelling}
    (hfits : Catalog.scopeFits spelling = true) (hadmits : spelling.admits v = true)
    (hwritable : v.writable = true) :
    ∃ t, scalar v (some spelling) = .ok t ∧ Stands t (some spelling) v := by
  cases v with
  | text s =>
      obtain ⟨kind, scope⟩ := spelling
      cases kind with
      | text => exact ⟨_, rfl, stands_localized s rfl⟩
      | string => exact ⟨_, rfl, stands_quote s (Or.inl rfl)⟩
      | color => exact ⟨_, rfl, stands_quote s (Or.inr rfl)⟩
      | enum =>
          cases scope with
          | none => exact absurd hfits (by decide)
          | some scope =>
              simp only [Catalog.scopeFits, bne_self_eq_false, Bool.false_or,
                Bool.and_eq_true] at hfits
              exact ⟨_, rfl, stands_scoped hfits.1 hadmits⟩
      | number => exact absurd hadmits (by simp only [Catalog.Spelling.admits,
          Bool.false_eq_true, not_false_eq_true])
      | bool => exact absurd hadmits (by simp only [Catalog.Spelling.admits,
          Bool.false_eq_true, not_false_eq_true])
  | int n =>
      have hkind : spelling.kind = .number := by
        simpa only [Catalog.Spelling.admits, beq_iff_eq] using hadmits
      refine ⟨toString n, ?_, stands_integer hkind hwritable⟩
      rw [scalar_integer, literal_integer, if_pos hwritable]
  | bool b =>
      have hkind : spelling.kind = .bool := by
        simpa only [Catalog.Spelling.admits, beq_iff_eq] using hadmits
      exact ⟨_, rfl, stands_bool hkind⟩
  | _ => exact absurd hadmits (by simp only [Catalog.Spelling.admits, Bool.false_eq_true,
      not_false_eq_true])

/-- A plain value that is written has no integer that is too long. -/
theorem writable_of_scalar {v : Value} {spelling : Catalog.Spelling} {t : String}
    (hadmits : spelling.admits v = true) (h : scalar v (some spelling) = .ok t) :
    v.writable = true := by
  cases v with
  | text s => rfl
  | bool b => rfl
  | int n =>
      rw [scalar_integer, literal_integer] at h
      by_cases hn : (Value.int n).writable = true
      · exact hn
      · rw [if_neg hn] at h
        exact absurd h (by simp only [reduceCtorEq, not_false_eq_true])
  | _ => exact absurd hadmits (by simp only [Catalog.Spelling.admits, Bool.false_eq_true,
      not_false_eq_true])

end Markup

end WidgetSync
