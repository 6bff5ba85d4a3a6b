import WidgetSync.Proofs.Statements

/-!
# Declarations Are Read as Written

The line that declares a property gives the property its source text again.

A declaration has several words in front of its colon, and all of them together are
the name of the property. The writer knows nothing of this: to it the name is one
name with spaces in it. So the line has to be cut into words again, and the first
of them has to be one that starts a declaration.

The value of a declaration is never a block or an object to the reader, so the text
need not be plain. It has to be delimited all the same.

## Main definitions

* `Declared`: The name of a declared property.

## Theorems

* `Reading.declaration_split`: What reading a declaration does.
* `shows_declaration`: The line of a declaration.
-/

namespace WidgetSync

namespace Markup

/-- The words are the name of a declared property. -/
structure Declared (key : String) (words : List String) : Prop where
  names : ∀ w ∈ words, isName w.toList = true
  several : 2 ≤ words.length
  first : ∀ w ∈ words.head?, declarationWords.contains w = true
  joined : key = " ".intercalate words

/-- The tokens of words that stand behind another word. -/
def wordTokens (words : List String) : List Token :=
  words.map fun w => ⟨.name, [' '], w.toList⟩

theorem lexes_words {words : List String} {cs : List Char} {ts : List Token}
    (hwords : ∀ w ∈ words, isName w.toList = true)
    (hcs : Lexes (':' :: cs) ts) :
    Lexes (words.flatMap (fun w => ' ' :: w.toList) ++ ':' :: cs) (wordTokens words ++ ts) := by
  induction words with
  | nil => exact hcs
  | cons w words ih =>
      have hrest := ih fun v hv => hwords v (List.mem_cons_of_mem w hv)
      have hw := hwords w List.mem_cons_self
      have hname : Lexes (w.toList ++ (words.flatMap (fun w => ' ' :: w.toList) ++ ':' :: cs))
          (⟨.name, [], w.toList⟩ :: (wordTokens words ++ ts)) := by
        refine Lexes.name hw ?_ hrest
        cases words with
        | nil => exact ⟨':', _, rfl, by decide⟩
        | cons v vs => exact ⟨' ', _, rfl, by decide⟩
      rw [List.flatMap_cons, List.append_assoc]
      exact Lexes.indented 1 (List.cons_ne_nil _ _) hname

theorem intercalate_words (w : String) (words : List String) :
    (" ".intercalate (w :: words)).toList
      = w.toList ++ words.flatMap fun w => ' ' :: w.toList := by
  have hmark : " ".toList = [' '] := by decide
  rw [String.toList_intercalate, hmark]
  -- The induction is on the words behind the first one, each with the mark in front of it.
  induction words generalizing w with
  | nil =>
      rw [List.map_cons, List.map_nil, List.intercalate_singleton, List.flatMap_nil,
        List.append_nil]
  | cons v words ih =>
      have hrest := ih v
      rw [List.map_cons] at hrest
      rw [List.map_cons, List.map_cons, List.intercalate_cons_cons, hrest, List.flatMap_cons,
        List.append_assoc]
      rfl

/-- Several words have a blank between them. -/
theorem space_mem_intercalate {words : List String} (h : 2 ≤ words.length) :
    ' ' ∈ (" ".intercalate words).toList := by
  rcases words with _ | ⟨w, _ | ⟨v, words⟩⟩
  · exact absurd h (by decide)
  · exact absurd h (Nat.lt_irrefl 1)
  · rw [intercalate_words, List.flatMap_cons, List.cons_append]
    exact List.mem_append_right _ List.mem_cons_self

theorem takeWhile_names {ts : List Token} (h : ∀ t ∈ ts, t.kind = .name) {u : Token}
    (hu : u.kind ≠ .name) (rest : List Token) :
    (ts ++ u :: rest).takeWhile (fun t => t.kind == .name) = ts := by
  rw [List.takeWhile_append_of_pos fun t ht => by rw [h t ht]; rfl, List.takeWhile_cons, if_neg,
    List.append_nil]
  rwa [beq_iff_eq]

theorem names_split (ts : List Token) :
    (∀ t ∈ ts, t.kind = .name) ∨ ∃ words c cs, ts = words ++ c :: cs ∧
      (∀ t ∈ words, t.kind = .name) ∧ c.kind ≠ .name := by
  induction ts with
  | nil => exact Or.inl fun t ht => absurd ht List.not_mem_nil
  | cons t ts ih =>
      by_cases ht : t.kind = .name
      · rcases ih with hall | ⟨words, c, cs, rfl, hwords, hc⟩
        · refine Or.inl fun u hu => ?_
          rcases List.mem_cons.mp hu with rfl | hu
          · exact ht
          · exact hall u hu
        · refine Or.inr ⟨t :: words, c, cs, rfl, fun u hu => ?_, hc⟩
          rcases List.mem_cons.mp hu with rfl | hu
          · exact ht
          · exact hwords u hu
      · exact Or.inr ⟨[], t, ts, rfl, fun u hu => absurd hu List.not_mem_nil, ht⟩

namespace Reading

/-- What the value of a declaration does to the innermost block. -/
def declaredValue (r : Reading) (words : List Token) (raw : String) (used : Nat) : Step :=
  if raw.isEmpty then .next r used []
  else .next (r.store (" ".intercalate (words.map Token.text)) (.raw raw)) used []

theorem declaration_split (r : Reading) {words : List Token} {c : Token} (cs : List Token)
    (hwords : ∀ t ∈ words, t.kind = .name) (hc : c.kind ≠ .name) :
    r.declaration (words ++ c :: cs) =
      if c.kind = .colon ∧ 2 ≤ words.length then
        r.declaredValue words (valueText cs) (words.length + valueLength 0 cs)
      else .next r (words.length - 1 + valueLength 0 (c :: cs)) [.skipped (cs.length + 1)] := by
  unfold declaration
  rw [takeWhile_names hwords hc]
  simp only [List.drop_left]
  rfl

theorem declaration_names (r : Reading) {words : List Token}
    (hwords : ∀ t ∈ words, t.kind = .name) :
    r.declaration words = .next r (words.length - 1) [] := by
  have htake : words.takeWhile (fun t => t.kind == .name) = words := by
    rw [← List.append_nil words, List.takeWhile_append_of_pos fun t ht => by rw [hwords t ht]; rfl,
      List.takeWhile_nil]
  unfold declaration
  rw [htake]
  simp only [List.drop_length]

end Reading

/-- The words of a declaration, a colon, and the tokens of its value. -/
theorem Reading.declaration_written (r : Reading) {words : List Token} {cs : List Char}
    (hwords : ∀ t ∈ words, t.kind = .name) (hseveral : 2 ≤ words.length) (h : Delimited cs)
    (rest : List Token) :
    r.declaration (words ++ ⟨.colon, [], [':']⟩ ::
        (delayed [' '] (scan cs).tokens ++ lineEnd :: rest))
      = .next (r.store (" ".intercalate (words.map Token.text)) (.raw (String.ofList cs)))
          (words.length + (scan cs).tokens.length) [] := by
  have hlength : valueLength 0 (delayed [' '] (scan cs).tokens ++ lineEnd :: rest)
      = (scan cs).tokens.length := by
    rw [valueLength_append (by rw [depthAfter_delayed, h.balanced]) rfl, delayed_length]
  have hnonempty : (String.ofList cs).isEmpty = false := by
    rw [Bool.eq_false_iff, ne_eq, String.isEmpty_iff, ← String.toList_eq_nil_iff,
      String.toList_ofList]
    exact h.ne_nil
  rw [Reading.declaration_split r _ hwords (by decide), if_pos ⟨rfl, hseveral⟩,
    Reading.declaredValue, valueText_written h [' '] rest, hnonempty, hlength]
  rfl

/-- The line of a declaration. -/
theorem shows_declaration {r : Reading} {key : String} {words : List String} {cs : List Char}
    (depth : Nat) (hframes : r.frames ≠ []) (hkey : Declared key words) (h : Delimited cs) :
    Shows (valueLine depth key cs) r (r.store key (.raw (String.ofList cs))) := by
  obtain ⟨hnames, hseveral, hfirst, rfl⟩ := hkey
  rcases words with _ | ⟨w, _ | ⟨v, words⟩⟩
  · exact absurd hseveral (by decide)
  · exact absurd hseveral (Nat.lt_irrefl 1)
  have hw := hnames w List.mem_cons_self
  have hothers := fun u hu => hnames u (List.mem_cons_of_mem w hu)
  have htext : valueLine depth (" ".intercalate (w :: v :: words)) cs
      = (indent depth).toList ++ (w.toList ++ ((v :: words).flatMap (fun w => ' ' :: w.toList)
          ++ ':' :: ' ' :: (cs ++ ['\n']))) := by
    rw [valueLine, intercalate_words, List.append_assoc w.toList]
  have hlexes := Lexes.nameLine depth hw ⟨' ', _, rfl, by decide⟩
    (lexes_words hothers h.lexes_value)
  rw [htext]
  -- The line is the words as names, a colon, the value a blank behind it, and the line end.
  refine @Shows.of_tokens _ (⟨.name, (indent depth).toList, w.toList⟩ ::
    (wordTokens (v :: words) ++ ⟨.colon, [], [':']⟩ :: delayed [' '] (scan cs).tokens)
      ++ [lineEnd]) r _ ?_ (Reads.line _ fun tail rest => ?_)
  · rw [List.cons_append, List.append_assoc]
    exact hlexes
  · have hdeclares : declarationWords.contains w = true :=
      hfirst w (by simp only [List.head?_cons, Option.mem_some_iff])
    have hkinds : ∀ t ∈ ⟨.name, (indent depth).toList, w.toList⟩ :: wordTokens (v :: words),
        t.kind = .name := by
      intro t ht
      rcases List.mem_cons.mp ht with rfl | ht
      · rfl
      · rcases List.mem_map.mp ht with ⟨u, -, rfl⟩
        rfl
    have hwords : (wordTokens (v :: words)).map Token.text = v :: words := by
      rw [wordTokens, List.map_map]
      exact (List.map_congr_left fun u _ => text_name [' '] u).trans (List.map_id _)
    -- The first word is one that opens declarations, so the line is no assignment.
    have hform : HasForm ⟨.name, (indent depth).toList, w.toList⟩ (wordTokens (v :: words) ++
        ⟨.colon, [], [':']⟩ :: (delayed [' '] (scan cs).tokens ++ lineEnd :: rest)) .declaration :=
      .declaration rfl rfl rfl (by rw [text_name, hdeclares])
    have hwritten := r.declaration_written hkinds (by simp [wordTokens]) h rest
    rw [List.map_cons, hwords, text_name, List.cons_append] at hwritten
    rw [List.append_assoc, List.cons_append, hform.step hframes tail, Form.act, hwritten]
    congr 1
    simp only [wordTokens, List.length_cons, List.length_append, List.length_map, delayed_length]
    omega

end Markup

end WidgetSync
