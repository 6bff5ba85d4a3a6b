import WidgetSync.Proofs.Indentation
import WidgetSync.Proofs.Margins

/-!
# Values Between Braces

Source text between braces is read as it was written, and so is the code of a
handler in each of its three forms.

A value that starts with a brace ends with the brace that closes it, and everything
between the two is taken over. For this the text must be a block by itself:
`Enclosed` says that its tokens do not depend on what follows and that its last
brace is the one that closes the first.

Code is not taken over but put into normal form. Code with line ends is written in
lines of its own, under the indentation of the place, so the text between the braces
is different in every place; what is the same is the normal form, by
`handlerCode_block`, and the kinds of the tokens, by `Spread.kinds`. That is why
`Balanced` is about the code alone and implies `Enclosed` at every depth.

## Main definitions

* `bracesBehind`: The number of open braces behind some tokens.
* `Enclosed`: The text between braces is a block by itself.
* `Balanced`: So are the lines of some code, however they are indented.
* `LegibleCode`: The code of a handler that is read as written.

## Theorems

* `blockLength?_eq_some_iff`: A block goes up to the brace that closes the first.
* `shows_braces`: A line, or several, with a value between braces.
* `Balanced.enclosed`: Indented code between braces is a block by itself.
* `handler_written`: The lines of a handler are read as the handler.
-/

namespace WidgetSync

namespace Markup

/-- The number of open braces behind a token, when some are open before it. There is none
    if the token closes a brace that was opened further back. -/
def Token.bracesBehind (t : Token) (depth : Nat) : Option Nat :=
  match t.kind, depth with
  | .opening, d => some (d + 1)
  | .closing, 0 => none
  | .closing, d + 1 => some d
  | _, d => some d

/-- The number of open braces behind some tokens. -/
def bracesBehind (depth : Nat) (ts : List Token) : Option Nat :=
  ts.foldlM (fun d t => t.bracesBehind d) depth

theorem Token.bracesBehind_eq_none_iff {t : Token} {depth : Nat} :
    t.bracesBehind depth = none ↔ depth = 0 ∧ t.kind = .closing := by
  unfold Token.bracesBehind
  cases t.kind <;> cases depth <;> simp

/-- A block ends before the brace that closes it. -/
theorem blockLength?_stop {depth : Nat} {t : Token} (h : t.bracesBehind depth = none)
    (ts : List Token) : blockLength? depth (t :: ts) = some 0 := by
  obtain ⟨rfl, hkind⟩ := Token.bracesBehind_eq_none_iff.mp h
  rw [blockLength?, hkind]

/-- It goes on behind any other token. -/
theorem blockLength?_go {depth d : Nat} {t : Token} (h : t.bracesBehind depth = some d)
    (ts : List Token) : blockLength? depth (t :: ts) = (blockLength? d ts).map (· + 1) := by
  unfold Token.bracesBehind at h
  rw [blockLength?.eq_def]
  cases hkind : t.kind with
  | closing =>
      cases depth with
      | zero => simp only [hkind, reduceCtorEq] at h
      | succ depth =>
          simp only [hkind, Option.some.injEq] at h
          simp only [hkind, h]
  | _ =>
      simp only [hkind, Option.some.injEq] at h
      simp only [hkind, h]

theorem bracesBehind_cons_eq_some_iff {depth k : Nat} {t : Token} {ts : List Token} :
    bracesBehind depth (t :: ts) = some k ↔
      ∃ d, t.bracesBehind depth = some d ∧ bracesBehind d ts = some k := by
  rw [bracesBehind, List.foldlM_cons]
  exact Option.bind_eq_some_iff

/-- A block goes up to the first closing brace before which every brace is closed. -/
theorem blockLength?_eq_some_iff {depth n : Nat} {ts : List Token} :
    blockLength? depth ts = some n ↔ ∃ inside u us, ts = inside ++ u :: us ∧
      inside.length = n ∧ u.kind = .closing ∧ bracesBehind depth inside = some 0 := by
  constructor
  · intro h
    induction ts generalizing depth n with
    | nil => exact absurd h (by simp only [blockLength?, reduceCtorEq, not_false_eq_true])
    | cons t ts ih =>
        cases hbehind : t.bracesBehind depth with
        | none =>
            rw [blockLength?_stop hbehind, Option.some.injEq] at h
            obtain ⟨rfl, hkind⟩ := Token.bracesBehind_eq_none_iff.mp hbehind
            exact ⟨[], t, ts, rfl, h, hkind, rfl⟩
        | some d =>
            rw [blockLength?_go hbehind] at h
            obtain ⟨m, hm, rfl⟩ := Option.map_eq_some_iff.mp h
            obtain ⟨inside, u, us, rfl, rfl, hkind, hinside⟩ := ih hm
            exact ⟨t :: inside, u, us, rfl, rfl, hkind,
              bracesBehind_cons_eq_some_iff.mpr ⟨d, hbehind, hinside⟩⟩
  · rintro ⟨inside, u, us, rfl, rfl, hkind, hinside⟩
    induction inside generalizing depth with
    | nil =>
        obtain rfl := Option.some.inj hinside
        exact blockLength?_stop (Token.bracesBehind_eq_none_iff.mpr ⟨rfl, hkind⟩) us
    | cons t inside ih =>
        obtain ⟨d, hbehind, hrest⟩ := bracesBehind_cons_eq_some_iff.mp hinside
        rw [List.cons_append, blockLength?_go hbehind, ih hrest, Option.map_some, List.length_cons]

/-- The end of a block does not depend on the tokens behind it. -/
theorem blockLength?_append {depth n : Nat} {ts : List Token} (h : blockLength? depth ts = some n)
    (rest : List Token) : blockLength? depth (ts ++ rest) = some n := by
  obtain ⟨inside, u, us, rfl, hlength, hkind, hinside⟩ := blockLength?_eq_some_iff.mp h
  exact blockLength?_eq_some_iff.mpr ⟨inside, u, us ++ rest,
    List.append_assoc inside (u :: us) rest, hlength, hkind, hinside⟩

/-- Nor does it need them. -/
theorem blockLength?_front {depth n : Nat} {ts us : List Token}
    (h : blockLength? depth (ts ++ us) = some n) (hn : n < ts.length) :
    blockLength? depth ts = some n := by
  obtain ⟨inside, u, vs, htokens, rfl, hkind, hinside⟩ := blockLength?_eq_some_iff.mp h
  obtain ⟨rest, rfl⟩ : inside <+: ts :=
    List.prefix_of_prefix_length_le ⟨u :: vs, htokens.symm⟩ (List.prefix_append ts us) hn.le
  cases rest with
  | nil => exact absurd hn (by simp)
  | cons v rest =>
      rw [List.append_assoc, List.append_cancel_left_eq, List.cons_append, List.cons.injEq]
        at htokens
      exact blockLength?_eq_some_iff.mpr
        ⟨inside, v, rest, rfl, rfl, htokens.1 ▸ hkind, hinside⟩

/-- The brace that ends a block is one of the tokens. -/
theorem blockLength?_closing {depth n : Nat} {ts : List Token}
    (h : blockLength? depth ts = some n) : ∃ u us, ts.drop n = u :: us ∧ u.kind = .closing := by
  obtain ⟨inside, u, us, rfl, rfl, hkind, -⟩ := blockLength?_eq_some_iff.mp h
  exact ⟨u, us, List.drop_left, hkind⟩

theorem blockLength?_lt {depth n : Nat} {ts : List Token} (h : blockLength? depth ts = some n) :
    n < ts.length := by
  obtain ⟨inside, u, us, rfl, rfl, -, -⟩ := blockLength?_eq_some_iff.mp h
  rw [List.length_append, List.length_cons]
  omega

/-- Only the kinds of the tokens matter for the end of a block. -/
theorem blockLength?_kinds {depth : Nat} {ts us : List Token}
    (h : ts.map (·.kind) = us.map (·.kind)) : blockLength? depth ts = blockLength? depth us := by
  induction ts generalizing depth us with
  | nil =>
      rw [List.map_nil, eq_comm, List.map_eq_nil_iff] at h
      rw [h]
  | cons t ts ih =>
      cases us with
      | nil => exact absurd h (by simp only [List.map_cons, List.map_nil, reduceCtorEq,
          not_false_eq_true])
      | cons u us =>
          rw [List.map_cons, List.map_cons, List.cons.injEq] at h
          have hsame : t.bracesBehind depth = u.bracesBehind depth := by
            unfold Token.bracesBehind
            rw [h.1]
          cases hbehind : u.bracesBehind depth with
          | none => rw [blockLength?_stop hbehind, blockLength?_stop (hsame.trans hbehind)]
          | some d => rw [blockLength?_go hbehind, blockLength?_go (hsame.trans hbehind), ih h.2]

/-- The brace that closes a block. -/
def closingBrace (gap : List Char) : Token :=
  ⟨.closing, gap, ['\x7d']⟩

/-- A text between braces is a block by itself. -/
def Enclosed (inner : List Char) : Prop :=
  ∃ ts gap, Lexes ('\x7b' :: (inner ++ ['\x7d', '\n']))
      (⟨.opening, [], ['\x7b']⟩ :: (ts ++ [closingBrace gap, lineEnd])) ∧
    blockLength? 0 (ts ++ [closingBrace gap]) = some ts.length

/-- The text between the braces of a block. -/
theorem withGaps_enclosed {inner gap : List Char} {ts : List Token}
    (h : Lexes ('\x7b' :: (inner ++ ['\x7d', '\n']))
      (⟨.opening, [], ['\x7b']⟩ :: (ts ++ [closingBrace gap, lineEnd]))) :
    withGaps ts ++ gap = inner := by
  have hscan := h []
  have hnil : scan [] = ⟨[], []⟩ := by rw [scan, scanFrom]
  rw [List.append_nil, hnil, Scan.after, List.append_nil] at hscan
  have htext := withGaps_scan ('\x7b' :: (inner ++ ['\x7d', '\n']))
  rw [hscan, List.append_nil, withGaps_cons, withGaps, List.flatMap_append] at htext
  simp only [List.flatMap_cons, List.flatMap_nil, closingBrace, lineEnd, List.nil_append,
    List.append_nil, List.singleton_append, List.cons.injEq, true_and] at htext
  rw [← List.append_assoc, ← List.append_assoc] at htext
  exact @List.append_cancel_right _ _ ['\x7d', '\n'] _ (by
    rw [← htext, List.append_assoc, List.append_assoc, List.append_assoc]
    rfl)

/-- What a text between braces is under a name: code for a handler, and source text
    for anything else. -/
def bracedValue (key : String) (inner : List Char) : Value :=
  if Catalog.isHandlerName key then
    .handler (.text (String.ofList (handlerCode inner))) (.bool (inner.contains '\n'))
  else .raw (braced (String.ofList inner))

/-- A value between braces. -/
theorem Reading.property_braces (r : Reading) (tail : List Char) (key : String)
    (opened : List Char) {gap : List Char} {ts : List Token}
    (h : blockLength? 0 (ts ++ [closingBrace gap]) = some ts.length) (rest : List Token) :
    r.property tail key (⟨.opening, opened, ['\x7b']⟩ :: (ts ++ closingBrace gap :: rest))
      = .next (r.store key (bracedValue key (withGaps ts ++ gap))) (ts.length + 3) [] := by
  -- The block ends with its brace, whatever follows.
  have hlength := blockLength?_append h rest
  rw [List.append_assoc, List.singleton_append] at hlength
  unfold Reading.property
  simp only [if_true, hlength, List.take_left, List.drop_left, bracedValue]
  rfl

/-- The lines of a value between braces. -/
theorem shows_braces {r : Reading} {key : String} {inner : List Char} (depth : Nat)
    (hframes : r.frames ≠ []) (hkey : isName key.toList = true) (h : Enclosed inner) :
    Shows (valueLine depth key ('\x7b' :: (inner ++ ['\x7d']))) r
      (r.store key (bracedValue key inner)) := by
  rcases h with ⟨ts, gap, hlexes, hlength⟩
  -- The tokens with their gaps are the text between the braces again.
  have hinner := withGaps_enclosed hlexes
  have hvalue := (lexes_mark (c := ':') rfl).append
    (Lexes.indented 1 (List.cons_ne_nil _ _) hlexes)
  have htext : [':'] ++ (List.replicate 1 ' ' ++ '\x7b' :: (inner ++ ['\x7d', '\n']))
      = ':' :: ' ' :: (('\x7b' :: (inner ++ ['\x7d'])) ++ ['\n']) := by
    simp only [List.cons_append, List.append_assoc, List.nil_append]
    rfl
  rw [htext] at hvalue
  refine @Shows.of_tokens _ (⟨.name, (indent depth).toList, key.toList⟩ ::
    (⟨.colon, [], [':']⟩ :: ⟨.opening, [' '], ['\x7b']⟩ :: (ts ++ [closingBrace gap])) ++ [lineEnd])
    r _ ?_ (Reads.line _ fun tail rest => ?_)
  · have hline := Lexes.nameLine depth hkey ⟨':', _, rfl, by decide⟩ hvalue
    have htokens : ts ++ [closingBrace gap, lineEnd] = ts ++ [closingBrace gap] ++ [lineEnd] := by
      rw [List.append_assoc]
      rfl
    rw [htokens] at hline
    exact hline
  · have hproperty := Reading.property_braces r tail key [' '] hlength
      (lineEnd :: rest)
    rw [List.cons_append, List.cons_append, List.append_assoc, List.singleton_append,
      Reading.step_property _ hframes rfl rfl, text_name, hproperty, hinner]
    congr 1
    rw [List.length_cons, List.length_cons, List.length_append, List.length_singleton]

/-- The lines of some code leave no lexeme open, and every brace in them is closed. -/
structure Balanced (code : List Char) : Prop where
  closed : closed (code ++ ['\n']) = true
  matched : blockLength? 0 ((scan (code ++ ['\n'])).tokens ++ [closingBrace []])
    = some (scan (code ++ ['\n'])).tokens.length

theorem flatMap_lines (cs : List Char) :
    (Text.lines cs).flatMap (· ++ ['\n']) = cs ++ ['\n'] := by
  induction cs with
  | nil => rfl
  | cons c cs ih =>
      rw [Text.lines]
      by_cases hc : c = '\n'
      · rw [if_pos hc, List.flatMap_cons, ih, hc]
        rfl
      · rw [if_neg hc]
        cases hlines : Text.lines cs with
        | nil => exact absurd hlines (Text.lines_ne_nil cs)
        | cons l ls =>
            rw [hlines, List.flatMap_cons] at ih
            simp only [List.flatMap_cons, List.cons_append, ih]

/-- Lines and the same lines under some indentation. -/
theorem spread_lines (n : Nat) {ls : List (List Char)} (htrimmed : ∀ l ∈ ls, Text.trimEnd l = l)
    (hsingle : ∀ l ∈ ls, '\n' ∉ l) :
    Spread ('\n' :: ls.flatMap (· ++ ['\n']))
      ('\n' :: ls.flatMap fun l => Text.prefixed (List.replicate n ' ') l ++ ['\n']) := by
  induction ls with
  | nil => exact Spread.line 0 Spread.nil
  | cons l ls ih =>
      have hrest := Spread.append_left (hsingle l List.mem_cons_self)
        (ih (fun k hk => htrimmed k (List.mem_cons_of_mem l hk))
          (fun k hk => hsingle k (List.mem_cons_of_mem l hk)))
      rw [List.flatMap_cons, List.flatMap_cons, List.append_assoc, List.append_assoc,
        List.singleton_append, List.singleton_append, Text.prefixed]
      by_cases hl : l.all Text.isIndent = true
      · have hempty := Text.eq_nil_of_all (fun c => Text.isBlank_of_isIndent)
          (htrimmed l List.mem_cons_self) hl
        rw [if_pos hl]
        rw [hempty] at hrest ⊢
        exact Spread.line 0 hrest
      · rw [if_neg hl, List.append_assoc]
        exact Spread.line n hrest

/-- Indented code between braces is a block by itself. -/
theorem Balanced.enclosed {code : List Char} (h : Balanced code)
    (htrimmed : ∀ l ∈ Text.lines code, Text.trimEnd l = l) (n m : Nat) :
    Enclosed (blockInside n m code) := by
  have hspread := spread_lines n htrimmed (Text.not_mem_lines code)
  rw [flatMap_lines] at hspread
  generalize hbody : ('\n' :: (Text.lines code).flatMap fun l =>
    Text.prefixed (List.replicate n ' ') l ++ ['\n']) = body at hspread
  have hwhole : ∀ cs, wholeLines ('\n' :: (cs ++ ['\n'])) = true := by
    intro cs
    rw [wholeLines, ← List.cons_append, List.getLast?_concat, beq_self_eq_true, Bool.or_true]
  have hclosed : Markup.closed ('\n' :: (code ++ ['\n'])) = true := by
    rw [closed_cons, lexeme_newline, List.drop_zero, h.closed]
    rfl
  -- The indentation changes the gaps of tokens, but not their kinds, by which braces match.
  rcases hspread.kinds (hwhole code) hclosed with ⟨hkinds, hopen⟩
  have hlines : wholeLines body = true := by
    rcases List.eq_nil_or_concat (Text.lines code) with hnil | ⟨ls, l, hl⟩
    · exact absurd hnil (Text.lines_ne_nil code)
    · rw [← hbody, hl, List.concat_eq_append, List.flatMap_append, List.flatMap_singleton,
        ← List.append_assoc]
      exact hwhole _
  have hlexes := lexes_of_closed hopen hlines (tail_wholeLines hlines)
  refine ⟨(scan body).tokens, List.replicate m ' ', ?_, ?_⟩
  · have hclose : Lexes (List.replicate m ' ' ++ ['\x7d', '\n'])
        [closingBrace (List.replicate m ' '), lineEnd] := by
      have hindented := Lexes.indented m (List.cons_ne_nil _ _)
        ((lexes_mark (c := '\x7d') rfl).append lexes_lineEnd)
      rwa [delayed, List.append_nil] at hindented
    have hblock := (lexes_mark (c := '\x7b') rfl).append (hlexes.append hclose)
    have htext : ['\x7b'] ++ (body ++ (List.replicate m ' ' ++ ['\x7d', '\n']))
        = '\x7b' :: (blockInside n m code ++ ['\x7d', '\n']) := by
      rw [← hbody]
      simp only [blockInside, List.cons_append, List.nil_append, List.append_assoc]
    rw [htext] at hblock
    exact hblock
  · have hmatched := h.matched
    have hnewline : kinds ('\n' :: (code ++ ['\n'])) = .newline :: kinds (code ++ ['\n']) := by
      rw [kinds_token (lexeme_newline _), List.drop_zero]
    have hlength : (scan body).tokens.length = (scan (code ++ ['\n'])).tokens.length + 1 := by
      have hlengths := congrArg List.length (hkinds.trans hnewline)
      rwa [kinds, kinds, List.length_map, List.length_cons, List.length_map] at hlengths
    have hsame : ((scan body).tokens ++ [closingBrace (List.replicate m ' ')]).map (·.kind)
        = (lineEnd :: ((scan (code ++ ['\n'])).tokens ++ [closingBrace []])).map (·.kind) := by
      have hmap := hkinds.trans hnewline
      rw [kinds, kinds] at hmap
      simp only [List.map_append, hmap, List.map_cons, List.cons_append]
      rfl
    rw [blockLength?_kinds hsame, hlength]
    unfold blockLength?
    simp only [lineEnd, hmatched, Option.map_some]

theorem occursIn_single (c : Char) (cs : List Char) :
    Value.occursIn [c] cs = cs.contains c := by
  induction cs with
  | nil => rfl
  | cons d cs ih =>
      rw [Value.occursIn, ih, List.contains_cons]
      congr 1
      simp only [List.isPrefixOf, Bool.and_true]

theorem mentions_text (c : Char) (s : String) :
    (Value.text s).mentions (String.ofList [c]) = .ok (s.toList.contains c) := by
  rw [Value.mentions, String.toList_ofList, occursIn_single]

/-- The code of a handler that is read as written, as a block or not. -/
inductive LegibleCode : String → Bool → Prop where
  /-- Code in lines of its own. -/
  | block {ls : List (List Char)} (hnormal : Text.Normal ls)
      (hbalanced : Balanced (Text.unlines ls)) :
      LegibleCode (String.ofList (Text.unlines ls)) true
  /-- Several statements on one line. -/
  | braces {code : String} (hnormal : Text.Normal [code.toList])
      (hsemicolon : ';' ∈ code.toList) (henclosed : Enclosed (' ' :: (code.toList ++ [' ']))) :
      LegibleCode code false
  /-- One statement on one line. -/
  | plain {code : String} (hline : '\n' ∉ code.toList) (hsemicolon : ';' ∉ code.toList)
      (hself : SelfDelimiting code.toList) : LegibleCode code false

/-- The lines of code in a block. -/
def codeLines (depth : Nat) (name code : String) : List String :=
  [s!"{indent depth}{name}: \x7b"] ++ (Text.lines code.toList).map (fun l =>
    if isBlankLine l then "" else indent (depth + 1) ++ String.ofList l) ++ [indent depth ++ "\x7d"]

/-- Code is written in a block if it is marked so or has several lines. -/
theorem handlerLines_block (depth : Nat) (name code : String) {block : Value}
    (h : block.truth = true ∨ '\n' ∈ code.toList) :
    handlerLines depth name (.text code) block = .ok (codeLines depth name code) := by
  unfold handlerLines
  by_cases htruth : block.truth = true
  · simp only [htruth, if_true, bind, Except.bind, pure, Except.pure]
    rfl
  · have hfeed : (Value.text code).mentions "\n" = .ok true := by
      rw [show "\n" = String.ofList ['\n'] by decide, mentions_text, List.contains_eq_mem,
        decide_eq_true (h.resolve_left htruth)]
    simp only [htruth, Bool.false_eq_true, if_false, hfeed, bind, Except.bind, pure, Except.pure]
    rfl

theorem handlerLines_inline (depth : Nat) {name code : String} (hline : '\n' ∉ code.toList) :
    handlerLines depth name (.text code) (.bool false)
      = .ok (if ';' ∈ code.toList then [s!"{indent depth}{name}: \x7b {code} \x7d"]
          else [s!"{indent depth}{name}: {code}"]) := by
  -- Whether the code is put between braces depends on the semicolon alone.
  have hfeed : (Value.text code).mentions "\n" = .ok false := by
    rw [show "\n" = String.ofList ['\n'] by decide, mentions_text, List.contains_eq_mem,
      decide_eq_false hline]
  have hsemicolon : (Value.text code).mentions ";" = .ok (decide (';' ∈ code.toList)) := by
    rw [show ";" = String.ofList [';'] by decide, mentions_text, List.contains_eq_mem]
  unfold handlerLines
  simp only [Value.truth, Bool.false_eq_true, if_false, hfeed, hsemicolon, bind, Except.bind, pure,
    Except.pure, decide_eq_true_eq]
  by_cases h : ';' ∈ code.toList
  · rw [if_pos h, if_pos h]
    rfl
  · rw [if_neg h, if_neg h]
    rfl

/-- What the writer puts between the braces of code in a block: a line end, the lines of the
    code, each one deeper than the block unless it is blank, and the indentation of the brace
    that closes it. -/
def blockBody (depth : Nat) (code : List Char) : List Char :=
  '\n' :: (Text.unlines ((Text.lines code).map fun l =>
    if isBlankLine l then [] else (indent (depth + 1)).toList ++ l) ++ '\n' :: (indent depth).toList)

theorem flatMap_lineEnd {ls : List (List Char)} (hne : ls ≠ []) :
    ls.flatMap (· ++ ['\n']) = Text.unlines ls ++ ['\n'] := by
  induction ls with
  | nil => exact absurd rfl hne
  | cons l ls ih =>
      cases ls with
      | nil => exact List.append_nil _
      | cons m ms =>
          have hjoin : Text.unlines (l :: m :: ms) = l ++ '\n' :: Text.unlines (m :: ms) := rfl
          rw [List.flatMap_cons, ih (List.cons_ne_nil m ms), hjoin, List.append_assoc,
            List.append_assoc]
          rfl

/-- The lines of code in a block are its body between braces. -/
theorem linesText_codeLines (depth : Nat) (name code : String) :
    linesText (codeLines depth name code)
      = valueLine depth name ('\x7b' :: (blockBody depth code.toList ++ ['\x7d'])) := by
  have hbody : linesText ((Text.lines code.toList).map fun l =>
      if isBlankLine l then "" else indent (depth + 1) ++ String.ofList l)
      = Text.unlines ((Text.lines code.toList).map fun l =>
          if isBlankLine l then [] else (indent (depth + 1)).toList ++ l) ++ ['\n'] := by
    rw [← flatMap_lineEnd fun h => Text.lines_ne_nil _ (List.map_eq_nil_iff.mp h), linesText,
      List.flatMap_map, List.flatMap_map]
    refine congrArg (fun f => (Text.lines code.toList).flatMap f) (funext fun l => ?_)
    split
    · rfl
    · rw [String.toList_append, String.toList_ofList]
  have hopen : linesText [s!"{indent depth}{name}: \x7b"]
      = (indent depth).toList ++ (name.toList ++ [':', ' ', '\x7b', '\n']) := by
    have htext : s!"{indent depth}{name}: \x7b" = indent depth ++ name ++ ": \x7b" := rfl
    have hmark : ": \x7b".toList = [':', ' ', '\x7b'] := by decide
    rw [linesText_cons, linesText_nil, htext]
    simp only [String.toList_append, hmark, List.append_assoc, List.append_nil, List.cons_append,
      List.nil_append]
  have hclose : linesText [indent depth ++ "\x7d"] = (indent depth).toList ++ ['\x7d', '\n'] := by
    rw [linesText_close, closeLine]
  rw [codeLines, linesText_append, linesText_append, hopen, hbody, hclose, valueLine, blockBody]
  simp only [List.append_assoc, List.cons_append, List.nil_append]

/-- A line without blanks at its end is blank only if it is empty, so it is written with the
    indentation as its prefix. -/
theorem blockBody_eq_blockInside (depth : Nat) {code : List Char}
    (h : ∀ l ∈ Text.lines code, Text.trimEnd l = l) :
    blockBody depth code = blockInside (4 * (depth + 1)) (4 * depth) code := by
  have hline : ∀ l ∈ Text.lines code,
      (if isBlankLine l then [] else (indent (depth + 1)).toList ++ l)
        = Text.prefixed (List.replicate (4 * (depth + 1)) ' ') l := by
    intro l hl
    by_cases hempty : l = []
    · subst hempty
      rfl
    · have hcontent : ¬ isBlankLine l = true :=
        fun hblank => hempty (Text.eq_nil_of_all (fun _ hc => hc) (h l hl) hblank)
      rw [if_neg hcontent, Text.prefixed, if_neg (fun hblank => hempty
          (Text.eq_nil_of_all (fun c => Text.isBlank_of_isIndent) (h l hl) hblank)), indent_toList]
  rw [blockBody, blockInside, List.map_congr_left hline, indent_toList,
    ← List.flatMap_map _ (· ++ ['\n']),
    flatMap_lineEnd fun hnil => Text.lines_ne_nil _ (List.map_eq_nil_iff.mp hnil),
    List.append_assoc, List.singleton_append]

/-- The lines of a handler are read as the handler. -/
theorem handler_written {key code : String} {block : Bool} (hkey : isName key.toList = true)
    (hhandler : Catalog.isHandlerName key = true) (h : LegibleCode code block) (depth : Nat)
    {r : Reading} (hframes : r.frames ≠ []) :
    ∃ lines, handlerLines depth key (.text code) (.bool block) = .ok lines ∧
      Shows (linesText lines) r (r.store key (.handler (.text code) (.bool block))) := by
  cases h with
  | @block ls hnormal hbalanced =>
      refine ⟨_, handlerLines_block depth key _ (.inl rfl), ?_⟩
      have hlines : ∀ l ∈ Text.lines (String.ofList (Text.unlines ls)).toList,
          Text.trimEnd l = l := by
        rw [String.toList_ofList]
        exact hnormal.trimmed_lines
      rw [linesText_codeLines, blockBody_eq_blockInside depth hlines, String.toList_ofList]
      have hshows := shows_braces depth hframes hkey
        (hbalanced.enclosed hnormal.trimmed_lines (4 * (depth + 1)) (4 * depth))
      rw [bracedValue, if_pos hhandler, handlerCode_block hnormal] at hshows
      exact hshows
  | braces hnormal hsemicolon henclosed =>
      have hline := hnormal.single _ List.mem_cons_self
      refine ⟨_, handlerLines_inline depth hline, ?_⟩
      have htext : linesText [s!"{indent depth}{key}: \x7b {code} \x7d"]
          = valueLine depth key ('\x7b' :: ((' ' :: (code.toList ++ [' '])) ++ ['\x7d'])) := by
        have hopen : s!"{indent depth}{key}: \x7b {code} \x7d"
            = indent depth ++ key ++ ": \x7b " ++ code ++ " \x7d" := rfl
        have hmark : ": \x7b ".toList = [':', ' ', '\x7b', ' '] := by decide
        have hend : " \x7d".toList = [' ', '\x7d'] := by decide
        rw [linesText_cons, linesText_nil, hopen, valueLine]
        simp only [String.toList_append, hmark, hend, List.append_assoc, List.append_nil,
          List.cons_append, List.nil_append]
      have hflag : (' ' :: (code.toList ++ [' '])).contains '\n' = false := by
        simp only [List.contains_eq_mem, List.mem_cons, List.mem_append, List.not_mem_nil, or_false,
          hline, decide_eq_false_iff_not]
        decide
      have hshows := shows_braces depth hframes hkey henclosed
      rw [bracedValue, if_pos hhandler, handlerCode_inline hnormal, hflag,
        String.ofList_toList] at hshows
      rw [if_pos hsemicolon, htext]
      exact hshows
  | plain hline hsemicolon hself =>
      refine ⟨_, handlerLines_inline depth hline, ?_⟩
      have hshows := shows_handler depth hframes hkey hself hhandler
      rw [String.ofList_toList] at hshows
      rw [if_neg hsemicolon, linesText_value_free]
      exact hshows

end Markup

end WidgetSync
