import WidgetSync.Markup.Writer
import WidgetSync.Proofs.Forms
import WidgetSync.Proofs.SelfDelimiting

/-!
# Written Lines and What They Do

The effect of the lines of a document on the reader.

Cutting into tokens and reading statements are one after the other in the program,
but the text of a document is put together line by line, and a line should mean
the same wherever it stands. `Shows` says this for both at once: the piece of text
is cut into tokens of its own, and reading these tokens leads from one reading to
the other, whatever text follows. Pieces that show something compose like the
readings they lead to, so blocks are built from lines and documents from blocks.

The tokens are left out of the notion. They are those of the piece alone, by
`Lexes.tokens_eq`, which matters for objects: the reader keeps their tokens with
everything that follows, so what it holds while it reads an object is not the same
in every place, and only the object as a whole is.

Each kind of line has its lemma. A value behind a colon is found again if it is
self-delimiting; what the innermost block does with it is left to the caller.

## Main definitions

* `linesText`: The text of some lines.
* `Reads`: Reading some tokens leads from one reading to another.
* `Shows`: A piece of text leads from one reading to another.

## Theorems

* `Shows.append`: Pieces of text can be put together.
* `shows_property`: A line with a value.
* `shows_block`: The line that opens a group or a widget.
* `shows_close`: The line that closes a block.
* `shows_object`: An object with its lines.
-/

namespace WidgetSync

namespace Markup

/-- The text of some lines, each with its end. -/
def linesText (ls : List String) : List Char :=
  ls.flatMap fun l => l.toList ++ ['\n']

@[simp] theorem linesText_nil : linesText [] = [] := rfl

theorem linesText_cons (l : String) (ls : List String) :
    linesText (l :: ls) = (l.toList ++ ['\n']) ++ linesText ls := rfl

theorem linesText_append (ls ms : List String) :
    linesText (ls ++ ms) = linesText ls ++ linesText ms := by
  rw [linesText, List.flatMap_append]
  rfl

theorem indent_toList (depth : Nat) : (indent depth).toList = List.replicate (4 * depth) ' ' := by
  rw [indent, String.toList_ofList]

/-- A piece that lexes has the tokens that it has alone. -/
theorem Lexes.tokens_eq {cs : List Char} {ts : List Token} (h : Lexes cs ts) :
    (scan cs).tokens = ts := by
  have hnil := h []
  rw [List.append_nil] at hnil
  rw [hnil, Scan.after, scan, scanFrom, List.append_nil]

/-- Where reading some tokens ends, apart from the remarks on the way. -/
def Reading.outcome (r : Reading) (tail : List Char) (ts : List Token) : Reading × Bool :=
  ((r.run tail ts).reading, (r.run tail ts).stopped)

/-- Reading the tokens leads from one reading to the other, whatever follows. -/
def Reads (ts : List Token) (r s : Reading) : Prop :=
  ∀ tail rest, r.outcome tail (ts ++ rest) = s.outcome tail rest

theorem Reads.append {ts us : List Token} {r s t : Reading} (hts : Reads ts r s)
    (hus : Reads us s t) : Reads (ts ++ us) r t := by
  intro tail rest
  rw [List.append_assoc, hts, hus]

/-- One statement. -/
theorem Reading.outcome_next {r s : Reading} {tail : List Char} {t : Token} {ts : List Token}
    {used : Nat} {remarks : List Remark} (h : r.step tail t ts = .next s used remarks) :
    r.outcome tail (t :: ts) = s.outcome tail (ts.drop used) := by
  rw [Reading.outcome, Reading.run, h]
  rfl

theorem Reading.step_newline (r : Reading) (tail : List Char) {t : Token} (ts : List Token)
    (h : t.kind = .newline) : r.step tail t ts = .next r 0 [] := by
  by_cases hframes : r.frames = []
  · rw [Reading.step_topLevel hframes, Reading.topLevel, if_pos (Or.inl h)]
  · exact (HasForm.ending (Or.inl h)).step hframes tail

theorem reads_lineEnd (r : Reading) : Reads [lineEnd] r r := by
  intro tail rest
  exact Reading.outcome_next (Reading.step_newline r tail rest rfl)

/-- A statement that ends where its line ends. -/
theorem Reads.line {t : Token} (ts : List Token) {r s : Reading}
    (h : ∀ tail rest, r.step tail t (ts ++ lineEnd :: rest) = .next s ts.length []) :
    Reads (t :: ts ++ [lineEnd]) r s := by
  intro tail rest
  have hstatement := Reading.outcome_next (h tail rest)
  rw [List.drop_left] at hstatement
  rw [List.append_assoc, List.cons_append, List.singleton_append, hstatement]
  exact reads_lineEnd s tail rest

/-- The piece of text leads from one reading to the other, whatever follows. -/
def Shows (cs : List Char) (r s : Reading) : Prop :=
  Lexes cs (scan cs).tokens ∧ Reads (scan cs).tokens r s

theorem Shows.of_tokens {cs : List Char} {ts : List Token} {r s : Reading} (hlexes : Lexes cs ts)
    (hreads : Reads ts r s) : Shows cs r s := by
  rw [← hlexes.tokens_eq] at hreads
  refine ⟨?_, hreads⟩
  rw [hlexes.tokens_eq]
  exact hlexes

theorem shows_nil (r : Reading) : Shows [] r r :=
  Shows.of_tokens lexes_nil fun _ _ => rfl

/-- Pieces of text can be put together. -/
theorem Shows.append {cs ds : List Char} {r s t : Reading} (hcs : Shows cs r s)
    (hds : Shows ds s t) : Shows (cs ++ ds) r t :=
  Shows.of_tokens (hcs.1.append hds.1) (hcs.2.append hds.2)

/-- An empty line does nothing. -/
theorem shows_blank (r : Reading) : Shows ['\n'] r r :=
  Shows.of_tokens lexes_lineEnd (reads_lineEnd r)

/-- A name in front of a piece that does not go on with it. -/
theorem Lexes.name {cs ds : List Char} {us : List Token} (h : isName cs = true)
    (hstart : ∃ c es, ds = c :: es ∧ continuesName c = false ∧ c ≠ '.') (hds : Lexes ds us) :
    Lexes (cs ++ ds) (⟨.name, [], cs⟩ :: us) := by
  intro rest
  obtain ⟨c, es, rfl, hc⟩ := hstart
  have hends : endsName (c :: es ++ rest) := by
    intro d hd
    rw [List.cons_append, List.head?_cons, Option.mem_some_iff] at hd
    rwa [← hd]
  rw [List.append_assoc, scan_name h hends, hds, Scan.after_after, List.singleton_append]

theorem isName_cons {cs : List Char} (h : isName cs = true) :
    ∃ c ds, cs = c :: ds ∧ isSpace c = false := by
  cases cs with
  | nil => exact absurd h (by decide)
  | cons c ds =>
      simp only [isName, Bool.and_eq_true] at h
      have hall := ascii_forall (p := fun c => !startsName c || !isSpace c) (by decide) c
        (startsName_lt h.1)
      refine ⟨c, ds, rfl, ?_⟩
      simpa only [h.1, Bool.not_true, Bool.false_or, Bool.not_eq_true'] using hall

/-- An indented line that starts with a name. -/
theorem Lexes.nameLine {cs ds : List Char} {us : List Token} (depth : Nat)
    (h : isName cs = true) (hstart : ∃ c es, ds = c :: es ∧ continuesName c = false ∧ c ≠ '.')
    (hds : Lexes ds us) :
    Lexes ((indent depth).toList ++ (cs ++ ds)) (⟨.name, (indent depth).toList, cs⟩ :: us) := by
  have hline := Lexes.indented (4 * depth) (List.cons_ne_nil _ _) (Lexes.name h hstart hds)
  rw [indent_toList]
  rwa [delayed, List.append_nil] at hline

/-- A value behind a colon, to the end of the line. -/
theorem lexes_value {cs : List Char} (hlexes : Lexes (cs ++ ['\n']) ((scan cs).tokens ++ [lineEnd]))
    (hnonempty : (scan cs).tokens ≠ []) :
    Lexes (':' :: ' ' :: (cs ++ ['\n']))
      (⟨.colon, [], [':']⟩ :: (delayed [' '] (scan cs).tokens ++ [lineEnd])) := by
  have hvalue := Lexes.indented 1
    (List.append_ne_nil_of_right_ne_nil _ (List.cons_ne_nil _ _)) hlexes
  have hdelayed : delayed [' '] ((scan cs).tokens ++ [lineEnd])
      = delayed [' '] (scan cs).tokens ++ [lineEnd] := by
    cases hts : (scan cs).tokens with
    | nil => exact absurd hts hnonempty
    | cons t ts => rfl
  rw [List.replicate_succ, List.replicate_zero, hdelayed] at hvalue
  exact (lexes_mark (c := ':') rfl).append hvalue

theorem Delimited.lexes_value {cs : List Char} (h : Delimited cs) :
    Lexes (':' :: ' ' :: (cs ++ ['\n']))
      (⟨.colon, [], [':']⟩ :: (delayed [' '] (scan cs).tokens ++ [lineEnd])) :=
  Markup.lexes_value h.lexes h.nonempty

theorem text_name (gap : List Char) (s : String) : Token.text ⟨.name, gap, s.toList⟩ = s := by
  simp only [Token.text, reduceCtorEq, if_false, String.ofList_toList]

/-- The name starts with a basic capital. -/
def isCapitalized (cs : List Char) : Bool :=
  match cs with
  | c :: _ => c.isUpper
  | [] => false

theorem isCapital_name (gap cs : List Char) :
    Token.isCapital ⟨.name, gap, cs⟩ = isCapitalized cs := by
  cases cs with
  | nil => rfl
  | cons c cs => rfl

/-- A line with a self-delimiting text behind a colon. -/
def valueLine (depth : Nat) (key : String) (value : List Char) : List Char :=
  (indent depth).toList ++ (key.toList ++ ':' :: ' ' :: (value ++ ['\n']))

theorem Reading.step_property {r : Reading} {tail : List Char} {t c : Token} (ts : List Token)
    (hframes : r.frames ≠ []) (ht : t.kind = .name) (hc : c.kind = .colon) :
    r.step tail t (c :: ts) = r.property tail t.text ts :=
  (HasForm.value ht (by rw [starts, hc, beq_self_eq_true])).step hframes tail

/-- The first token of a value that is neither a block nor an object. -/
theorem Reading.property_plain {r : Reading} {tail : List Char} {key : String} {cs : List Char}
    (h : SelfDelimiting cs) (rest : List Token) :
    r.property tail key (delayed [' '] (scan cs).tokens ++ lineEnd :: rest) =
      if Catalog.isHandlerName key then
        .next (r.store key (.handler (.text (String.ofList cs)) (.bool false)))
          ((scan cs).tokens.length + 1) []
      else r.assign key (String.ofList cs) ((scan cs).tokens.length + 1) := by
  have hraw := valueText_written h.toDelimited [' '] rest
  have hlength : valueLength 0 (delayed [' '] (scan cs).tokens ++ lineEnd :: rest)
      = (scan cs).tokens.length := by
    rw [valueLength_append (by rw [depthAfter_delayed, h.balanced]) rfl, delayed_length]
  have hnonempty : (String.ofList cs).isEmpty = false := by
    rw [Bool.eq_false_iff, ne_eq, String.isEmpty_iff, ← String.toList_eq_nil_iff,
      String.toList_ofList]
    exact h.ne_nil
  have hplain := h.plain
  cases hts : (scan cs).tokens with
  | nil => exact absurd hts h.nonempty
  | cons t ts =>
      rw [hts] at hraw hlength hplain
      simp only [startsPlain, Bool.and_eq_true, bne_iff_ne, ne_eq, Bool.not_eq_true'] at hplain
      rw [delayed, List.cons_append] at hraw hlength ⊢
      -- What follows the value is a line end, so no block can open there.
      have hobject : (t.isCapital && starts .opening (ts ++ lineEnd :: rest)) = false := by
        cases ts with
        | nil => exact Bool.and_false _
        | cons u us => exact hplain.2
      have hcapital : ∀ gap, Token.isCapital { t with gap := gap } = t.isCapital := fun _ => rfl
      generalize [' '] ++ t.gap = gap at hraw hlength ⊢
      unfold Reading.property
      simp only [hraw, hlength, hnonempty, if_neg hplain.1, hcapital, hobject,
        Bool.false_eq_true, if_false]

/-- A line with a value, for the block that takes the value. -/
theorem shows_property {r s : Reading} {key : String} {cs : List Char} (depth : Nat)
    (hframes : r.frames ≠ []) (hkey : isName key.toList = true) (h : SelfDelimiting cs)
    (hhandler : Catalog.isHandlerName key = false)
    (hassign : ∀ used, r.assign key (String.ofList cs) used = .next s used []) :
    Shows (valueLine depth key cs) r s := by
  refine Shows.of_tokens (Lexes.nameLine depth hkey ⟨':', _, rfl, by decide⟩ h.lexes_value)
    (Reads.line (⟨.colon, [], [':']⟩ :: delayed [' '] (scan cs).tokens) fun tail rest => ?_)
  rw [List.cons_append, Reading.step_property _ hframes rfl rfl, text_name,
    Reading.property_plain h,
    hhandler, if_neg (by decide), hassign, List.length_cons, delayed_length]

/-- A line with the one line of code of a handler. -/
theorem shows_handler {r : Reading} {key : String} {cs : List Char} (depth : Nat)
    (hframes : r.frames ≠ []) (hkey : isName key.toList = true) (h : SelfDelimiting cs)
    (hhandler : Catalog.isHandlerName key = true) :
    Shows (valueLine depth key cs) r
      (r.store key (.handler (.text (String.ofList cs)) (.bool false))) := by
  refine Shows.of_tokens (Lexes.nameLine depth hkey ⟨':', _, rfl, by decide⟩ h.lexes_value)
    (Reads.line (⟨.colon, [], [':']⟩ :: delayed [' '] (scan cs).tokens) fun tail rest => ?_)
  rw [List.cons_append, Reading.step_property _ hframes rfl rfl, text_name,
    Reading.property_plain h,
    hhandler, if_pos rfl, List.length_cons, delayed_length]

/-- The line that opens a block. -/
def blockLine (depth : Nat) (name : List Char) : List Char :=
  (indent depth).toList ++ (name ++ ' ' :: '\x7b' :: ['\n'])

/-- The tokens behind the name of a line that opens a block. -/
theorem lexes_brace : Lexes (' ' :: '\x7b' :: ['\n']) [⟨.opening, [' '], ['\x7b']⟩, lineEnd] :=
  Lexes.indented 1 (List.cons_ne_nil _ _)
    ((lexes_mark (c := '\x7b') rfl).append lexes_lineEnd)

/-- The line that opens a group or a widget. -/
theorem shows_block {r : Reading} {name : String} (depth : Nat) (hframes : r.frames ≠ [])
    (hname : isName name.toList = true) :
    Shows (blockLine depth name.toList) r
      (if isCapitalized name.toList then r.push (.node (Node.ofType name))
       else r.push (.group name (r.groupFields name))) := by
  refine Shows.of_tokens (Lexes.nameLine depth hname ⟨' ', _, rfl, by decide⟩ lexes_brace)
    (Reads.line [⟨.opening, [' '], ['\x7b']⟩] fun tail rest => ?_)
  rw [List.singleton_append]
  cases hcapital : isCapitalized name.toList with
  | true =>
      rw [(HasForm.widget rfl rfl ((isCapital_name _ _).trans hcapital)).step hframes tail,
        Form.act, text_name, if_pos rfl]
      rfl
  | false =>
      rw [(HasForm.group rfl rfl ((isCapital_name _ _).trans hcapital)).step hframes tail, Form.act,
        text_name, if_neg Bool.false_ne_true]
      rfl

/-- The line that closes a block. -/
def closeLine (depth : Nat) : List Char :=
  (indent depth).toList ++ ['\x7d', '\n']

theorem lexes_closeLine (depth : Nat) :
    Lexes (closeLine depth) [⟨.closing, (indent depth).toList, ['\x7d']⟩, lineEnd] := by
  have hline := Lexes.indented (4 * depth) (List.cons_ne_nil _ _)
    ((lexes_mark (c := '\x7d') rfl).append lexes_lineEnd)
  rw [closeLine, indent_toList]
  rwa [delayed, List.append_nil] at hline

/-- The line that closes a block, where what follows does not matter. -/
theorem shows_close {r s : Reading} (depth : Nat) (hframes : r.frames ≠ [])
    (hclose : ∀ rest, r.close false rest = s) : Shows (closeLine depth) r s := by
  refine Shows.of_tokens (lexes_closeLine depth) (Reads.line [] fun tail rest => ?_)
  rw [List.nil_append, (HasForm.closing rfl).step hframes tail, Form.act, hclose, List.length_nil]

/-- The line that opens an object. -/
def objectLine (depth : Nat) (key type : List Char) : List Char :=
  (indent depth).toList ++ (key ++ ':' :: ' ' :: (type ++ ' ' :: '\x7b' :: ['\n']))

theorem lexes_objectLine (depth : Nat) {key type : List Char} (hkey : isName key = true)
    (htype : isName type = true) :
    Lexes (objectLine depth key type)
      [⟨.name, (indent depth).toList, key⟩, ⟨.colon, [], [':']⟩, ⟨.name, [' '], type⟩,
        ⟨.opening, [' '], ['\x7b']⟩, lineEnd] := by
  have htail : Lexes (type ++ ' ' :: '\x7b' :: ['\n'])
      [⟨.name, [], type⟩, ⟨.opening, [' '], ['\x7b']⟩, lineEnd] :=
    Lexes.name htype ⟨' ', _, rfl, by decide⟩ lexes_brace
  exact Lexes.nameLine depth hkey ⟨':', _, rfl, by decide⟩
    ((lexes_mark (c := ':') rfl).append (Lexes.indented 1 (List.cons_ne_nil _ _) htail))

/-- An object with its lines. Its tokens are kept while it is read, so the lines must
    do the same whatever is kept. -/
theorem shows_object {r s : Reading} {key type : String} {inner : List Char} (depth : Nat)
    (hframes : r.frames ≠ []) (hkey : isName key.toList = true)
    (htype : isName type.toList = true) (hcapital : isCapitalized type.toList = true)
    (hinner : ∀ source, ∃ t, Shows inner (r.push (.object key type [] false source)) t ∧
      t.frames ≠ [] ∧ ∀ rest, t.close false rest = s) :
    Shows (objectLine depth key.toList type.toList ++ inner ++ closeLine depth) r s := by
  have hopens := lexes_objectLine depth hkey htype
  -- Which tokens there are can be seen with nothing kept.
  have hlexes : Lexes (inner ++ closeLine depth) (scan (inner ++ closeLine depth)).tokens := by
    rcases hinner [] with ⟨t, hshows, hne, hclose⟩
    exact (hshows.append (shows_close depth hne hclose)).1
  rw [List.append_assoc]
  refine Shows.of_tokens (hopens.append hlexes) fun tail rest => ?_
  -- The tokens kept with the object are all that follow, so the place matters here.
  generalize hsource : ([⟨.name, [' '], type.toList⟩, ⟨.opening, [' '], ['\x7b']⟩, lineEnd]
    ++ (scan (inner ++ closeLine depth)).tokens) ++ rest = source
  have hstep : r.step tail ⟨.name, (indent depth).toList, key.toList⟩
      (⟨.colon, [], [':']⟩ :: source) = .next (r.push (.object key type [] false source)) 3 [] := by
    rw [Reading.step_property _ hframes rfl rfl, text_name]
    rw [← hsource]
    unfold Reading.property
    simp only [List.cons_append, List.nil_append, reduceCtorEq, if_false, isCapital_name, hcapital,
      starts, beq_self_eq_true, Bool.and_self, if_true, text_name]
  rcases hinner source with ⟨t, hshows, hne, hclose⟩
  have hinside := (hshows.append (shows_close depth hne hclose)).2 tail rest
  rw [← hinside, ← hsource]
  have hrun := Reading.outcome_next hstep
  rw [← hsource] at hrun
  simp only [List.cons_append, List.nil_append, List.drop_succ_cons, List.drop_zero] at hrun ⊢
  rw [hrun]
  exact reads_lineEnd _ tail _

/-- The text of an assignment. -/
def assignmentText (depth : Nat) (front key text : String) : String :=
  s!"{indent depth}{front}{key}: {text}"

theorem linesText_value (depth : Nat) (front key text : String) :
    linesText [assignmentText depth front key text]
      = valueLine depth (front ++ key) text.toList := by
  have hline : assignmentText depth front key text
      = indent depth ++ front ++ key ++ ": " ++ text := rfl
  have hcolon : ": ".toList = [':', ' '] := by decide
  rw [linesText_cons, linesText_nil, hline, valueLine]
  simp only [String.toList_append, hcolon, List.append_assoc, List.append_nil, List.cons_append,
    List.nil_append]

theorem linesText_value_free (depth : Nat) (key text : String) :
    linesText [s!"{indent depth}{key}: {text}"] = valueLine depth key text.toList := by
  have hvalue := linesText_value depth "" key text
  rw [String.empty_append] at hvalue
  rw [← hvalue, assignmentText]
  simp only [toString, String.append_empty]

theorem linesText_block (depth : Nat) (key : String) :
    linesText [s!"{indent depth}{key} \x7b"] = blockLine depth key.toList := by
  have hline : s!"{indent depth}{key} \x7b" = indent depth ++ key ++ " \x7b" := rfl
  have hbrace : " \x7b".toList = [' ', '\x7b'] := by decide
  rw [linesText_cons, linesText_nil, hline, blockLine]
  simp only [String.toList_append, hbrace, List.append_assoc, List.append_nil, List.cons_append,
    List.nil_append]

theorem linesText_close (depth : Nat) : linesText [indent depth ++ "\x7d"] = closeLine depth := by
  have hbrace : "\x7d".toList = ['\x7d'] := by decide
  rw [linesText_cons, linesText_nil, closeLine]
  simp only [String.toList_append, hbrace, List.append_assoc, List.append_nil, List.cons_append,
    List.nil_append]

theorem linesText_object (depth : Nat) (front key type : String) :
    linesText [s!"{indent depth}{front}{key}: {type} \x7b"]
      = objectLine depth (front ++ key).toList type.toList := by
  have hline : s!"{indent depth}{front}{key}: {type} \x7b"
      = indent depth ++ front ++ key ++ ": " ++ type ++ " \x7b" := rfl
  have hcolon : ": ".toList = [':', ' '] := by decide
  have hbrace : " \x7b".toList = [' ', '\x7b'] := by decide
  rw [linesText_cons, linesText_nil, hline, objectLine]
  simp only [String.toList_append, hcolon, hbrace, List.append_assoc, List.append_nil,
    List.cons_append, List.nil_append]

end Markup

end WidgetSync
