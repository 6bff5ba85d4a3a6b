import WidgetSync.Proofs.Firm

/-!
# Telling Firm Documents

Whether a document is firm, computed.

Every part of the condition is about the tokens of some text, so it can be found out
by cutting the text. In front of a line end a text keeps its tokens if no lexeme is
left open in it. The one thing that is not found out is whether a double is the value
of its own literal, and no document with a double in it passes.

## Main definitions

* `isDelimited`, `isSelfDelimiting`, `isEnclosed`, `isBalanced`, `isKeptObject`: The
  conditions on texts.
* `isFirm`, `isFirmNode`, `isFirmWindow`, `isFirmDocument`: The conditions on values
  and documents.

## Theorems

* `firm_of_isFirm`: A value that passes is firm.
* `firmDocument_of_isFirmDocument`: So is a document.
-/

namespace WidgetSync

namespace Markup

/-- No lexeme of the text is open at the end of its line. -/
def isCut (cs : List Char) : Bool :=
  closed (cs ++ ['\n']) && (scan (cs ++ ['\n'])).tail.isEmpty

/-- The tokens of the text stay the same in front of a line end, and cover it. -/
def isCovered (cs : List Char) : Bool :=
  isCut cs && (scan (cs ++ ['\n'])).tokens == (scan cs).tokens ++ [lineEnd]
    && covered (scan cs).tokens == cs && Text.trim cs == cs

/-- The text is taken for one value in front of a line end. -/
def isDelimited (cs : List Char) : Bool :=
  isCovered cs && !(scan cs).tokens.isEmpty && depthAfter 0 (scan cs).tokens == some 0

/-- It is read back as a value. -/
def isSelfDelimiting (cs : List Char) : Bool :=
  isDelimited cs && startsPlain (scan cs).tokens

/-- The text between braces is a block by itself. -/
def isEnclosed (inner : List Char) : Bool :=
  isCut ('\x7b' :: (inner ++ ['\x7d'])) &&
    match (scan ('\x7b' :: (inner ++ ['\x7d', '\n']))).tokens with
    | [] => false
    | opening :: ts =>
      let inside := ts.dropLast.dropLast
      let closing := closingBrace ((ts.dropLast.getLast?.map (·.gap)).getD [])
      opening == ⟨.opening, [], ['\x7b']⟩ && ts == inside ++ [closing, lineEnd] &&
        blockLength? 0 (inside ++ [closing]) == some inside.length

/-- The lines of some code leave no lexeme open, and every brace in them is closed. -/
def isBalanced (code : List Char) : Bool :=
  closed (code ++ ['\n']) &&
    blockLength? 0 ((scan (code ++ ['\n'])).tokens ++ [closingBrace []])
      == some (scan (code ++ ['\n'])).tokens.length

/-- The text is an object in which, read alone, a widget is declared. -/
def isKeptObject (key : String) (cs : List Char) : Bool :=
  isCovered cs &&
    match (scan cs).tokens with
    | type :: opening :: rest =>
      let inner := rest.dropLast
      let closing := closingBrace ((rest.getLast?.map (·.gap)).getD [])
      let source := delayed [' '] (scan cs).tokens
      isCapitalized type.body && type == ⟨.name, [], type.body⟩ &&
        opening == ⟨.opening, opening.gap, ['\x7b']⟩ && rest == inner ++ [closing] &&
        match (Reading.ofObject key (String.ofList type.body) source).within rest with
        | some s =>
          match s.frames with
          | [.object k t _ kept from'] =>
            k == key && t == String.ofList type.body && kept && from' == source
          | _ => false
        | none => false
    | _ => false

/-- The text is a block. -/
def isBlock (key : String) (cs : List Char) : Bool :=
  !Catalog.isHandlerName key && cs == '\x7b' :: (cs.tail.dropLast ++ ['\x7d'])
    && isEnclosed cs.tail.dropLast

/-- The plain value is found again. -/
def isFirmScalar : Value → Bool
  | .raw s => isSelfDelimiting s.toList
  | .float _ => false
  | _ => true

/-- The code on one line is found again. -/
def isLine (code : List Char) : Bool :=
  !code.contains '\n' &&
    if code.contains ';' then isEnclosed (' ' :: (code ++ [' '])) else isSelfDelimiting code

/-- The code is found again, in lines of its own or on one line. -/
def isFirmCode : Value → Value → Bool
  | .text code, .bool true => isBalanced code.toList
  | .text code, .bool false => isLine code.toList
  | _, _ => false

/-- The source text is found again under the name. -/
def isFirmSource (key text : String) : Bool :=
  if key.toList.contains ' ' then isDelimited text.toList
  else isSelfDelimiting text.toList || isBlock key text.toList || isKeptObject key text.toList

mutual

/-- The value is found again under the name. -/
def isFirm (key : String) : Value → Bool
  | .raw text => isFirmSource key text
  | .handler code block => isFirmCode code block
  | .group fields =>
    if isCapitalized key.toList then !fields.isEmpty && fields.all fun f => isFirmScalar f.2
    else areFirm fields
  | .object _ properties => areFirm properties
  | v => isPlain v && isFirmScalar v && !key.toList.contains ' '

/-- The values are found again under their names. -/
def areFirm : Fields → Bool
  | [] => true
  | (key, v) :: fields => isFirm key v && areFirm fields

end

/-- Two plain values, no doubles, are the same. -/
def samePlain : Value → Value → Bool
  | .bool a, .bool b => a == b
  | .int m, .int n => m == n
  | .text s, .text t => s == t
  | _, _ => false

/-- The coordinate or size is a number, or it is bound and has the usual value. -/
def isFirmPlace (properties : Fields) (key : String) (usual number : Value) : Bool :=
  match properties.get? key with
  | none => isFirmScalar number
  | some v => v.isRaw && samePlain number usual

/-- Nothing in the widget shares a name. -/
def isFirmNode (n : Node) : Bool :=
  isCapitalized n.type.plain.toList && (n.properties.get? "id").isNone &&
    isFirmPlace n.properties "x" (Node.ofType n.type.plain).x n.x &&
    isFirmPlace n.properties "y" (Node.ofType n.type.plain).y n.y &&
    isFirmPlace n.properties "width" (Node.ofType n.type.plain).width n.width &&
    isFirmPlace n.properties "height" (Node.ofType n.type.plain).height n.height &&
    areFirm n.properties

/-- Nothing in the window shares a name. -/
def isFirmWindow (s : Settings) (w : Window) : Bool :=
  (w.properties.get? "id").isNone && w.width.writable && isFirmScalar w.width &&
    w.height.writable && isFirmScalar w.height &&
    samePlain (settledWindow s w).width w.width &&
    samePlain (settledWindow s w).height w.height &&
    samePlain (settledWindow s w).title w.title &&
    samePlain (settledWindow s w).visible w.visible && areFirm w.properties

/-- The document can be written and found again. -/
def isFirmDocument (s : Settings) (d : Document) : Bool :=
  isFirmWindow s d.window && (Forest.walk d.nodes).all isFirmNode

theorem lexes_of_isCut {cs : List Char} (h : isCut cs = true) :
    Lexes (cs ++ ['\n']) (scan (cs ++ ['\n'])).tokens := by
  rw [isCut, Bool.and_eq_true, List.isEmpty_iff] at h
  refine lexes_of_closed h.1 ?_ h.2
  rw [wholeLines, List.getLast?_concat, beq_self_eq_true, Bool.or_true]

/-- A text that is covered is cut in front of a line end as it is cut alone. -/
theorem covered_of_isCovered {cs : List Char} (h : isCovered cs = true) :
    Lexes (cs ++ ['\n']) ((scan cs).tokens ++ [lineEnd]) ∧ covered (scan cs).tokens = cs ∧
      Text.trim cs = cs := by
  rw [isCovered, Bool.and_eq_true, Bool.and_eq_true, Bool.and_eq_true, beq_iff_eq, beq_iff_eq,
    beq_iff_eq] at h
  obtain ⟨⟨⟨hcut, htokens⟩, hcovers⟩, htrimmed⟩ := h
  refine ⟨?_, hcovers, htrimmed⟩
  -- Cut alone and in front of a line end it has the same tokens, which is what was computed.
  rw [← htokens]
  exact lexes_of_isCut hcut

theorem delimited_of_isDelimited {cs : List Char} (h : isDelimited cs = true) : Delimited cs := by
  rw [isDelimited, Bool.and_eq_true, Bool.and_eq_true, Bool.not_eq_true', beq_iff_eq] at h
  rcases covered_of_isCovered h.1.1 with ⟨hlexes, hcovers, htrimmed⟩
  exact ⟨hlexes, hcovers, List.isEmpty_eq_false_iff.mp h.1.2, htrimmed, h.2⟩

theorem selfDelimiting_of_isSelfDelimiting {cs : List Char} (h : isSelfDelimiting cs = true) :
    SelfDelimiting cs := by
  rw [isSelfDelimiting, Bool.and_eq_true] at h
  exact ⟨delimited_of_isDelimited h.1, h.2⟩

theorem enclosed_of_isEnclosed {inner : List Char} (h : isEnclosed inner = true) :
    Enclosed inner := by
  rw [isEnclosed, Bool.and_eq_true] at h
  have hlexes := lexes_of_isCut h.1
  have htext : '\x7b' :: (inner ++ ['\x7d']) ++ ['\n'] = '\x7b' :: (inner ++ ['\x7d', '\n']) := by
    rw [List.cons_append, List.append_assoc]
    rfl
  rw [htext] at hlexes
  have hshape := h.2
  cases htokens : (scan ('\x7b' :: (inner ++ ['\x7d', '\n']))).tokens with
  | nil =>
      rw [htokens] at hshape
      exact absurd hshape Bool.false_ne_true
  | cons opening ts =>
      rw [htokens] at hshape hlexes
      simp only [Bool.and_eq_true, beq_iff_eq] at hshape
      obtain ⟨⟨rfl, hts⟩, hlength⟩ := hshape
      rw [hts] at hlexes
      exact ⟨_, _, hlexes, hlength⟩

theorem balanced_of_isBalanced {code : List Char} (h : isBalanced code = true) : Balanced code := by
  rw [isBalanced, Bool.and_eq_true, beq_iff_eq] at h
  exact ⟨h.1, h.2⟩

theorem keptObject_of_isKeptObject {key : String} {cs : List Char}
    (h : isKeptObject key cs = true) :
    KeptObject key cs := by
  rw [isKeptObject, Bool.and_eq_true] at h
  rcases covered_of_isCovered h.1 with ⟨hlexes, hcovers, htrimmed⟩
  refine ⟨hlexes, hcovers, htrimmed, ?_⟩
  have hshape := h.2
  -- An object has a type, a brace and more.
  match htokens : (scan cs).tokens with
  | [] =>
      rw [htokens] at hshape
      exact absurd hshape Bool.false_ne_true
  | [_] =>
      rw [htokens] at hshape
      exact absurd hshape Bool.false_ne_true
  | type :: opening :: rest =>
      rw [htokens] at hshape
      simp only [Bool.and_eq_true, beq_iff_eq] at hshape
      obtain ⟨⟨⟨⟨hcapital, htype⟩, hopening⟩, hrest⟩, hwithin⟩ := hshape
      refine ⟨type.body, opening.gap, rest.dropLast,
        (rest.getLast?.map (·.gap)).getD [], hcapital, ?_, ?_⟩
      · rw [← hrest, ← htype, ← hopening]
      · rw [← hrest]
        split at hwithin
        · rename_i s hs
          refine ⟨s, ?_⟩
          split at hwithin
          · rename_i k t properties kept source hframes
            simp only [Bool.and_eq_true, beq_iff_eq] at hwithin
            obtain ⟨⟨⟨rfl, rfl⟩, rfl⟩, rfl⟩ := hwithin
            exact ⟨properties, hs, hframes⟩
          · exact absurd hwithin Bool.false_ne_true
        · exact absurd hwithin Bool.false_ne_true

theorem verbatim_of_isBlock {key text : String} (h : isBlock key text.toList = true) :
    Verbatim key text := by
  rw [isBlock, Bool.and_eq_true, Bool.and_eq_true, Bool.not_eq_true', beq_iff_eq] at h
  obtain ⟨⟨hhandler, htext⟩, hinner⟩ := h
  have hbraced : text = braced (String.ofList text.toList.tail.dropLast) := by
    rw [← String.toList_inj, braced_toList, String.toList_ofList, ← htext]
  rw [hbraced]
  refine .block hhandler ?_
  rw [String.toList_ofList]
  exact enclosed_of_isEnclosed hinner

theorem firmScalar_of_isFirmScalar {v : Value} (h : isFirmScalar v = true) : FirmScalar v := by
  cases v with
  | raw s => exact selfDelimiting_of_isSelfDelimiting h
  | float x => exact absurd h Bool.false_ne_true
  | _ => exact trivial

theorem firm_of_isFirmCode {key : String} {code block : Value} (h : isFirmCode code block = true) :
    Firm key (.handler code block) := by
  unfold isFirmCode at h
  split at h
  · exact .code (balanced_of_isBalanced h)
  · rename_i code
    rw [isLine, Bool.and_eq_true, Bool.not_eq_true', List.contains_eq_mem, List.contains_eq_mem,
      decide_eq_false_iff_not] at h
    refine .line h.1 (fun hsemicolon => ?_) fun hsemicolon => ?_
    · have henclosed := h.2
      rw [if_pos (decide_eq_true hsemicolon)] at henclosed
      exact enclosed_of_isEnclosed henclosed
    · have hself := h.2
      rw [if_neg (by rw [decide_eq_true_eq]; exact hsemicolon)] at hself
      exact selfDelimiting_of_isSelfDelimiting hself
  · exact absurd h Bool.false_ne_true

theorem firm_of_isFirmSource {key text : String} (h : isFirmSource key text = true) :
    Firm key (.raw text) := by
  rw [isFirmSource, List.contains_eq_mem] at h
  -- A key with a blank in it belongs to a declaration.
  by_cases hkey : ' ' ∈ key.toList
  · rw [if_pos (decide_eq_true hkey)] at h
    exact .declaration hkey (delimited_of_isDelimited h)
  · rw [if_neg (by rw [decide_eq_true_eq]; exact hkey), Bool.or_eq_true, Bool.or_eq_true] at h
    rcases h with (hself | hblock) | hkept
    · exact .plain hkey rfl (selfDelimiting_of_isSelfDelimiting hself)
    · exact .verbatim hkey (verbatim_of_isBlock hblock)
    · exact .verbatim hkey (.object (keptObject_of_isKeptObject hkept))

mutual

/-- A value that passes is firm. -/
theorem firm_of_isFirm {key : String} : ∀ v : Value, isFirm key v = true → Firm key v
  | .raw _, h => firm_of_isFirmSource (by rwa [isFirm] at h)
  | .handler _ _, h => firm_of_isFirmCode (by rwa [isFirm] at h)
  | .group fields, h => by
    rw [isFirm] at h
    by_cases hcapital : isCapitalized key.toList = true
    · rw [if_pos hcapital, Bool.and_eq_true, Bool.not_eq_true', List.all_eq_true] at h
      exact .points hcapital (List.isEmpty_eq_false_iff.mp h.1) fun f hf =>
        firmScalar_of_isFirmScalar (h.2 f hf)
    · rw [if_neg hcapital] at h
      exact .block (Bool.eq_false_iff.mpr hcapital) (firm_of_areFirm fields h)
  | .object _ properties, h => .object (firm_of_areFirm properties (by rwa [isFirm] at h))
  | .null, h | .bool _, h | .int _, h | .float _, h | .text _, h | .moment _, h | .list _, h
  | .record _, h => by
    simp only [isFirm, Bool.and_eq_true, Bool.not_eq_true', List.contains_eq_mem,
      decide_eq_false_iff_not] at h
    exact .plain h.2 h.1.1 (firmScalar_of_isFirmScalar h.1.2)

/-- So are several. -/
theorem firm_of_areFirm : ∀ fields : Fields, areFirm fields = true →
    ∀ f ∈ fields, Firm f.1 f.2
  | [], _ => fun _ hf => absurd hf List.not_mem_nil
  | (key, v) :: fields, h => by
    rw [areFirm, Bool.and_eq_true] at h
    intro f hf
    rcases List.mem_cons.mp hf with rfl | hf
    · exact firm_of_isFirm v h.1
    · exact firm_of_areFirm fields h.2 f hf

end

theorem eq_of_samePlain {v w : Value} (h : samePlain v w = true) : v = w := by
  unfold samePlain at h
  split at h
  · exact congrArg Value.bool (beq_iff_eq.mp h)
  · exact congrArg Value.int (beq_iff_eq.mp h)
  · exact congrArg Value.text (beq_iff_eq.mp h)
  · exact absurd h Bool.false_ne_true

theorem firmPlace_of_isFirmPlace {properties : Fields} {key : String} {usual number : Value}
    (h : isFirmPlace properties key usual number = true) :
    FirmPlace properties key usual number := by
  unfold isFirmPlace at h
  unfold FirmPlace
  cases hget : properties.get? key with
  | none =>
      rw [hget] at h
      exact firmScalar_of_isFirmScalar h
  | some v =>
      rw [hget] at h
      simp only [Bool.and_eq_true] at h
      exact ⟨h.1, eq_of_samePlain h.2⟩

theorem firmNode_of_isFirmNode {n : Node} (h : isFirmNode n = true) : FirmNode n := by
  simp only [isFirmNode, Bool.and_eq_true, Option.isNone_iff_eq_none] at h
  obtain ⟨⟨⟨⟨⟨⟨htype, hid⟩, hx⟩, hy⟩, hwidth⟩, hheight⟩, hproperties⟩ := h
  exact ⟨htype, hid, firmPlace_of_isFirmPlace hx, firmPlace_of_isFirmPlace hy,
    firmPlace_of_isFirmPlace hwidth, firmPlace_of_isFirmPlace hheight,
    firm_of_areFirm _ hproperties⟩

theorem firmWindow_of_isFirmWindow {s : Settings} {w : Window} (h : isFirmWindow s w = true) :
    FirmWindow s w := by
  simp only [isFirmWindow, Bool.and_eq_true, Option.isNone_iff_eq_none] at h
  obtain ⟨⟨⟨⟨⟨⟨⟨⟨⟨hid, hwidth⟩, hwidth'⟩, hheight⟩, hheight'⟩, hw⟩, hh⟩, ht⟩, hv⟩, hproperties⟩ := h
  exact ⟨hid, ⟨hwidth, firmScalar_of_isFirmScalar hwidth'⟩,
    ⟨hheight, firmScalar_of_isFirmScalar hheight'⟩,
    ⟨eq_of_samePlain hw, eq_of_samePlain hh, eq_of_samePlain ht, eq_of_samePlain hv⟩,
    firm_of_areFirm _ hproperties⟩

/-- A document that passes is firm. -/
theorem firmDocument_of_isFirmDocument {s : Settings} {d : Document}
    (h : isFirmDocument s d = true) : FirmDocument s d := by
  rw [isFirmDocument, Bool.and_eq_true, List.all_eq_true] at h
  exact ⟨firmWindow_of_isFirmWindow h.1, fun n hn => firmNode_of_isFirmNode (h.2 n hn)⟩

end Markup

end WidgetSync
