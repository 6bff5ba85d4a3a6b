import WidgetSync.Proofs.Canonical
import WidgetSync.Proofs.Sequence
import WidgetSync.Proofs.Writable

/-!
# Attributes Given More Than Once

Which of several values that a text gives an attribute of the window is written.

The window keeps an attribute in two places. A literal sets the attribute itself, and a
binding becomes a property of the same name. Each of the two remembers the last that was
given, but not which of them came later, and the writer takes the property if there is one.
So the last binding is written, or, if there is none, the last literal, or, if there is
neither, what the settings say. A literal behind a binding has no effect at all.
`laterWidth_ignored` is a text in which that happens. In a widget the same literal would be
written, since there it removes the property.

An attribute may also be made a group of fields or an object. That is not what the texts here
do; they give it source text, between braces or not.

## Main definitions

* `Assignment`: What a text gives an attribute, a literal or a binding.
* `Statement.assigned?`: What a statement gives an attribute.
* `Statement.composes`: The statement makes an attribute a group or an object.
* `assignments`: All that a text gives an attribute, in order.
* `decided`: What is written for it.
* `Taking`: What the window does with source text for an attribute.
* `Holds`: What a reading keeps of what an attribute was given.

## Theorems

* `decided_binding`, `decided_literal`: What the last assignment does.
* `windowAttribute_taking`: What source text is for an attribute.
* `Holds.step`: A statement keeps that.
* `attributes_decided`: What is written for the attributes of the window.
-/

namespace WidgetSync

namespace Markup

/-- What a text gives an attribute of the window. -/
inductive Assignment where
  /-- A literal, with its text as it is written. -/
  | literal (text : String)
  /-- A binding, with its source text. -/
  | binding (text : String)
deriving DecidableEq, Repr

namespace Assignment

/-- The text of a literal. -/
def literal? : Assignment → Option String
  | .literal text => some text
  | .binding _ => none

/-- The text of a binding. -/
def binding? : Assignment → Option String
  | .literal _ => none
  | .binding text => some text

end Assignment

/-- The text of the last literal. -/
def lastLiteral? (given : List Assignment) : Option String :=
  (given.filterMap Assignment.literal?).getLast?

/-- The text of the last binding. -/
def lastBinding? (given : List Assignment) : Option String :=
  (given.filterMap Assignment.binding?).getLast?

/-- What is written for an attribute: the last binding, or else the last literal, or else what is
    usual. -/
def decided (usual : String) (given : List Assignment) : String :=
  ((lastBinding? given).or (lastLiteral? given)).getD usual

theorem lastLiteral?_concat (given : List Assignment) (a : Assignment) :
    lastLiteral? (given ++ [a]) = a.literal?.or (lastLiteral? given) := by
  rw [lastLiteral?, List.filterMap_append, List.getLast?_append, ← lastLiteral?]
  cases a <;> rfl

theorem lastBinding?_concat (given : List Assignment) (a : Assignment) :
    lastBinding? (given ++ [a]) = a.binding?.or (lastBinding? given) := by
  rw [lastBinding?, List.filterMap_append, List.getLast?_append, ← lastBinding?]
  cases a <;> rfl

/-- A binding that comes last is written. -/
theorem decided_binding (usual : String) (earlier : List Assignment) (text : String) :
    decided usual (earlier ++ [.binding text]) = text := by
  rw [decided, lastBinding?_concat]
  rfl

/-- A literal that comes last is written if there is no binding before it, and changes nothing if
    there is one. -/
theorem decided_literal (usual : String) (earlier : List Assignment) (text : String) :
    decided usual (earlier ++ [.literal text])
      = if lastBinding? earlier = none then text else decided usual earlier := by
  rw [decided, lastBinding?_concat, lastLiteral?_concat, decided]
  cases lastBinding? earlier <;> rfl

/-- What source text is for an attribute. An integer with too many digits is neither a literal
    nor a binding: the reader stops there. -/
def assignmentOf? (key raw : String) : Option Assignment :=
  if key = "visible" then
    if raw = "true" ∨ raw = "false" then some (.literal raw) else some (.binding raw)
  else if key = "title" then
    match stringLiteral? raw with
    | some s => some (.literal (localized s))
    | none => some (.binding raw)
  else
    match numberLiteral? raw with
    | .ok (some v) => (literal v).toOption.map .literal
    | .ok none => some (.binding raw)
    | .error _ => none

/-- What is written for an attribute itself. -/
def attributeText (w : Window) (key : String) : Except Fault String :=
  if key = "width" then literal w.width
  else if key = "height" then literal w.height
  else if key = "visible" then .ok (if w.visible.truth then "true" else "false")
  else .ok (localized (if w.title.truth then w.title.plain else ""))

/-- What is written for an attribute that no text gives a value. -/
def usualText (s : Settings) (key : String) : String :=
  if key = "width" then toString s.width
  else if key = "height" then toString s.height
  else if key = "visible" then "true"
  else localized s.title

theorem attributeText_usual (s : Settings) {key : String} (hkey : key ∈ attributeNames)
    (hwidth : (Value.int s.width).writable = true)
    (hheight : (Value.int s.height).writable = true) :
    attributeText (.usual s) key = .ok (usualText s key) := by
  simp only [attributeNames, List.mem_cons, List.not_mem_nil, or_false] at hkey
  rcases hkey with rfl | rfl | rfl | rfl
  · simp only [attributeText, usualText, if_true, Window.usual, literal_integer, hwidth]
  · simp only [attributeText, usualText, String.reduceEq, if_false, if_true, Window.usual,
      literal_integer, hheight]
  · rfl
  · exact congrArg (fun t => Except.ok (localized t)) (title_text (v := .text s.title) rfl)

/-- What source text is for an attribute of the window. -/
inductive Taking (key raw : String) (w : Window) : Prop where
  /-- A number that stops the reader. -/
  | stops (fault : Fault) (hassigned : assignmentOf? key raw = none)
      (hwindow : Reading.windowAttribute w key raw = .error fault)
  /-- A literal, which the window takes. -/
  | literal (text : String) (u : Window) (hassigned : assignmentOf? key raw = some (.literal text))
      (hwindow : Reading.windowAttribute w key raw = .ok (some u))
      (htext : attributeText u key = .ok text)
  /-- A binding, which the window leaves to its properties. -/
  | binding (hassigned : assignmentOf? key raw = some (.binding raw))
      (hwindow : Reading.windowAttribute w key raw = .ok none)
      (hvalue : valueOf raw (Catalog.spelling? key) = .ok (.raw raw))

/-- For a width or height only numbers are literals. -/
theorem taking_number {key raw : String} {w : Window} {given : Value → Window}
    (hkey : key ≠ "visible" ∧ key ≠ "title") (hspelling : Catalog.spelling? key = none)
    (hwindow : Reading.windowAttribute w key raw = (numberLiteral? raw).map fun n => n.map given)
    (htext : ∀ v, attributeText (given v) key = literal v) : Taking key raw w := by
  rcases hraw : numberLiteral? raw with fault | _ | v
  · refine .stops fault ?_ ?_
    · rw [assignmentOf?, if_neg hkey.1, if_neg hkey.2, hraw]
    · rw [hwindow, hraw]
      rfl
  · refine .binding ?_ ?_ ?_
    · rw [assignmentOf?, if_neg hkey.1, if_neg hkey.2, hraw]
    · rw [hwindow, hraw]
      rfl
    · rw [hspelling]
      rfl
  · rcases literal_ok_iff.mpr (gainedNumber_of_numberLiteral? hraw).writable with ⟨text, hliteral⟩
    refine .literal text (given v) ?_ ?_ ((htext v).trans hliteral)
    · rw [assignmentOf?, if_neg hkey.1, if_neg hkey.2, hraw]
      simp only [hliteral, Except.toOption, Option.map_some]
    · rw [hwindow, hraw]
      rfl

theorem taking_visible (raw : String) (w : Window) : Taking "visible" raw w := by
  have hassigned : assignmentOf? "visible" raw
      = if raw = "true" ∨ raw = "false" then some (.literal raw) else some (.binding raw) := rfl
  have hwindow : Reading.windowAttribute w "visible" raw
      = if "visible" = "visible" ∧ raw = "true" then .ok (some { w with visible := .bool true })
        else if "visible" = "visible" ∧ raw = "false" then
          .ok (some { w with visible := .bool false })
        else .ok none := rfl
  by_cases htrue : raw = "true"
  · rw [if_pos (.inl htrue)] at hassigned
    rw [if_pos ⟨rfl, htrue⟩] at hwindow
    exact .literal raw _ hassigned hwindow (by rw [htrue]; rfl)
  · rw [if_neg fun h => htrue h.2] at hwindow
    by_cases hfalse : raw = "false"
    · rw [if_pos (.inr hfalse)] at hassigned
      rw [if_pos ⟨rfl, hfalse⟩] at hwindow
      exact .literal raw _ hassigned hwindow (by rw [hfalse]; rfl)
    · rw [if_neg fun h => h.elim htrue hfalse] at hassigned
      rw [if_neg fun h => hfalse h.2] at hwindow
      refine .binding hassigned hwindow ?_
      rw [show Catalog.spelling? "visible" = some ⟨.bool, none⟩ by decide]
      simp only [valueOf, if_neg htrue, if_neg hfalse]

theorem taking_title (raw : String) (w : Window) : Taking "title" raw w := by
  have hwindow : Reading.windowAttribute w "title" raw
      = .ok ((stringLiteral? raw).map fun t => { w with title := .text t }) := rfl
  cases hraw : stringLiteral? raw with
  | some t =>
      refine .literal (localized t) { w with title := .text t } ?_ ?_
        (congrArg (fun t => Except.ok (localized t)) (title_text rfl))
      · rw [assignmentOf?, if_neg (by decide), if_pos rfl, hraw]
      · rw [hwindow, hraw, Option.map_some]
  | none =>
      refine .binding ?_ ?_ ?_
      · rw [assignmentOf?, if_neg (by decide), if_pos rfl, hraw]
      · rw [hwindow, hraw, Option.map_none]
      · rw [show Catalog.spelling? "title" = some ⟨.text, none⟩ by decide]
        simp only [valueOf, hraw, Option.map_none, Option.getD_none]

/-- Source text for an attribute stops the reader, is a literal that the window takes, or is a
    binding that it leaves to its properties. -/
theorem windowAttribute_taking {key : String} (hkey : key ∈ attributeNames) (w : Window)
    (raw : String) : Taking key raw w := by
  simp only [attributeNames, List.mem_cons, List.not_mem_nil, or_false] at hkey
  rcases hkey with rfl | rfl | rfl | rfl
  · exact @taking_number _ raw w (fun v => { w with width := v }) (by decide) rfl rfl fun _ => rfl
  · exact @taking_number _ raw w (fun v => { w with height := v }) (by decide) rfl rfl fun _ => rfl
  · exact taking_visible raw w
  · exact taking_title raw w

/-- A literal sets an attribute, and no property. -/
theorem properties_of_windowAttribute {name raw : String} {w u : Window}
    (h : Reading.windowAttribute w name raw = .ok (some u)) : u.properties = w.properties := by
  have heffect := Reading.windowAttribute_effect w name raw
  rw [h] at heffect
  cases heffect with
  | _ => rfl

/-- A literal under one name leaves the other attributes what they are. -/
theorem attributeText_of_windowAttribute {key name raw : String} {w u : Window}
    (hkey : key ∈ attributeNames) (hne : name ≠ key)
    (h : Reading.windowAttribute w name raw = .ok (some u)) :
    attributeText u key = attributeText w key := by
  have heffect := Reading.windowAttribute_effect w name raw
  rw [h] at heffect
  simp only [attributeNames, List.mem_cons, List.not_mem_nil, or_false] at hkey
  cases heffect with
  | id => rfl
  | _ =>
      rcases hkey with rfl | rfl | rfl | rfl
      all_goals first
        | exact absurd rfl hne
        | simp only [attributeText, String.reduceEq, if_false, if_true]

/-- The text of a value between braces, of which the tokens behind the opening brace are given. -/
def bracesText (tail : List Char) (us : List Token) : String :=
  braced (String.ofList (match blockLength? 0 us with
    | some n => Reading.insideText us n
    | none => withGaps us ++ tail))

theorem Reading.property_bracesText (r : Reading) (tail : List Char) {key : String} {v : Token}
    (us : List Token) (hhandler : Catalog.isHandlerName key = false) (hopens : v.kind = .opening) :
    (r.property tail key (v :: us)).reading = r.store key (.raw (bracesText tail us)) := by
  have hvalue : ∀ inner, bracedValue key inner = .raw (braced (String.ofList inner)) := by
    intro inner
    rw [bracedValue, hhandler, if_neg Bool.false_ne_true]
  unfold bracesText
  cases hblock : blockLength? 0 us with
  | some n => rw [r.property_block tail key hopens hblock, hvalue, Step.reading]
  | none => rw [r.property_open tail key hopens hblock, hvalue, Step.reading]

namespace Statement

/-- The statement stands in the block of the window, and not in another one inside. -/
def inWindow (st : Statement) : Bool :=
  match st.before.frames with
  | [.window] => true
  | _ => false

theorem inWindow_iff {st : Statement} : st.inWindow = true ↔ st.before.frames = [.window] := by
  unfold inWindow
  split
  · rename_i hframes
    exact iff_of_true rfl hframes
  · rename_i hframes
    exact iff_of_false Bool.false_ne_true hframes

/-- What the tokens behind a colon give an attribute. -/
def value? (tail : List Char) (key : String) : List Token → Option Assignment
  | [] => none
  | v :: us =>
    if v.kind = .opening then some (.binding (bracesText tail us))
    else if opensObject (v :: us) || (valueText (v :: us)).isEmpty then none
    else assignmentOf? key (valueText (v :: us))

/-- What a statement gives an attribute of the window. -/
def assigned? (tail : List Char) (key : String) (st : Statement) : Option Assignment :=
  if st.inWindow && st.first.kind == .name && st.first.text == key && starts .colon st.rest then
    value? tail key (st.rest.drop 1)
  else none

/-- The statement makes an attribute of the window a group of fields or an object: it opens the
    group, gives it a field, or opens the object. -/
def composes (key : String) (st : Statement) : Bool :=
  st.inWindow && st.first.kind == .name &&
    if starts .opening st.rest then !st.first.isCapital && st.first.text == key
    else starts .colon st.rest &&
      ((st.first.text == key && opensObject (st.rest.drop 1)) ||
        (Reading.splitName? st.first.text).map Prod.fst == some key)

end Statement

/-- The name of the property that a block is the value of. -/
def Frame.gives? : Frame → Option String
  | .window => none
  | .node _ => none
  | .group name _ => some name
  | .object key _ _ _ _ => some key

/-- The blocks that are open are a widget or the window, with others inside, and what is open
    directly in the window is no value of the attribute. -/
inductive Clear (key : String) : List Frame → Prop where
  | none : Clear key []
  | window : Clear key [.window]
  | root (n : Node) : Clear key [.node n]
  | inWindow {f : Frame} (hf : f ≠ .window) (hgives : f.gives? ≠ some key) :
      Clear key [f, .window]
  | inside {f g : Frame} {fs : List Frame} (hf : f ≠ .window) (hg : g ≠ .window)
      (h : Clear key (g :: fs)) : Clear key (f :: g :: fs)

namespace Clear

variable {key : String} {f g : Frame} {fs : List Frame}

theorem rest (h : Clear key (f :: fs)) : Clear key fs := by
  cases h with
  | window => exact .none
  | root n => exact .none
  | inWindow => exact .window
  | inside _ _ h => exact h

/-- The window is open outside of all other blocks only. -/
theorem eq_nil (h : Clear key (.window :: fs)) : fs = [] := by
  cases h with
  | window => rfl
  | inWindow hf => exact absurd rfl hf
  | inside hf => exact absurd rfl hf

theorem push (h : Clear key (g :: fs)) (hf : f ≠ .window)
    (hgives : g = .window → f.gives? ≠ some key) : Clear key (f :: g :: fs) := by
  by_cases hg : g = .window
  · subst hg
    obtain rfl := h.eq_nil
    exact .inWindow hf (hgives rfl)
  · exact .inside hf hg h

/-- A block may get other contents. -/
theorem exchange (h : Clear key (f :: fs)) (hf : f ≠ .window) (hg : g ≠ .window)
    (hgives : g.gives? = f.gives?) : Clear key (g :: fs) := by
  cases h with
  | window => exact absurd rfl hf
  | root n =>
      cases g with
      | window => exact absurd rfl hg
      | node m => exact .root m
      | group name fields => exact absurd hgives (by simp only [Frame.gives?, reduceCtorEq,
          not_false_eq_true])
      | object key type properties holds source => exact absurd hgives (by
          simp only [Frame.gives?, reduceCtorEq, not_false_eq_true])
  | inWindow _ h => exact .inWindow hg (hgives ▸ h)
  | inside _ hf' h => exact .inside hg hf' h

end Clear

/-- What the reading keeps of all that an attribute of the window was given: the property is the
    last binding, and the attribute itself is the last literal. -/
structure Holds (s : Settings) (key : String) (given : List Assignment) (r : Reading) : Prop where
  binding : r.window.properties.get? key = (lastBinding? given).map .raw
  literal : attributeText r.window key = .ok ((lastLiteral? given).getD (usualText s key))
  frames : Clear key r.frames

namespace Holds

variable {s : Settings} {key : String} {given : List Assignment} {r : Reading}

/-- A property under another name. -/
theorem store (h : Holds s key given r) (hframes : r.frames ≠ []) {name : String}
    (hname : r.frames = [.window] → name ≠ key) (v : Value) :
    Holds s key given (r.store name v) := by
  obtain ⟨window, roots, declared, frames⟩ := r
  rcases frames with _ | ⟨f, fs⟩
  · exact absurd rfl hframes
  · cases f with
    | window =>
        obtain rfl := h.frames.eq_nil
        refine ⟨?_, h.literal, .window⟩
        exact (Table.get?_set_of_ne _ _ (hname rfl).symm).trans h.binding
    | _ =>
        refine ⟨h.binding, h.literal, h.frames.exchange ?_ ?_ rfl⟩
        all_goals exact Frame.noConfusion

/-- A block that is no value of the attribute. -/
theorem push (h : Holds s key given r) (hframes : r.frames ≠ []) {f : Frame} (hf : f ≠ .window)
    (hgives : r.frames = [.window] → f.gives? ≠ some key) : Holds s key given (r.push f) := by
  refine ⟨h.binding, h.literal, ?_⟩
  have hclear := h.frames
  rw [Reading.push]
  cases hfs : r.frames with
  | nil => exact absurd hfs hframes
  | cons g fs =>
      rw [hfs] at hclear hgives
      refine hclear.push hf fun hg => hgives ?_
      subst hg
      rw [hclear.eq_nil]

/-- A complete widget is handed over. -/
theorem adopt (h : Holds s key given r) (n : Node) : Holds s key given (r.adopt n) := by
  obtain ⟨window, roots, declared, frames⟩ := r
  rcases frames with _ | ⟨f, fs⟩
  · exact ⟨h.binding, h.literal, .none⟩
  · cases f with
    | window => exact ⟨h.binding, h.literal, h.frames⟩
    | group name fields => exact ⟨h.binding, h.literal, h.frames⟩
    | _ =>
        refine ⟨h.binding, h.literal, h.frames.exchange ?_ ?_ rfl⟩
        all_goals exact Frame.noConfusion

/-- A block closes. -/
theorem close (h : Holds s key given r) (stopped : Bool) (rest : List Token) :
    Holds s key given (r.close stopped rest) := by
  obtain ⟨window, roots, declared, frames⟩ := r
  rcases frames with _ | ⟨f, fs⟩
  · exact h
  · have hbelow : Holds s key given ⟨window, roots, declared, fs⟩ :=
      ⟨h.binding, h.literal, h.frames.rest⟩
    -- Below a group or an object there is a block, and if that is the window's, what closes is no
    -- value of the attribute.
    have hstore : ∀ {name : String} (v : Value), f.gives? = some name →
        Holds s key given (Reading.store ⟨window, roots, declared, fs⟩ name v) := by
      intro name v hname
      have hclear := h.frames
      refine hbelow.store ?_ ?_ v
      · rintro rfl
        cases hclear with
        | window => exact absurd hname (Option.some_ne_none name).symm
        | root n => exact absurd hname (Option.some_ne_none name).symm
      · rintro rfl rfl
        cases hclear with
        | inWindow _ hgives => exact hgives hname
        | inside _ hg => exact absurd rfl hg
    cases f with
    | window => exact hbelow
    | node n => exact hbelow.adopt n
    | group name fields => exact hstore _ rfl
    | object name type properties holds source => exact hstore _ rfl

theorem closeMany (h : Holds s key given r) (stopped : Bool) (k : Nat) :
    Holds s key given (r.closeMany stopped k) := by
  induction k generalizing r with
  | zero => exact h
  | succ k ih => exact ih (h.close stopped [])

/-- A binding of the attribute. -/
theorem bind (h : Holds s key given r) (hframes : r.frames = [.window]) (text : String) :
    Holds s key (given ++ [.binding text]) (r.store key (.raw text)) := by
  obtain ⟨window, roots, declared, frames⟩ := r
  subst hframes
  refine ⟨?_, ?_, .window⟩
  · rw [lastBinding?_concat]
    exact Table.get?_set_self _ _ _
  · rw [lastLiteral?_concat]
    exact h.literal

/-- A value that a widget or the window has taken under another name. -/
theorem absorbed (h : Holds s key given r) (hkey : key ∈ attributeNames) {u : Reading}
    {name raw : String} (hname : r.frames = [.window] → name ≠ key)
    (habsorb : r.absorb name raw = .ok (some u)) : Holds s key given u := by
  have hclear := h.frames
  rcases Reading.absorb_some habsorb with
    ⟨n, m, fs, hframes, -, rfl⟩ | ⟨fs, w, hframes, hattribute, rfl⟩
  · rw [hframes] at hclear
    refine ⟨h.binding, h.literal, hclear.exchange ?_ ?_ rfl⟩
    all_goals exact Frame.noConfusion
  · rw [hframes] at hclear hname
    obtain rfl := hclear.eq_nil
    refine ⟨?_, ?_, h.frames⟩
    · exact (congrArg (Table.get? · key)
        (properties_of_windowAttribute hattribute)).trans h.binding
    · exact (attributeText_of_windowAttribute hkey (hname rfl) hattribute).trans h.literal

/-- A value that is neither a block nor an object, under another name. -/
theorem assign (h : Holds s key given r) (hkey : key ∈ attributeNames) (hframes : r.frames ≠ [])
    {name : String} (hname : r.frames = [.window] →
      name ≠ key ∧ (Reading.splitName? name).map Prod.fst ≠ some key)
    (raw : String) (used : Nat) : Holds s key given (r.assign name raw used).reading := by
  have hgiven : ∀ {value : Except Fault Value} {stopped : Reading} {keep : Value → Reading},
      Holds s key given stopped → (∀ v, Holds s key given (keep v)) →
      Holds s key given (Step.given value stopped used keep).reading := by
    intro value stopped keep hstopped hkeep
    cases value with
    | error fault => exact hstopped
    | ok v => exact hkeep v
  have hother : r.frames = [.window] → name ≠ key := fun hwindow => (hname hwindow).1
  rcases r.pointed_cases name with ⟨head, field, hgroup, hsplit⟩ | hpoints
  · have hhead : r.frames = [.window] → head ≠ key := by
      rintro hwindow rfl
      exact (hname hwindow).2 (by rw [hsplit]; rfl)
    rw [Reading.assign_pointed hgroup hsplit]
    exact hgiven (h.store hframes hhead _) fun v => h.store hframes hhead _
  · rw [Reading.assign_unpointed hpoints]
    rcases habsorb : r.absorb name raw with fault | _ | u
    · exact h
    · exact hgiven h fun v => h.store hframes hother v
    · exact h.absorbed hkey hother habsorb

/-- Source text for the attribute. -/
theorem assign_self (h : Holds s key given r) (hkey : key ∈ attributeNames)
    (hframes : r.frames = [.window]) (raw : String) (used : Nat) :
    Holds s key (given ++ (assignmentOf? key raw).toList) (r.assign key raw used).reading := by
  have hpoints : Reading.splitName? key = none := by
    have hall : ∀ key ∈ attributeNames, Reading.splitName? key = none := by decide +kernel
    exact hall key hkey
  cases windowAttribute_taking hkey r.window raw with
  | stops fault hassigned hwindow =>
      have hassign : r.assign key raw used = .stop r := by
        simp only [Reading.assign, hframes, hpoints, Option.map_none, hwindow]
      rw [hassign, hassigned, Option.toList_none, List.append_nil]
      exact h
  | literal text u hassigned hwindow htext =>
      have hassign : r.assign key raw used = .next { r with window := u } used [] := by
        simp only [Reading.assign, hframes, hpoints, Option.map_none, hwindow]
      rw [hassign, hassigned, Option.toList_some]
      refine ⟨?_, ?_, h.frames⟩
      · rw [lastBinding?_concat]
        exact (congrArg (Table.get? · key)
          (properties_of_windowAttribute hwindow)).trans h.binding
      · rw [lastLiteral?_concat]
        exact htext
  | binding hassigned hwindow hvalue =>
      have hassign : r.assign key raw used = .next (r.store key (.raw raw)) used [] := by
        simp only [Reading.assign, hframes, hpoints, Option.map_none, hwindow, hvalue, Step.given]
      rw [hassign, hassigned, Option.toList_some]
      exact h.bind hframes raw

/-- A value that is neither a block nor an object, under another name. -/
theorem valued (h : Holds s key given r) (hkey : key ∈ attributeNames) (hframes : r.frames ≠ [])
    {name : String} (hname : r.frames = [.window] →
      name ≠ key ∧ (Reading.splitName? name).map Prod.fst ≠ some key)
    (raw : String) (used : Nat) : Holds s key given (r.valued name raw used).reading := by
  unfold Reading.valued
  split
  · exact h
  · split
    · exact h.store hframes (fun hwindow => (hname hwindow).1) _
    · exact h.assign hkey hframes hname raw used

/-- A property under another name. -/
theorem property (h : Holds s key given r) (hkey : key ∈ attributeNames) (hframes : r.frames ≠ [])
    {name : String} (hname : r.frames = [.window] →
      name ≠ key ∧ (Reading.splitName? name).map Prod.fst ≠ some key)
    (tail : List Char) (ts : List Token) :
    Holds s key given (r.property tail name ts).reading := by
  have hother : r.frames = [.window] → name ≠ key := fun hwindow => (hname hwindow).1
  cases ts using Reading.value_cases with
  | missing => exact h
  | unclosed v vs hopens hblock =>
      rw [Reading.property_open r tail name hopens hblock]
      exact h.store hframes hother _
  | block v vs n hopens hblock =>
      rw [Reading.property_block r tail name hopens hblock]
      exact h.store hframes hother _
  | object v vs hopens hobject =>
      rw [Reading.property_object r tail name hopens hobject]
      exact h.push hframes Frame.noConfusion fun hwindow heq =>
        hother hwindow (Option.some.inj heq)
  | plain v vs hopens hobject =>
      rw [Reading.property_value r tail name hopens hobject]
      exact h.valued hkey hframes hname _ _

/-- The attribute itself as a property, unless it is an object. -/
theorem property_self (h : Holds s key given r) (hkey : key ∈ attributeNames)
    (hframes : r.frames = [.window]) (tail : List Char) {ts : List Token}
    (hobject : opensObject ts = false) :
    Holds s key (given ++ (Statement.value? tail key ts).toList)
      (r.property tail key ts).reading := by
  have hhandler : Catalog.isHandlerName key = false := by
    have hall : ∀ key ∈ attributeNames, Catalog.isHandlerName key = false := by decide +kernel
    exact hall key hkey
  have hnothing : Holds s key (given ++ (none : Option Assignment).toList) r := by
    rwa [Option.toList_none, List.append_nil]
  cases ts with
  | nil => exact hnothing
  | cons v vs =>
      by_cases hopens : v.kind = .opening
      · rw [Reading.property_bracesText r tail vs hhandler hopens, Statement.value?,
          if_pos hopens, Option.toList_some]
        exact h.bind hframes _
      · rw [Reading.property_value r tail key hopens hobject, Reading.valued, Statement.value?,
          if_neg hopens, hobject, Bool.false_or]
        split
        · exact hnothing
        · rw [if_neg (Bool.eq_false_iff.mp hhandler)]
          exact h.assign_self hkey hframes _ _

/-- A declaration. Its name has blanks in it. -/
theorem declaration (h : Holds s key given r) (hkey : key ∈ attributeNames)
    (hframes : r.frames ≠ []) (ts : List Token) :
    Holds s key given (r.declaration ts).reading := by
  rcases names_split ts with hall | ⟨words, c, cs, rfl, hwords, hc⟩
  · rw [Reading.declaration_names r hall]
    exact h
  · rw [Reading.declaration_split r cs hwords hc]
    split
    · rename_i hcolon
      unfold Reading.declaredValue
      split
      · exact h
      · refine h.store hframes (fun _ heq => ?_) _
        have hspace : ' ' ∈ (" ".intercalate (words.map Token.text)).toList :=
          space_mem_intercalate (by rw [List.length_map]; exact hcolon.2)
        rw [heq] at hspace
        have hall : ∀ key ∈ attributeNames, ' ' ∉ key.toList := by decide
        exact hall key hkey hspace
    · exact h

/-- A statement outside of all blocks. -/
theorem topLevel (h : Holds s key given r) (hframes : r.frames = []) (t : Token)
    (ts : List Token) : Holds s key given (r.topLevel t ts).reading := by
  unfold Reading.topLevel
  split
  · exact h
  · split
    · exact h
    · split
      · refine ⟨h.binding, h.literal, ?_⟩
        change Clear key (_ :: r.frames)
        rw [hframes]
        split
        · exact .window
        · exact .root _
      · split
        · exact h
        · exact h

/-- A statement inside a block that has nothing to do with the attribute. -/
theorem member (h : Holds s key given r) (hkey : key ∈ attributeNames) (hframes : r.frames ≠ [])
    (tail : List Char) {t : Token} {ts : List Token}
    (hother : r.frames = [.window] → t.kind = .name → t.text ≠ key)
    (hpoints : r.frames = [.window] → t.kind = .name → starts .colon ts = true →
      (Reading.splitName? t.text).map Prod.fst ≠ some key) :
    Holds s key given (r.member tail t ts).reading := by
  rcases hasForm t ts with ⟨form, hform⟩
  rw [hform.member]
  cases hform with
  | closing => exact h.close false ts
  | ending => exact h
  | nameless => exact h
  | widget => exact h.push hframes Frame.noConfusion fun _ => Option.some_ne_none key |>.symm
  | group hname =>
      exact h.push hframes Frame.noConfusion fun hwindow heq =>
        hother hwindow hname (Option.some.inj heq)
  | value hname hcolon =>
      exact h.property hkey hframes
        (fun hwindow => ⟨hother hwindow hname, hpoints hwindow hname hcolon⟩) tail _
  | declaration => exact h.declaration hkey hframes _
  | unused => exact h

/-- A statement that starts with the name of the attribute, in the block of the window. -/
theorem member_self (h : Holds s key given r) (hkey : key ∈ attributeNames)
    (hframes : r.frames = [.window]) (tail : List Char) {t : Token} {ts : List Token}
    (hname : t.kind = .name) (htext : t.text = key)
    (hcomposes : Statement.composes key ⟨r, t, ts⟩ = false) :
    Holds s key (given ++ (Statement.assigned? tail key ⟨r, t, ts⟩).toList)
      (r.member tail t ts).reading := by
  have hopen : r.frames ≠ [] := by rw [hframes]; exact List.cons_ne_nil _ _
  have hwindow : Statement.inWindow ⟨r, t, ts⟩ = true := Statement.inWindow_iff.mpr hframes
  simp only [Statement.composes, Statement.assigned?, hwindow, hname, htext, beq_self_eq_true,
    Bool.true_and, Bool.and_true] at hcomposes ⊢
  rcases hasForm t ts with ⟨form, hform⟩
  rw [hform.member]
  cases hform with
  | closing hcloses => exact Kind.noConfusion (hname.symm.trans hcloses)
  | ending hends =>
      rw [hname] at hends
      exact absurd hends (by decide)
  | nameless _ _ hnone => exact absurd hname hnone
  | widget _ hopens =>
      rw [starts_of_ne hopens (by decide), if_neg Bool.false_ne_true, Option.toList_none,
        List.append_nil]
      exact h.push hopen Frame.noConfusion fun _ => (Option.some_ne_none key).symm
  | group _ hopens hcapital =>
      -- It would make the attribute a group.
      rw [if_pos hopens, hcapital] at hcomposes
      exact absurd hcomposes Bool.noConfusion
  | value _ hcolon =>
      have hopens : starts .opening ts = false := starts_of_ne hcolon (by decide)
      rw [if_neg (Bool.eq_false_iff.mp hopens), hcolon, Bool.true_and,
        Bool.or_eq_false_iff] at hcomposes
      rw [if_pos hcolon, Form.act, htext]
      exact h.property_self hkey hframes tail hcomposes.1
  | declaration _ _ hcolon =>
      rw [hcolon, if_neg Bool.false_ne_true, Option.toList_none, List.append_nil]
      exact h.declaration hkey hopen _
  | unused _ _ hcolon =>
      rw [hcolon, if_neg Bool.false_ne_true, Option.toList_none, List.append_nil]
      exact h

/-- A statement that leaves the attribute a plain value. -/
theorem step (h : Holds s key given r) (hkey : key ∈ attributeNames) (tail : List Char)
    {t : Token} {ts : List Token} (hcomposes : Statement.composes key ⟨r, t, ts⟩ = false) :
    Holds s key (given ++ (Statement.assigned? tail key ⟨r, t, ts⟩).toList)
      (r.step tail t ts).reading := by
  by_cases hself : r.frames = [.window] ∧ t.kind = .name ∧ t.text = key
  · rcases hself with ⟨hframes, hname, htext⟩
    rw [Reading.step, hframes, List.isEmpty_cons, if_neg Bool.false_ne_true]
    exact h.member_self hkey hframes tail hname htext hcomposes
  · have hnothing : Statement.assigned? tail key ⟨r, t, ts⟩ = none := by
      rw [Statement.assigned?, if_neg]
      simp only [Bool.and_eq_true, beq_iff_eq]
      exact fun hall => hself ⟨Statement.inWindow_iff.mp hall.1.1.1, hall.1.1.2, hall.1.2⟩
    rw [hnothing, Option.toList_none, List.append_nil, Reading.step]
    split
    · rename_i hempty
      exact h.topLevel (List.isEmpty_iff.mp hempty) t ts
    · rename_i hempty
      refine h.member hkey (fun hnil => hempty (by rw [hnil]; rfl)) tail
        (fun hframes hname htext => hself ⟨hframes, hname, htext⟩) ?_
      intro hframes hname hcolon hpoints
      have hwindow : Statement.inWindow ⟨r, t, ts⟩ = true := Statement.inWindow_iff.mpr hframes
      simp only [Statement.composes, hwindow, hname, starts_of_ne hcolon (by decide : _ ≠ .opening),
        hcolon, hpoints, beq_self_eq_true, Bool.true_and, Bool.or_true, Bool.false_eq_true,
        if_false, reduceCtorEq] at hcomposes

end Holds

/-- All that a text gives an attribute of the window, in order. -/
def assignments (s : Settings) (source key : String) : List Assignment :=
  (statements s source).filterMap (·.assigned? (scan source.toList).tail key)

/-- What is kept of an attribute when a text has been read. -/
theorem readDocument_holds {s : Settings} {source key : String} (hkey : key ∈ attributeNames)
    (hwidth : (Value.int s.width).writable = true)
    (hheight : (Value.int s.height).writable = true)
    (hplain : ∀ st ∈ statements s source, st.composes key = false) :
    ∃ r, (readDocument s source).1.window = r.window ∧
      Holds s key (assignments s source key) r := by
  let given := fun past : List Statement =>
    past.filterMap (·.assigned? (scan source.toList).tail key)
  have hstart : Holds s key (given []) { window := .usual s } :=
    ⟨rfl, attributeText_usual s hkey hwidth hheight, .none⟩
  let kept := fun (past : List Statement) (r : Reading) =>
    (∀ st ∈ past, st.composes key = false) → Holds s key (given past) r
  have hstep : ∀ past r t ts, kept past r →
      kept (past ++ [⟨r, t, ts⟩]) (r.step (scan source.toList).tail t ts).reading := by
    intro past r t ts hpast hall
    have hnext := (hpast fun st hst => hall st (List.mem_append_left _ hst)).step hkey
      (scan source.toList).tail (hall ⟨r, t, ts⟩ (List.mem_append_right _ List.mem_cons_self))
    have hgiven : given (past ++ [⟨r, t, ts⟩]) = given past
        ++ (Statement.assigned? (scan source.toList).tail key ⟨r, t, ts⟩).toList := by
      simp only [given, List.filterMap_append, List.filterMap_cons, List.filterMap_nil]
      split
      all_goals simp_all only [Option.toList_none, Option.toList_some]
    rwa [hgiven]
  have hlast := @Reading.last_keeps { window := .usual s } (scan source.toList).tail
    (scan source.toList).tokens kept hstep [] (fun _ => hstart) hplain
  refine ⟨(Reading.run { window := .usual s } (scan source.toList).tail
    (scan source.toList).tokens).reading, rfl, ?_⟩
  rw [Reading.run_last]
  exact hlast.closeMany _ _

/-- The lines of a window, by attribute. -/
theorem windowLines_attributes {w : Window} {all : List String} (h : windowLines w = .ok all) :
    ∃ (lines : String → List String) (others : List String),
      all = attributeNames.flatMap lines ++ others ∧
      ∀ key ∈ attributeNames, ∀ text, attributeText w key = .ok text →
        attributeLines w.properties key text = .ok (lines key) := by
  rcases windowLines_iff_parts.mp h with ⟨width, height, visible, title, others, hparts, rfl⟩
  refine ⟨fun key => if key = "width" then width else if key = "height" then height
    else if key = "visible" then visible else title, others, ?_, ?_⟩
  · simp only [attributeNames, List.flatMap_cons, List.flatMap_nil, String.reduceEq, if_true,
      if_false, List.append_nil, List.append_assoc]
  · intro key hkey text htext
    simp only [attributeNames, List.mem_cons, List.not_mem_nil, or_false] at hkey
    rcases hkey with rfl | rfl | rfl | rfl
    all_goals simp only [attributeText, String.reduceEq, if_true, if_false] at htext ⊢
    · rcases hparts.width with ⟨_, hwidth, hlines⟩
      rw [htext] at hwidth
      rwa [← Except.ok.inj hwidth] at hlines
    · rcases hparts.height with ⟨_, hheight, hlines⟩
      rw [htext] at hheight
      rwa [← Except.ok.inj hheight] at hlines
    · rw [← Except.ok.inj htext]
      exact hparts.visible
    · rw [← Except.ok.inj htext]
      exact hparts.title

/-- An attribute is one line if its property is a binding, or if there is none. -/
theorem attributeLines_of_binding {properties : Fields} {key text : String} {bound : Option String}
    (h : properties.get? key = bound.map .raw) :
    attributeLines properties key text = .ok [s!"{indent 1}{key}: {bound.getD text}"] := by
  rw [attributeLines, h]
  cases bound with
  | none => rfl
  | some text =>
      have hline : assignmentText 1 "" key text = s!"{indent 1}{key}: {text}" := by
        simp only [assignmentText, toString, String.append_empty]
      exact (propertyLines_plain rfl rfl).trans (by rw [hline, Option.getD_some])

/-- What is written for the attributes of the window. The lines of an attribute stand behind
    the id of the window, in their place. If no statement makes the attribute a group or an
    object, they are one line with what is decided by all that the text gives it: its last
    value, if that is a binding or no binding comes before it, and else what was decided
    before. -/
theorem attributes_decided (s : Settings) (source : String)
    (hsettings : (Value.int s.width).writable = true ∧ (Value.int s.height).writable = true) :
    ∃ (imports : List String) (lines : String → List String) (others : List String),
      writeDocument (readDocument s source).1 = .ok ("\n".intercalate (imports
        ++ ["", "ApplicationWindow \x7b", s!"{indent 1}id: window"]
        ++ attributeNames.flatMap lines ++ others ++ ["\x7d"]) ++ "\n") ∧
      importsOf (readDocument s source).1.nodes = .ok imports ∧
      ∀ key ∈ attributeNames, (∀ st ∈ statements s source, st.composes key = false) →
        let given := assignments s source key
        lines key = [s!"{indent 1}{key}: {decided (usualText s key) given}"] ∧
        ∀ earlier last, given = earlier ++ [last] → decided (usualText s key) given =
          match last with
          | .binding text => text
          | .literal text =>
            if lastBinding? earlier = none then text else decided (usualText s key) earlier := by
  rcases (readDocument_gained s source).writeDocument_ok hsettings.1 hsettings.2 with ⟨text, htext⟩
  -- The text is taken apart in the order in which it was put together.
  rw [writeDocument_lines] at htext
  rcases ok_of_map htext with ⟨all, hall, rfl⟩
  rcases ok_of_bind hall with ⟨imports, himports, hall⟩
  rcases ok_of_bind hall with ⟨attributes, hattributes, hall⟩
  rcases ok_of_bind hall with ⟨widgets, -, hall⟩
  rcases windowLines_attributes hattributes with ⟨lines, others, rfl, hlines⟩
  refine ⟨imports, lines, others ++ widgets, ?_, himports, fun key hkey hplain => ⟨?_, ?_⟩⟩
  · rw [writeDocument_lines, htext, ← Except.ok.inj hall]
    simp only [List.append_assoc]
  · -- The window holds what the assignments decide, and its line is written from that.
    rcases readDocument_holds hkey hsettings.1 hsettings.2 hplain with ⟨r, hwindow, hholds⟩
    rw [hwindow] at hlines
    have hline := hlines key hkey _ hholds.literal
    rw [attributeLines_of_binding hholds.binding] at hline
    rw [← Except.ok.inj hline, decided]
    cases lastBinding? (assignments s source key) with
    | none => rfl
    | some text => rfl
  · rintro earlier last hgiven
    rw [hgiven]
    cases last with
    | binding text => exact decided_binding _ _ _
    | literal text => exact decided_literal _ _ _

/-- A window whose attributes are given more than once, by literals and bindings. -/
def severalAttributes : String :=
  "Window \x7b width: 1; width: Screen.width; title: 'a'; title: \"b\"; height: 7 \x7d"

/-- The last values are written, and what is usual where there is none. -/
theorem severalAttributes_decided : ∃ (imports : List String) (lines : String → List String)
    (others : List String),
    writeDocument (readDocument {} severalAttributes).1 = .ok ("\n".intercalate (imports
      ++ ["", "ApplicationWindow \x7b", s!"{indent 1}id: window"]
      ++ attributeNames.flatMap lines ++ others ++ ["\x7d"]) ++ "\n") ∧
    attributeNames.flatMap lines = ["    width: Screen.width", "    height: 7",
      "    visible: true", "    title: qsTr(\"b\")"] := by
  have hplain : ∀ key ∈ attributeNames,
      ∀ st ∈ statements {} severalAttributes, st.composes key = false := by
    have hall : attributeNames.all (fun key =>
        (statements {} severalAttributes).all fun st => !st.composes key) = true := by
      decide +kernel
    intro key hkey st hst
    simpa only [Bool.not_eq_true'] using
      List.all_eq_true.mp (List.all_eq_true.mp hall key hkey) st hst
  rcases attributes_decided {} severalAttributes (by decide +kernel) with
    ⟨imports, lines, others, hwrite, -, hlines⟩
  refine ⟨imports, lines, others, hwrite, ?_⟩
  have hwidth := (hlines "width" (by decide) (hplain _ (by decide))).1
  have hheight := (hlines "height" (by decide) (hplain _ (by decide))).1
  have hvisible := (hlines "visible" (by decide) (hplain _ (by decide))).1
  have htitle := (hlines "title" (by decide) (hplain _ (by decide))).1
  simp only [attributeNames, List.flatMap_cons, List.flatMap_nil, hwidth, hheight, hvisible, htitle]
  decide +kernel

/-- A window with a width that is bound and then given. -/
def laterWidth : String :=
  "Window \x7b width: Screen.width; width: 500 \x7d"

/-- The literal comes last, but the binding is written. -/
theorem laterWidth_ignored :
    assignments {} laterWidth "width" = [.binding "Screen.width", .literal "500"] ∧
    (∀ st ∈ statements {} laterWidth, st.composes "width" = false) ∧
    (documentLines (readDocument {} laterWidth).1).toOption = some
      ["import QtQuick 2.15", "import QtQuick.Controls 2.15", "", "ApplicationWindow \x7b",
        "    id: window", "    width: Screen.width", "    height: 600", "    visible: true",
        "    title: qsTr(\"Qt Designer Application\")", "\x7d"] := by
  refine ⟨by decide +kernel, ?_, by decide +kernel⟩
  have hall : (statements {} laterWidth).all (fun st => !st.composes "width") = true := by
    decide +kernel
  intro st hst
  simpa only [Bool.not_eq_true'] using List.all_eq_true.mp hall st hst

end Markup

end WidgetSync
