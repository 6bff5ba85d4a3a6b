import WidgetSync.Proofs.Gained
import WidgetSync.Proofs.Sequence

/-!
# Reading Gathers Only Such Values

What the reader has gathered is well formed at every moment.

The proof follows the reader. `Gathered` says that everything in the window, in
the widgets that are complete and in the blocks that are open is gained. Each thing
that a statement does to a reading keeps this: giving a property a value, opening a
block, handing a widget over, closing a block. So every statement keeps it, and
with it every text.

The tokens that an object keeps reach to the end of the text, and its source text
is found by counting the tokens that are left. That there are at least as many kept
as are left is part of the invariant, and it is why the number of tokens that are
left is a parameter of it.

## Main definitions

* `GainedFrame`: A block that is open.
* `Gathered`: What has been read so far, with some tokens left.

## Theorems

* `Gathered.store`, `Gathered.close`: What happens to blocks.
* `Gathered.step`: A statement keeps the invariant.
* `Gathered.run`: So does a text.
* `readDocument_gained`: A document after reading.
-/

namespace WidgetSync

namespace Markup

/-- The tokens of an object, with at least some more behind its first brace. -/
def KeepsObject (left : Nat) (source : List Token) : Prop :=
  ∃ t u ts, source = t :: u :: ts ∧ Scanned source ∧ t.isCapital = true ∧ u.kind = .opening ∧
    left ≤ ts.length

/-- A block that is open, when some tokens are left. -/
def GainedFrame (left : Nat) : Frame → Prop
  | .window => True
  | .node n => ∀ m ∈ n.depthFirst, GainedNode m
  | .group name fields =>
    isName name.toList = true ∧ isCapitalized name.toList = false ∧ GainedFields (some name) fields
  | .object key type properties _ source =>
    isName key.toList = true ∧ isName type.toList = true ∧ isCapitalized type.toList = true ∧
      GainedFields none properties ∧ KeepsObject left source

/-- What has been read so far is gained, when some tokens are left. -/
structure Gathered (s : Settings) (left : Nat) (r : Reading) : Prop where
  window : GainedWindow s r.window
  roots : ∀ n ∈ Forest.walk r.roots, GainedNode n
  frames : ∀ f ∈ r.frames, GainedFrame left f

theorem GainedFrame.mono {left fewer : Nat} {f : Frame} (h : GainedFrame left f)
    (hle : fewer ≤ left) : GainedFrame fewer f := by
  cases f with
  | object key type properties holds source =>
      obtain ⟨hkey, htype, hcapital, hfields, t, u, ts, rfl, hscanned, ht, hu, hleft⟩ := h
      exact ⟨hkey, htype, hcapital, hfields, t, u, ts, rfl, hscanned, ht, hu,
        Nat.le_trans hle hleft⟩
  | _ => exact h

theorem Gathered.mono {s : Settings} {left fewer : Nat} {r : Reading} (h : Gathered s left r)
    (hle : fewer ≤ left) : Gathered s fewer r :=
  ⟨h.window, h.roots, fun f hf => (h.frames f hf).mono hle⟩

/-- The innermost block may have the value under the name. -/
def Reading.Keeps (r : Reading) (key : String) (v : Value) : Prop :=
  match r.frames with
  | .node _ :: _ => KeptPlace key v
  | .group .. :: _ => True
  | .object .. :: _ => True
  | _ => KeptAttribute key v

theorem keeps_of_not_plain {v : Value} (r : Reading) (key : String) (h : isPlain v = false) :
    r.Keeps key v := by
  have hplace : KeptPlace key v := by
    rintro - s rfl
    exact absurd h (by simp only [isPlain, reduceCtorEq, not_false_eq_true])
  have hattribute : KeptAttribute key v := by
    intro _ hplain
    rw [h] at hplain
    exact absurd hplain (by decide)
  unfold Reading.Keeps
  split
  · exact hplace
  · trivial
  · trivial
  · exact hattribute

-- Source text that does not stand plainly is never compared with anything.
theorem keeps_of_verbatim {text : String} (r : Reading) (key : String)
    (h : startsPlain (scan text.toList).tokens = false) : r.Keeps key (.raw text) := by
  have hnot : ¬SelfDelimiting text.toList := by
    intro hself
    rw [hself.plain] at h
    exact absurd h (by decide)
  have hplace : KeptPlace key (.raw text) := by
    intro _ s hs hself
    rw [← Value.raw.inj hs] at hself
    exact absurd hself hnot
  have hattribute : KeptAttribute key (.raw text) :=
    fun _ _ => ⟨text, rfl, fun hself => absurd hself hnot⟩
  unfold Reading.Keeps
  split
  · exact hplace
  · trivial
  · trivial
  · exact hattribute

theorem keeps_of_unknown {r : Reading} {key : String} (v : Value)
    (hplace : key ∉ Catalog.geometry) (hattribute : key ∉ attributeNames) : r.Keeps key v := by
  unfold Reading.Keeps
  split
  · exact fun hkey => absurd hkey hplace
  · trivial
  · trivial
  · exact fun hkey => absurd hkey hattribute

namespace Gathered

variable {s : Settings} {left : Nat} {r : Reading}

theorem bag (h : Gathered s left r) : GainedFields r.group? r.bag := by
  obtain ⟨window, roots, declared, frames⟩ := r
  rcases frames with _ | ⟨_ | n | ⟨name, fields⟩ | ⟨key, type, properties, holds, source⟩, fs⟩
  · exact h.window.fields
  · exact h.window.fields
  · exact (Node.forall_depthFirst.mp (h.frames _ List.mem_cons_self)).1.fields
  · exact (h.frames _ List.mem_cons_self).2.2
  · exact (h.frames _ List.mem_cons_self).2.2.2.1

/-- The innermost block may be exchanged for another one. -/
theorem exchange {window : Window} {roots : List Node} {declared : Bool} {f g : Frame}
    {fs : List Frame} (h : Gathered s left ⟨window, roots, declared, f :: fs⟩)
    (hg : GainedFrame left g) : Gathered s left ⟨window, roots, declared, g :: fs⟩ := by
  refine ⟨h.window, h.roots, fun k hk => ?_⟩
  rcases List.mem_cons.mp hk with rfl | hk
  · exact hg
  · exact h.frames k (List.mem_cons_of_mem f hk)

/-- A property gets a value. -/
theorem store (h : Gathered s left r) {key : String} {v : Value} (hv : Gained r.group? key v)
    (hkeeps : r.Keeps key v) : Gathered s left (r.store key v) := by
  have hbag := h.bag.set hv
  obtain ⟨window, roots, declared, frames⟩ := r
  -- Outside of all blocks a property is one of the window.
  have hwindow : KeptAttribute key v → GainedFields none (window.properties.set key v) →
      GainedWindow s { window with properties := window.properties.set key v } := by
    intro hkept hfields
    have hold := h.window
    refine ⟨hold.width, hold.height, hold.title, hold.visible, hfields, fun f hf => ?_⟩
    rcases Table.mem_set hf with rfl | hf
    · exact hkept
    · exact hold.places f hf
  rcases frames with _ | ⟨_ | n | ⟨name, fields⟩ | ⟨name, type, properties, holds, source⟩, fs⟩
  · exact ⟨hwindow hkeeps hbag, h.roots, h.frames⟩
  · exact ⟨hwindow hkeeps hbag, h.roots, h.frames⟩
  · obtain ⟨hold, hbelow⟩ := Node.forall_depthFirst.mp (h.frames _ List.mem_cons_self)
    refine h.exchange (Node.forall_depthFirst.mpr ⟨?_, hbelow⟩)
    refine ⟨hold.type, hold.id, hold.x, hold.y, hold.width, hold.height, hbag, fun f hf => ?_⟩
    rcases Table.mem_set hf with rfl | hf
    · exact hkeeps
    · exact hold.bound f hf
  · have hold := h.frames _ List.mem_cons_self
    exact h.exchange ⟨hold.1, hold.2.1, hbag⟩
  · have hold := h.frames _ List.mem_cons_self
    exact h.exchange ⟨hold.1, hold.2.1, hold.2.2.1, hbag, hold.2.2.2.2⟩

/-- A block is opened. -/
theorem push (h : Gathered s left r) {f : Frame} (hf : GainedFrame left f) :
    Gathered s left (r.push f) := by
  refine ⟨h.window, h.roots, fun g hg => ?_⟩
  rcases List.mem_cons.mp hg with rfl | hg
  · exact hf
  · exact h.frames g hg

/-- A complete widget is handed over. -/
theorem adopt (h : Gathered s left r) {n : Node} (hn : ∀ m ∈ n.depthFirst, GainedNode m) :
    Gathered s left (r.adopt n) := by
  obtain ⟨window, roots, declared, frames⟩ := r
  have hroots : ∀ m ∈ Forest.walk (roots ++ [n]), GainedNode m :=
    Forest.forall_walk_concat.mpr ⟨h.roots, hn⟩
  rcases frames with _ | ⟨_ | p | ⟨name, fields⟩ | ⟨name, type, properties, holds, source⟩, fs⟩
  · exact ⟨h.window, hroots, h.frames⟩
  · exact ⟨h.window, hroots, h.frames⟩
  · obtain ⟨hold, hbelow⟩ := Node.forall_depthFirst.mp (h.frames _ List.mem_cons_self)
    refine h.exchange (Node.forall_depthFirst.mpr ⟨?_, Forest.forall_walk_concat.mpr ⟨hbelow, hn⟩⟩)
    exact ⟨hold.type, hold.id, hold.x, hold.y, hold.width, hold.height, hold.fields, hold.bound⟩
  · exact h
  · have hold := h.frames _ List.mem_cons_self
    exact h.exchange hold

/-- A block is closed. -/
theorem close {stopped : Bool} {rest : List Token} (h : Gathered s rest.length r) :
    Gathered s rest.length (r.close stopped rest) := by
  obtain ⟨window, roots, declared, frames⟩ := r
  cases frames with
  | nil => exact h
  | cons f fs =>
      have hf := h.frames f List.mem_cons_self
      have hbelow : Gathered s rest.length ⟨window, roots, declared, fs⟩ :=
        ⟨h.window, h.roots, fun g hg => h.frames g (List.mem_cons_of_mem f hg)⟩
      cases f with
      | window => exact hbelow
      | node n => exact hbelow.adopt hf
      | group name fields =>
          obtain ⟨hname, hcapital, hfields⟩ := hf
          exact hbelow.store (.block hname hcapital hfields.nodup hfields.values)
            (keeps_of_not_plain _ _ rfl)
      | object key type properties holds source =>
          obtain ⟨hkey, htype, hcapital, hfields, t, u, ts, rfl, hscanned, ht, hu, hleft⟩ := hf
          -- There are two values that it may get: its source text and itself.
          have hplain := hscanned.objectText ht hu hleft
          have hraw := hbelow.store (.verbatim hkey hplain) (keeps_of_verbatim _ key hplain)
          have hgained : Gained (Reading.group? ⟨window, roots, declared, fs⟩) key
              (.object (.text type) properties) :=
            .object hkey htype hcapital hfields.nodup hfields.values
          have hobject := hbelow.store hgained (keeps_of_not_plain _ key rfl)
          have hclose : Reading.close ⟨window, roots, declared,
                .object key type properties holds (t :: u :: ts) :: fs⟩ stopped rest
              = Reading.store ⟨window, roots, declared, fs⟩ key
                (if holds && !stopped then .raw (Reading.objectText (t :: u :: ts) rest)
                  else .object (.text type) properties) := rfl
          rw [hclose]
          split
          · exact hraw
          · exact hobject

/-- Blocks are closed at the end of the text. -/
theorem closeMany {stopped : Bool} (h : Gathered s 0 r) (k : Nat) :
    Gathered s 0 (r.closeMany stopped k) := by
  induction k generalizing r with
  | zero => exact h
  | succ k ih =>
      have hend : Gathered s ([] : List Token).length r := h
      exact ih hend.close

/-- The fields of a group that can stand in a block. -/
theorem fields_block (h : Gathered s left r) {name : String}
    (hcapital : isCapitalized name.toList = false) :
    GainedFields (some name) (r.groupFields name) := by
  unfold Reading.groupFields
  split
  · rename_i fields hget
    exact (h.bag.values _ (Table.mem_of_get? hget)).fields_block hcapital
  · exact GainedFields.nil _

/-- The fields of a group that stand behind points. -/
theorem fields_points (h : Gathered s left r) {name : String}
    (hcapital : isCapitalized name.toList = true) : GainedPoints name (r.groupFields name) := by
  unfold Reading.groupFields
  split
  · rename_i fields hget
    exact (h.bag.values _ (Table.mem_of_get? hget)).fields_points hcapital
  · exact ⟨List.nodup_nil, fun f hf => absurd hf List.not_mem_nil⟩

end Gathered

-- An id, a coordinate or a size.
theorem gainedNode_nodeAttribute {n m : Node} {key raw : String} (hn : GainedNode n)
    (hname : isName key.toList = true) (htrimmed : Text.trim raw.toList = raw.toList)
    (h : Reading.nodeAttribute n key raw = .ok (some m)) :
    GainedNode m ∧ m.children = n.children := by
  have heffect := Reading.nodeAttribute_effect n key raw
  rw [h] at heffect
  cases heffect with
  | id given =>
      exact ⟨⟨hn.type, ⟨_, rfl⟩, hn.x, hn.y, hn.width, hn.height, hn.fields, hn.bound⟩, rfl⟩
  | bound hkey hnumber =>
      -- A coordinate that is not a number is kept as source text among the properties.
      have hspelling : Catalog.spelling? key = none := by
        have hall : ∀ k ∈ Catalog.geometry, Catalog.spelling? k = none := by decide
        exact hall key hkey
      have hgained : Gained none key (.raw raw) :=
        .plain hname (geometry_name hkey).2.1 (fun _ => (geometry_name hkey).2.2.1)
          ⟨raw, htrimmed, by rw [hspelling]; rfl⟩
      refine ⟨⟨hn.type, hn.id, hn.x, hn.y, hn.width, hn.height, hn.fields.set hgained,
        fun f hf => ?_⟩, rfl⟩
      rcases Table.mem_set hf with rfl | hf
      · intro _ t ht _
        rw [← Value.raw.inj ht]
        exact hnumber
      · exact hn.bound f hf
  | @number _ v hkey hnumber =>
      have hv := gainedNumber_of_numberLiteral? hnumber
      have hsub := Table.erase_sublist n.properties key
      have hfields := hn.fields.sublist hsub
      have hbound := fun f hf => hn.bound f (hsub.subset hf)
      unfold Reading.setGeometry
      split
      · exact ⟨⟨hn.type, hn.id, hv, hn.y, hn.width, hn.height, hfields, hbound⟩, rfl⟩
      · exact ⟨⟨hn.type, hn.id, hn.x, hv, hn.width, hn.height, hfields, hbound⟩, rfl⟩
      · exact ⟨⟨hn.type, hn.id, hn.x, hn.y, hv, hn.height, hfields, hbound⟩, rfl⟩
      · exact ⟨⟨hn.type, hn.id, hn.x, hn.y, hn.width, hv, hfields, hbound⟩, rfl⟩
      · exact ⟨⟨hn.type, hn.id, hn.x, hn.y, hn.width, hn.height, hfields, hbound⟩, rfl⟩

theorem not_mem_of_nodeAttribute {n : Node} {key raw : String}
    (h : Reading.nodeAttribute n key raw = .ok none) : key ∉ Catalog.geometry := by
  have heffect := Reading.nodeAttribute_effect n key raw
  rw [h] at heffect
  cases heffect with
  | left hkey => exact fun hmem => hkey (List.mem_cons_of_mem _ hmem)

-- An attribute of the window.
theorem gainedWindow_windowAttribute {s : Settings} {w u : Window} {key raw : String}
    (hw : GainedWindow s w) (h : Reading.windowAttribute w key raw = .ok (some u)) :
    GainedWindow s u := by
  have heffect := Reading.windowAttribute_effect w key raw
  rw [h] at heffect
  cases heffect with
  | id => exact hw
  | width hnumber =>
      exact ⟨.inr (gainedNumber_of_numberLiteral? hnumber), hw.height, hw.title, hw.visible,
        hw.fields, hw.places⟩
  | height hnumber =>
      exact ⟨hw.width, .inr (gainedNumber_of_numberLiteral? hnumber), hw.title, hw.visible,
        hw.fields, hw.places⟩
  | title => exact ⟨hw.width, hw.height, ⟨_, rfl⟩, hw.visible, hw.fields, hw.places⟩
  | visible => exact ⟨hw.width, hw.height, hw.title, ⟨_, rfl⟩, hw.fields, hw.places⟩

-- Source text that is not for an attribute stays source text under its name.
theorem keptAttribute_of_windowAttribute {w : Window} {key raw : String} {v : Value}
    (h : Reading.windowAttribute w key raw = .ok none)
    (hv : valueOf raw (Catalog.spelling? key) = .ok v) : KeptAttribute key v := by
  intro hkey _
  have heffect := Reading.windowAttribute_effect w key raw
  rw [h] at heffect
  cases heffect with
  | left htakes =>
      refine ⟨raw, ?_, fun _ => htakes⟩
      rcases valueOf_cases hv with hraw | ⟨spelling, hspelling, hliteral⟩
      · exact hraw
      -- A literal would have been for the attribute.
      simp only [attributeNames, List.mem_cons, List.not_mem_nil, or_false] at hkey
      rcases hkey with rfl | rfl | rfl | rfl
      · rw [show Catalog.spelling? "width" = none by decide] at hspelling
        exact absurd hspelling (by simp only [reduceCtorEq, not_false_eq_true])
      · rw [show Catalog.spelling? "height" = none by decide] at hspelling
        exact absurd hspelling (by simp only [reduceCtorEq, not_false_eq_true])
      · rw [show Catalog.spelling? "visible" = some ⟨.bool, none⟩ by decide,
          Option.some.injEq] at hspelling
        subst hspelling
        cases hliteral with
        | @bool _ b htext =>
            cases b with
            | false => simp [Reading.windowTakes, htext] at htakes
            | true => simp [Reading.windowTakes, htext] at htakes
        | text hkind => exact absurd hkind (by decide)
      · rw [show Catalog.spelling? "title" = some ⟨.text, none⟩ by decide,
          Option.some.injEq] at hspelling
        subst hspelling
        cases hliteral with
        | text _ htext => simp [Reading.windowTakes, htext] at htakes

/-- What a statement leads to is gathered, when some tokens are left behind its first. -/
def Step.Gathers (s : Settings) (left : Nat) : Step → Prop
  | .next r used _ => Gathered s (left - used) r
  | .stop r => Gathered s 0 r

namespace Gathered

variable {s : Settings} {left : Nat} {r : Reading}

theorem next (h : Gathered s left r) (used : Nat) (remarks : List Remark) :
    (Step.next r used remarks).Gathers s left :=
  h.mono (Nat.sub_le left used)

theorem stop (h : Gathered s left r) : (Step.stop r).Gathers s left :=
  h.mono (Nat.zero_le left)

theorem given {value : Except Fault Value} {keep : Value → Reading} (h : Gathered s left r)
    (hkeep : ∀ v, value = .ok v → Gathered s left (keep v)) (used : Nat) :
    (Step.given value r used keep).Gathers s left := by
  cases value with
  | error e => exact h.stop
  | ok v => exact (hkeep v rfl).next used []

/-- Fields behind points go to their group. -/
theorem dotted (h : Gathered s left r) (hgroup : r.group? = none) {key head field raw : String}
    (hname : isName key.toList = true) (hhandler : Catalog.isHandlerName key = false)
    (htrimmed : Text.trim raw.toList = raw.toList)
    (hsplit : Reading.splitName? key = some (head, field)) (used : Nat) :
    (Step.given (valueOf raw (Catalog.spelling? field (some head)))
      (r.store head (.group (r.groupFields head))) used
      (fun v => r.store head (.group ((r.groupFields head).set field v)))).Gathers s left := by
  rcases splitName?_spec hname hsplit with ⟨rfl, hpoint, hhead, hfield⟩
  have hgiven : ∀ v, valueOf raw (Catalog.spelling? field (some head)) = .ok v →
      Given (some head) field v := fun v hv => ⟨raw, htrimmed, hv⟩
  -- A group of a type is written field by field, any other one as a block.
  cases hcapital : isCapitalized head.toList with
  | true =>
      have hfields := h.fields_points hcapital
      have hstore : ∀ {fields : Fields}, GainedPoints head fields →
          Gathered s left (r.store head (.group fields)) := fun hall =>
        h.store (by rw [hgroup]; exact .points hhead hcapital hpoint hall)
          (keeps_of_not_plain r head rfl)
      refine given (hstore hfields) (fun v hv => hstore ?_) used
      refine ⟨Table.nodup_set hfields.nodup field v, fun f hf => ?_⟩
      rcases Table.mem_set hf with rfl | hf
      · exact ⟨hname, hhandler, hgiven v hv⟩
      · exact hfields.values f hf
  | false =>
      have hfields := h.fields_block hcapital
      have hstore : ∀ {fields : Fields}, GainedFields (some head) fields →
          Gathered s left (r.store head (.group fields)) := fun hall =>
        h.store (.block hhead hcapital hall.nodup hall.values) (keeps_of_not_plain r head rfl)
      refine given (hstore hfields) (fun v hv => hstore (hfields.set ?_)) used
      rw [isHandlerName_pointed] at hhandler
      exact .plain hfield hhandler (fun hnone => absurd hnone (Option.some_ne_none head))
        (hgiven v hv)

/-- A value that a widget or the window has taken. -/
theorem absorbed (h : Gathered s left r) {u : Reading} {key raw : String}
    (hname : isName key.toList = true) (htrimmed : Text.trim raw.toList = raw.toList)
    (habsorb : r.absorb key raw = .ok (some u)) : Gathered s left u := by
  rcases Reading.absorb_some habsorb with
    ⟨n, m, fs, hframes, hattribute, rfl⟩ | ⟨fs, w, hframes, hattribute, rfl⟩
  · have hframe := h.frames _ (by rw [hframes]; exact List.mem_cons_self)
    have hn := Node.forall_depthFirst.mp hframe
    rcases gainedNode_nodeAttribute hn.1 hname htrimmed hattribute with ⟨hm, hchildren⟩
    have hbase : Gathered s left { r with frames := .node n :: fs } :=
      ⟨h.window, h.roots, hframes ▸ h.frames⟩
    refine hbase.exchange (Node.forall_depthFirst.mpr ⟨hm, ?_⟩)
    rw [hchildren]
    exact hn.2
  · exact ⟨gainedWindow_windowAttribute h.window hattribute, h.roots, h.frames⟩

/-- A value that is left to the properties. -/
theorem keeps_of_absorb (hframes : r.frames ≠ []) {key raw : String} {v : Value}
    (habsorb : r.absorb key raw = .ok none)
    (hv : valueOf raw (Catalog.spelling? key r.group?) = .ok v) : r.Keeps key v := by
  rcases Reading.absorb_none habsorb with ⟨hnode, hwindow⟩
  obtain ⟨window, roots, declared, frames⟩ := r
  rcases frames with _ | ⟨f, fs⟩
  · exact absurd rfl hframes
  · cases f with
    | window => exact keptAttribute_of_windowAttribute (hwindow fs rfl) hv
    | node n => exact fun hkey => absurd hkey (not_mem_of_nodeAttribute (hnode n fs rfl))
    | group name fields => trivial
    | object name type properties holds source => trivial

/-- A literal or binding. -/
theorem assign (h : Gathered s left r) (hframes : r.frames ≠ []) {key raw : String}
    (hname : isName key.toList = true) (hhandler : Catalog.isHandlerName key = false)
    (htrimmed : Text.trim raw.toList = raw.toList) (used : Nat) :
    (r.assign key raw used).Gathers s left := by
  rcases Reading.pointed_cases r key with ⟨head, field, hgroup, hsplit⟩ | hpoints
  · rw [Reading.assign_pointed hgroup hsplit]
    exact h.dotted hgroup hname hhandler htrimmed hsplit used
  · rw [Reading.assign_unpointed hpoints]
    rcases habsorb : r.absorb key raw with fault | _ | u
    · exact h.stop
    · exact given h (fun v hv => h.store (.plain hname hhandler hpoints ⟨raw, htrimmed, hv⟩)
        (keeps_of_absorb hframes habsorb hv)) used
    · exact (h.absorbed hname htrimmed habsorb).next used []

end Gathered

theorem trim_trim (cs : List Char) : Text.trim (Text.trim cs) = Text.trim cs := by
  refine Text.trim_eq_self (fun c hc => ?_) ?_
  -- Trimming the end leaves a part of what trimming the start left, up to its first character.
  · have hstart := List.head?_dropWhile_not Text.isBlank cs
    have hprefix : Text.trim cs <+: Text.trimStart cs := by
      rw [Text.trim, Text.trimEnd, ← List.reverse_suffix, List.reverse_reverse]
      exact List.dropWhile_suffix _
    rcases hprefix with ⟨rest, hrest⟩
    cases htrim : Text.trim cs with
    | nil =>
        rw [htrim] at hc
        exact absurd hc (by simp only [List.head?_nil, Option.mem_def, reduceCtorEq,
          not_false_eq_true])
    | cons d ds =>
        rw [htrim, List.head?_cons, Option.mem_some_iff] at hc
        subst hc
        rw [htrim, List.cons_append, Text.trimStart] at hrest
        rw [← hrest, List.head?_cons] at hstart
        simpa only [Bool.not_eq_true'] using hstart
  · exact Text.trimEnd_eq_self_iff.mp (Text.trimEnd_trimEnd _)

theorem valueText_trimmed (ts : List Token) :
    Text.trim (valueText ts).toList = (valueText ts).toList := by
  rw [valueText, String.toList_ofList, trim_trim]

theorem gainedNumber_of_lt {n : Int} (h : n.natAbs < 10000) : GainedNumber (.int n) := by
  refine .int ((integer_writable_iff n).mpr ?_)
  have hlength := (Nat.length_toDigits_le_iff (b := 10) (by omega) (by omega : 0 < 4)).mpr h
  exact Nat.le_trans hlength (by decide)

/-- The usual sizes are short. -/
theorem gainedNumber_defaultSize (type : String) :
    GainedNumber (.int (Catalog.defaultSize type).1) ∧
      GainedNumber (.int (Catalog.defaultSize type).2) := by
  have hsizes : Catalog.defaultSizes.all
      (fun e => e.2.1.natAbs < 10000 && e.2.2.natAbs < 10000) = true := by decide
  have hsize : (Catalog.defaultSize type).1.natAbs < 10000 ∧
      (Catalog.defaultSize type).2.natAbs < 10000 := by
    unfold Catalog.defaultSize
    cases hget : Catalog.defaultSizes.get? type with
    | none => decide
    | some size =>
        have hall := List.all_eq_true.mp hsizes _ (Table.mem_of_get? hget)
        rw [Option.getD_some]
        simpa only [Bool.and_eq_true, decide_eq_true_eq] using hall
  exact ⟨gainedNumber_of_lt hsize.1, gainedNumber_of_lt hsize.2⟩

theorem gainedNode_ofType {type : String} (h : isName type.toList = true) :
    GainedNode (Node.ofType type) := by
  have hzero : GainedNumber (.int 0) := gainedNumber_of_lt (by decide)
  have hsize := gainedNumber_defaultSize type
  exact ⟨⟨type, rfl, h⟩, ⟨"", rfl⟩, hzero, hzero, hsize.1, hsize.2, GainedFields.nil none,
    fun f hf => absurd hf List.not_mem_nil⟩

theorem gainedFrame_ofType {left : Nat} {type : String} (h : isName type.toList = true) :
    GainedFrame left (.node (Node.ofType type)) :=
  Node.forall_depthFirst.mpr ⟨gainedNode_ofType h, fun _ hm => absurd hm List.not_mem_nil⟩

-- A declared name has spaces in it.
theorem Declared.space {key : String} {words : List String} (h : Declared key words) :
    ' ' ∈ key.toList := by
  obtain ⟨-, hseveral, -, rfl⟩ := h
  exact space_mem_intercalate hseveral

theorem Declared.not_mem {key : String} {words : List String} (h : Declared key words) :
    key ∉ Catalog.geometry ∧ key ∉ attributeNames := by
  have hspace := h.space
  have hall : ∀ k ∈ Catalog.geometry ++ attributeNames, ' ' ∉ k.toList := by decide
  exact ⟨fun hmem => hall key (List.mem_append_left _ hmem) hspace,
    fun hmem => hall key (List.mem_append_right _ hmem) hspace⟩

namespace Gathered

variable {s : Settings} {left : Nat} {r : Reading}

/-- A value that is neither a block nor an object. -/
theorem valued (h : Gathered s left r) (hframes : r.frames ≠ []) {key : String}
    (hname : isName key.toList = true) (ts : List Token) (used : Nat) :
    (r.valued key (valueText ts) used).Gathers s left := by
  unfold Reading.valued
  split
  · exact h.next used _
  · rename_i hempty
    have hne : (valueText ts).toList ≠ [] := by
      rwa [ne_eq, String.toList_eq_nil_iff, ← String.isEmpty_iff]
    split
    · rename_i hhandler
      refine (h.store (.handler hname hhandler (.plain (valueText_trimmed ts) hne)) ?_).next used _
      exact keeps_of_not_plain r key rfl
    · rename_i hhandler
      exact h.assign hframes hname (Bool.eq_false_iff.mpr hhandler) (valueText_trimmed ts) used

theorem braced (h : Gathered s left r) {key : String} (hname : isName key.toList = true)
    (inner : List Char) : Gathered s left (r.store key (bracedValue key inner)) := by
  unfold bracedValue
  by_cases hhandler : Catalog.isHandlerName key = true
  · rw [if_pos hhandler]
    exact h.store (.handler hname hhandler (.braces inner)) (keeps_of_not_plain r key rfl)
  · rw [if_neg hhandler]
    have hplain : startsPlain (scan (WidgetSync.braced (String.ofList inner)).toList).tokens
        = false := by
      have hlexeme : lexeme '\x7b' ((String.ofList inner).toList ++ ['\x7d'])
          = (.token .opening, 0) :=
        lexeme_mark _ rfl
      rw [braced_toList, scan, scanFrom, hlexeme]
      rfl
    exact h.store (.verbatim hname hplain) (keeps_of_verbatim r key hplain)

/-- A property, behind its colon. -/
theorem property {key : String} {ts : List Token} (h : Gathered s (ts.length + 1) r)
    (hframes : r.frames ≠ []) (hscanned : Scanned ts) (hname : isName key.toList = true)
    (tail : List Char) : (r.property tail key ts).Gathers s (ts.length + 1) := by
  cases ts using Reading.value_cases with
  | missing => exact h.next 1 []
  | unclosed v vs hopens hblock =>
      rw [Reading.property_open r tail key hopens hblock]
      exact (h.braced hname _).next _ _
  | block v vs n hopens hblock =>
      rw [Reading.property_block r tail key hopens hblock]
      exact (h.braced hname _).next _ _
  | object v vs hopens hobject =>
      rw [Reading.property_object r tail key hopens hobject]
      rw [Bool.and_eq_true] at hobject
      cases vs with
      | nil => exact absurd hobject.2 (by simp only [starts, Bool.false_eq_true,
          not_false_eq_true])
      | cons u us =>
          have hcapital := hobject.1
          rw [Token.isCapital, Bool.and_eq_true, beq_iff_eq] at hcapital
          have htype : v.text.toList = v.body := by
            rw [Token.text, if_neg (by rw [hcapital.1]; decide), String.toList_ofList]
          refine (h.mono (Nat.sub_le _ 3)).push ⟨hname, ?_, ?_, GainedFields.nil none, v, u, us,
            rfl, hscanned, hobject.1, beq_iff_eq.mp hobject.2, ?_⟩
          · rw [htype]
            exact hscanned.name hcapital.1
          · rw [htype]
            exact hcapital.2
          · simp only [List.length_cons]
            omega
  | plain v vs hopens hobject =>
      rw [Reading.property_value r tail key hopens hobject]
      exact h.valued hframes hname _ _

end Gathered

namespace Gathered

variable {s : Settings} {left : Nat} {r : Reading}

/-- A declaration. -/
theorem declaration {t : Token} {ts : List Token} (h : Gathered s left r)
    (hscanned : Scanned (t :: ts))
    (hdeclares : declarationWords.contains t.text = true) :
    (r.declaration (t :: ts)).Gathers s left := by
  rcases names_split (t :: ts) with hall | ⟨words, c, cs, hsplit, hwords, hc⟩
  · rw [Reading.declaration_names r hall]
    exact h.next _ _
  · have hfirst : ∀ w ∈ (words.map Token.text).head?, declarationWords.contains w = true := by
      intro w hw
      cases words with
      | nil => exact absurd hw (by simp only [List.map_nil, List.head?_nil, Option.mem_def,
          reduceCtorEq, not_false_eq_true])
      | cons u us =>
          rw [List.map_cons, List.head?_cons, Option.mem_some_iff] at hw
          rw [← hw, ← (List.cons.inj hsplit).1]
          exact hdeclares
    have hnames : ∀ w ∈ words.map Token.text, isName w.toList = true := by
      intro w hw
      rcases List.mem_map.mp hw with ⟨u, hu, rfl⟩
      rw [Token.text, if_neg (by rw [hwords u hu]; decide), String.toList_ofList]
      exact hscanned.names u (by rw [hsplit]; exact List.mem_append_left _ hu) (hwords u hu)
    rw [hsplit, Reading.declaration_split r cs hwords hc]
    by_cases hcolon : c.kind = .colon ∧ 2 ≤ words.length
    · rw [if_pos hcolon]
      have hkey : Declared (" ".intercalate (words.map Token.text)) (words.map Token.text) :=
        ⟨hnames, by rw [List.length_map]; exact hcolon.2, hfirst, rfl⟩
      unfold Reading.declaredValue
      split
      · exact h.next _ _
      · exact (h.store (.declaration hkey)
          (keeps_of_unknown _ hkey.not_mem.1 hkey.not_mem.2)).next _ _
    · rw [if_neg hcolon]
      exact h.next _ _

/-- A statement inside a block. -/
theorem member {t : Token} {ts : List Token} (h : Gathered s (ts.length + 1) r)
    (hframes : r.frames ≠ []) (hscanned : Scanned (t :: ts)) (tail : List Char) :
    (r.member tail t ts).Gathers s ts.length := by
  have hrest : Gathered s ts.length r := h.mono (Nat.le_succ _)
  have htext : t.kind = .name → isName t.text.toList = true := by
    intro hname
    rw [Token.text, if_neg (by rw [hname]; decide), String.toList_ofList]
    exact hscanned.name hname
  rcases hasForm t ts with ⟨form, hform⟩
  rw [hform.member]
  cases hform with
  | closing => exact hrest.close.next 0 []
  | ending => exact hrest.next 0 []
  | nameless => exact hrest.next _ _
  | widget hname =>
      exact (hrest.push (f := .node (Node.ofType t.text))
        (gainedFrame_ofType (htext hname))).next 1 []
  | group hname _ hcapital =>
      have hlower : isCapitalized t.text.toList = false := by
        rw [Token.isCapital, hname, beq_self_eq_true, Bool.true_and] at hcapital
        rwa [Token.text, if_neg (by rw [hname]; decide), String.toList_ofList]
      refine (hrest.push (f := .group t.text (r.groupFields t.text)) ?_).next 1 []
      exact ⟨htext hname, hlower, hrest.fields_block hlower⟩
  | value hname hcolon =>
      cases ts with
      | nil => exact absurd hcolon (by decide)
      | cons c cs => exact property hrest hframes hscanned.tail.tail (htext hname) tail
  | declaration _ _ _ hdeclares => exact hrest.declaration hscanned hdeclares
  | unused => exact hrest.next _ _

/-- A statement outside of all blocks. -/
theorem topLevel {t : Token} {ts : List Token} (h : Gathered s (ts.length + 1) r)
    (hscanned : Scanned (t :: ts)) : (r.topLevel t ts).Gathers s ts.length := by
  have hrest : Gathered s ts.length r := h.mono (Nat.le_succ _)
  unfold Reading.topLevel
  split
  · exact hrest.next 0 []
  · split
    · exact hrest.next _ []
    · split
      · rename_i hopens
        have htext : isName t.text.toList = true := by
          rw [Token.text, if_neg (by rw [hopens.1]; decide), String.toList_ofList]
          exact hscanned.name hopens.1
        have hdeclared : Gathered s ts.length { r with declared := true } :=
          ⟨hrest.window, hrest.roots, hrest.frames⟩
        refine next (push hdeclared ?_) 1 []
        split
        · trivial
        · exact gainedFrame_ofType htext
      · split
        · exact hrest.next _ _
        · exact hrest.next _ _

/-- A statement keeps the invariant. -/
theorem step {t : Token} {ts : List Token} (h : Gathered s (ts.length + 1) r)
    (hscanned : Scanned (t :: ts)) (tail : List Char) :
    (r.step tail t ts).Gathers s ts.length := by
  unfold Reading.step
  split
  · exact h.topLevel hscanned
  · rename_i hopen
    refine h.member (fun hnil => hopen ?_) hscanned tail
    rw [hnil]
    rfl

/-- Everything that is read is gained. -/
theorem run {ts : List Token} (h : Gathered s ts.length r) (hscanned : Scanned ts)
    (tail : List Char) : Gathered s 0 (r.run tail ts).reading := by
  induction r, ts using Reading.run_induction tail with
  | finished r =>
      rw [Reading.run]
      exact h.closeMany _
  | stopped r t ts q hstop =>
      have hstep := h.step hscanned tail
      rw [hstop] at hstep
      rw [Reading.run, hstop]
      exact closeMany hstep _
  | next r t ts q used remarks hnext ih =>
      have hstep := h.step hscanned tail
      rw [hnext, Step.Gathers, ← List.length_drop] at hstep
      rw [Reading.run, hnext]
      exact ih hstep (hscanned.tail.drop used)

end Gathered

/-- A document after reading. -/
structure GainedDocument (s : Settings) (d : Document) : Prop where
  window : GainedWindow s d.window
  nodes : ∀ n ∈ Forest.walk d.nodes, GainedNode n
  ids : Forest.WellNamed d.nodes

/-- Whatever the text, its document is gained. -/
theorem readDocument_gained (s : Settings) (source : String) :
    GainedDocument s (readDocument s source).1 := by
  have hwindow : GainedWindow s (.usual s) :=
    ⟨.inl rfl, .inl rfl, ⟨_, rfl⟩, ⟨_, rfl⟩, GainedFields.nil none,
      fun f hf => absurd hf List.not_mem_nil⟩
  have hstart : Gathered s (scan source.toList).tokens.length { window := .usual s } :=
    ⟨hwindow, fun n hn => absurd hn List.not_mem_nil, fun f hf => absurd hf List.not_mem_nil⟩
  have hend := hstart.run ⟨source.toList, rfl⟩ (scan source.toList).tail
  generalize hr : (Reading.run { window := .usual s } (scan source.toList).tail
    (scan source.toList).tokens).reading = r at hend
  have hdocument : (readDocument s source).1 = ⟨r.window, (Forest.assignIds r.roots).nodes⟩ := by
    rw [← hr]
    rfl
  have hnamed := (Forest.assignIds_wellNamed (fun n hn => (hend.roots n hn).id)
    fun n hn => by
      rcases (hend.roots n hn).type with ⟨t, ht, -⟩
      exact ⟨t, ht⟩).2
  rw [hdocument]
  refine ⟨hend.window, fun n hn => ?_, hnamed⟩
  -- Giving ids changes nothing in a widget but its id.
  have hshells : (Forest.walk (Forest.assignIds r.roots).nodes).map Node.shell
      = (Forest.walk r.roots).map Node.shell :=
    (Forest.relabel_shells Forest.nameChoice _ _).trans
      (Forest.relabel_shells Forest.settleChoice _ _)
  have hmem : n.shell ∈ (Forest.walk r.roots).map Node.shell := by
    rw [← hshells]
    exact List.mem_map_of_mem hn
  rcases List.mem_map.mp hmem with ⟨m, hm, hshell⟩
  have hold := hend.roots m hm
  simp only [Node.shell, Prod.mk.injEq] at hshell
  obtain ⟨htype, ⟨hx, hy, hwidth, hheight⟩, hproperties⟩ := hshell
  have hid : ∃ name, n.id = .text name := by
    rcases hnamed with ⟨names, hnames, -⟩
    have hin : n.id ∈ names.map Value.text := by
      rw [← hnames]
      exact List.mem_map_of_mem hn
    rcases List.mem_map.mp hin with ⟨name, -, hname⟩
    exact ⟨name, hname.symm⟩
  exact ⟨htype ▸ hold.type, hid, hx ▸ hold.x, hy ▸ hold.y, hwidth ▸ hold.width,
    hheight ▸ hold.height, hproperties ▸ hold.fields, hproperties ▸ hold.bound⟩

end Markup

end WidgetSync
