import WidgetSync.Proofs.Formed
import WidgetSync.Proofs.Telling

/-!
# Opaque Source Text

Bindings and handlers that are written and read without being understood.

The value of a property can be source text of any sort: an expression, a function over
several lines, a literal of an unknown kind. Nobody reads what it says. All that is asked
of it is that it stands alone: cut into tokens in front of a line end it gives the tokens
that it gives by itself, it starts and ends with one of them, brackets are closed in it,
nothing outside of brackets ends a value, and it starts neither a block nor an object.
Such text is found again, character by character, under any name that has no use of its
own for it. The same holds of the code of a handler on one line.

What is said of tokens here is the condition of `SelfDelimiting`; that what is skipped at
the end of a text agrees too follows, since tokens and gaps together are the text.

## Main definitions

* `StandsAlone`: A text whose tokens do not depend on what surrounds it.
* `Opaque`: A property that holds source text or the code of a handler.

## Theorems

* `standsAlone_iff`: Texts that stand alone are the self-delimiting ones.
* `opaque_carried`: Opaque properties survive writing and reading.
* `writeDocument_readDocument_opaque`: So do the widgets that have them.
-/

namespace WidgetSync

namespace Markup

/-- A text whose tokens do not depend on what surrounds it. -/
structure StandsAlone (r : List Char) : Prop where
  /-- In front of a line end it gives its own tokens, and the text behind gives its own. -/
  cut : ∀ k, (scan (r ++ '\n' :: k)).tokens
    = (scan r).tokens ++ lineEnd :: (scan k).tokens
  nonempty : r ≠ []
  /-- There are no blanks around it. -/
  trimmed : Text.trim r = r
  /-- It starts and ends with a token. -/
  covers : covered (scan r).tokens = r
  /-- Nothing outside of brackets ends a value, and brackets are closed. -/
  balanced : depthAfter 0 (scan r).tokens = some 0
  /-- It starts neither a block nor an object. -/
  plain : startsPlain (scan r).tokens = true

/-- Texts that stand alone are the self-delimiting ones. -/
theorem standsAlone_iff {r : List Char} : StandsAlone r ↔ SelfDelimiting r := by
  constructor
  · intro h
    have htail : withGaps (scan r).tokens = r := by
      -- The tokens cover the text, so nothing is skipped before or behind them.
      have hall := withGaps_scan r
      have hcovers := h.covers
      cases htokens : (scan r).tokens with
      | nil =>
          rw [htokens, covered] at hcovers
          exact absurd hcovers.symm h.nonempty
      | cons t ts =>
          rw [htokens, withGaps, List.flatMap_cons] at hall
          rw [htokens, covered, withGaps] at hcovers
          have hlength := congrArg List.length (hall.trans hcovers.symm)
          simp only [List.length_append] at hlength
          have hgap : t.gap = [] := List.length_eq_zero_iff.mp (by omega)
          rw [withGaps, List.flatMap_cons, hgap, List.nil_append, hcovers]
    refine ⟨⟨fun rest => ?_, h.covers, fun hnil => ?_, h.trimmed, h.balanced⟩, h.plain⟩
    · -- What is skipped at the end is what the tokens leave of the text.
      have hwhole := withGaps_scan (r ++ '\n' :: rest)
      rw [h.cut rest, withGaps, List.flatMap_append, List.flatMap_cons, ← withGaps, ← withGaps,
        htail, List.append_assoc, List.append_cancel_left_eq] at hwhole
      have hline : lineEnd.gap ++ lineEnd.body = ['\n'] := rfl
      rw [hline, List.append_assoc, List.singleton_append, List.cons.injEq] at hwhole
      have hskipped := List.append_cancel_left (hwhole.2.trans (withGaps_scan rest).symm)
      have hscan : scan (r ++ '\n' :: rest)
          = ⟨(scan (r ++ '\n' :: rest)).tokens, (scan (r ++ '\n' :: rest)).tail⟩ := rfl
      rw [List.append_assoc, List.singleton_append, hscan, h.cut rest, hskipped, Scan.after,
        List.append_assoc, List.singleton_append]
    · have hcovers := h.covers
      rw [hnil, covered] at hcovers
      exact h.nonempty hcovers.symm
  · intro h
    refine ⟨fun k => ?_, h.toDelimited.ne_nil, h.trimmed, h.covers, h.balanced, h.plain⟩
    have hlexes := h.lexes k
    rw [List.append_assoc, List.singleton_append] at hlexes
    rw [hlexes, Scan.after, List.append_assoc, List.singleton_append]

/-- A property that holds source text, or the code of a handler on one line. -/
inductive Opaque : String → Value → Prop where
  /-- Source text under a name for which it is no literal. -/
  | source {key text : String} (hname : isName key.toList = true) (hpoint : '.' ∉ key.toList)
      (hfree : key ∉ "id" :: Catalog.geometry) (hhandler : Catalog.isHandlerName key = false)
      (hraw : valueOf text (Catalog.spelling? key) = .ok (.raw text))
      (h : StandsAlone text.toList) : Opaque key (.raw text)
  /-- The code of a handler, whose name may have points. -/
  | handler {key code : String} (hname : isName key.toList = true)
      (hhandler : Catalog.isHandlerName key = true) (hline : '\n' ∉ code.toList)
      (hsemicolon : ';' ∉ code.toList) (h : StandsAlone code.toList) :
      Opaque key (.handler (.text code) (.bool false))

theorem Opaque.legible {key : String} {v : Value} (h : Opaque key v) : Legible none key v := by
  cases h with
  | source hname hpoint hfree hhandler hraw h =>
      refine .plain hname hhandler (fun _ => Reading.splitName?_eq_none hpoint) ⟨_, ?_,
        standsAlone_iff.mp h, hraw⟩
      unfold scalar
      rfl
  | handler hname hhandler hline hsemicolon h =>
      exact .handler hname hhandler (.plain hline hsemicolon (standsAlone_iff.mp h))

/-- Opaque properties survive writing and reading. -/
theorem opaque_carried : Carried Opaque where
  free := fun h => by
    cases h with
    | source hname hpoint hfree => exact hfree
    | handler hname hhandler =>
        have hall : ∀ key ∈ "id" :: Catalog.geometry, Catalog.isHandlerName key = false := by
          decide
        exact fun hmem => absurd ((hall _ hmem).symm.trans hhandler) Bool.false_ne_true
  legible := fun h _ => h.legible
  writable := fun h _ _ _ _ => by cases h <;> rfl
  objects := fun h => by cases h

/-- Source text and code survive writing and reading, character by character. Widgets with
    such properties can be written in the usual window just if their coordinates and sizes
    and those of the window are short enough, and reading the text gives the same widgets. -/
theorem writeDocument_readDocument_opaque (s s' : Settings) (nodes : Forest)
    (h : ∀ n ∈ Forest.walk nodes, FormedNode Opaque n)
    (hdistinct : ((Forest.walk nodes).map (·.id)).Nodup) :
    ((∃ text, writeDocument ⟨.usual s, nodes⟩ = .ok text) ↔
      Document.fits ⟨.usual s, nodes⟩ = true) ∧
    ∀ text, writeDocument ⟨.usual s, nodes⟩ = .ok text →
      (readDocument s' text).1 = ⟨.usual s, nodes⟩ := by
  have hformed : FormedDocument Opaque ⟨.usual s, nodes⟩ :=
    ⟨⟨⟨_, rfl⟩, ⟨_, rfl⟩, ⟨_, rfl⟩, ⟨_, rfl⟩, List.nodup_nil,
      fun f hf => absurd hf List.not_mem_nil⟩, h, hdistinct⟩
  exact hformed.undone opaque_carried s'

/-- A widget with a function over several lines, in which a comment and a text hold braces, an
    expression for which the catalog expects a text, and two handlers. -/
def sampleView : Node where
  type := .text "Views.List"
  id := .text "view"
  x := .int (-3)
  y := .int 0
  width := .int 10
  height := .int 20
  properties :=
    [("model", .raw "function (a) \x7b\n  // no end \x7d\n  return [a, \"\x7d\"]\n\x7d"),
     ("text", .raw "qsTr(\"a\") + /* b */ c"),
     ("Component.onCompleted", .handler (.text "run(\x7b a: [1] \x7d)") (.bool false)),
     ("onMoved", .handler (.text "x > 0 ? go() : stop()") (.bool false))]

theorem sampleView_opaque : FormedNode Opaque sampleView := by
  have halone : ∀ {text : String}, isSelfDelimiting text.toList = true → StandsAlone text.toList :=
    fun h => standsAlone_iff.mpr (selfDelimiting_of_isSelfDelimiting h)
  refine ⟨⟨_, rfl, by decide +kernel, by decide +kernel⟩, ⟨_, rfl, by decide⟩, ⟨_, rfl⟩, ⟨_, rfl⟩,
    ⟨_, rfl⟩, ⟨_, rfl⟩, by decide, fun f hf => ?_⟩
  simp only [sampleView, List.mem_cons, List.not_mem_nil, or_false] at hf
  rcases hf with rfl | rfl | rfl | rfl
  · exact .source (by decide +kernel) (by decide) (by decide) (by decide) rfl
      (halone (by decide +kernel))
  · refine .source (by decide +kernel) (by decide) (by decide) (by decide) ?_
      (halone (by decide +kernel))
    -- The catalog lists the name for texts, and the expression is no quoted text.
    have hno : stringLiteral? "qsTr(\"a\") + /* b */ c" = none := by decide +kernel
    have hkind : Catalog.spelling? "text" = some ⟨.text, none⟩ := by decide +kernel
    simp only [hkind, valueOf, hno, Option.map_none, Option.getD_none]
  · exact .handler (by decide +kernel) (by decide) (by decide) (by decide)
      (halone (by decide +kernel))
  · exact .handler (by decide +kernel) (by decide) (by decide) (by decide)
      (halone (by decide +kernel))

/-- The sample is written and found again. -/
theorem sampleView_restored :
    (∀ n ∈ Forest.walk [sampleView], FormedNode Opaque n) ∧
    ((Forest.walk [sampleView]).map (·.id)).Nodup ∧
    ∃ text, writeDocument ⟨.usual {}, [sampleView]⟩ = .ok text ∧
      (readDocument {} text).1 = ⟨.usual {}, [sampleView]⟩ := by
  have hall : ∀ n ∈ Forest.walk [sampleView], FormedNode Opaque n := by
    intro n hn
    simp only [sampleView, Forest.walk, Node.depthFirst, List.append_nil, List.mem_singleton]
      at hn
    rw [hn]
    exact sampleView_opaque
  have hdistinct : ((Forest.walk [sampleView]).map (·.id)).Nodup := List.nodup_singleton _
  rcases writeDocument_readDocument_opaque {} {} [sampleView] hall hdistinct with ⟨hwritten, hread⟩
  rcases hwritten.mpr (by decide +kernel) with ⟨text, htext⟩
  exact ⟨hall, hdistinct, text, htext, hread text htext⟩

end Markup

end WidgetSync
