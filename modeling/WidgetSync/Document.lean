import WidgetSync.Node
import WidgetSync.Settings

/-!
# Documents

A user interface as a whole: the window around it and the forest of its widgets.

## Main definitions

* `Window`: The attributes of the window.
* `Window.usual`: The window that the settings describe.
* `Window.make`: A window whose missing attributes come from the settings.
* `Document`: A window and a forest.
-/

namespace WidgetSync

/-- The attributes of the window. -/
structure Window where
  /-- The width. -/
  width : Value
  /-- The height. -/
  height : Value
  /-- The title. -/
  title : Value
  /-- Whether the window is shown. -/
  visible : Value
  /-- All other properties. -/
  properties : Fields
deriving Inhabited

namespace Window

/-- The window that the settings describe. -/
def usual (s : Settings) : Window where
  width := .int s.width
  height := .int s.height
  title := .text s.title
  visible := .bool true
  properties := []

/-- A window. A width or height below zero and a missing title come from the
    settings; a width or height that is no number is a fault. -/
def make (s : Settings) (width height title visible : Value) (properties : Fields) :
    Except Fault Window := do
  let noWidth ← width.isNegative
  let noHeight ← height.isNegative
  return {
    width := if noWidth then .int s.width else width
    height := if noHeight then .int s.height else height
    title := match title with
      | .null => .text s.title
      | given => given
    visible, properties }

end Window

/-- A window and the forest of its widgets. -/
structure Document where
  /-- The window. -/
  window : Window
  /-- The widgets. -/
  nodes : Forest
deriving Inhabited

/-- The document without widgets that the settings describe. -/
def Document.empty (s : Settings) : Document :=
  ⟨.usual s, []⟩

end WidgetSync
