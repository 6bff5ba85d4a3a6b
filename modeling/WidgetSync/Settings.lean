/-!
# Settings

The adjustable parts of the program and their usual values.

## Main definitions

* `Settings`: All settings.
-/

namespace WidgetSync

/-- All settings. -/
structure Settings where
  /-- How long changes of one side are collected before they are passed on, in
      thousandths of a second. -/
  debounceMs : Int := 150
  /-- The number of snapshots that a history keeps. -/
  capacity : Int := 50
  /-- The width of a window that names none. -/
  width : Int := 800
  /-- The height of a window that names none. -/
  height : Int := 600
  /-- The title of a window that names none. -/
  title : String := "Qt Designer Application"
  /-- The name of the level from which on notices are shown. -/
  level : String := "WARNING"
deriving DecidableEq, Repr

end WidgetSync
