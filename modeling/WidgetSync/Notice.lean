/-!
# Notices

What the program has to say while it works: nothing is refused for a statement
it does not understand or an id it has to change, but a notice is left.

A notice names the part of the program that left it, which is its channel, and
how serious it is. Whether anybody reads it is decided at the edge.

## Main definitions

* `Level`: How serious a notice is.
* `Notice`: A notice.
-/

namespace WidgetSync

/-- How serious a notice is. -/
inductive Level where
  /-- A detail of the work. -/
  | debug
  /-- Something was ignored or changed. -/
  | warning
deriving DecidableEq, Repr

/-- The name of a level. -/
def Level.name : Level → String
  | .debug => "DEBUG"
  | .warning => "WARNING"

/-- The place of a level on the common scale. -/
def Level.rank : Level → Int
  | .debug => 10
  | .warning => 30

/-- What a part of the program has to say. -/
structure Notice where
  /-- How serious it is. -/
  level : Level
  /-- Which part of the program speaks. -/
  channel : String
  /-- What it says. -/
  text : String
deriving DecidableEq, Repr

end WidgetSync
