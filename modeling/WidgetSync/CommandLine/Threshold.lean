import WidgetSync.Fault
import WidgetSync.Notice
import WidgetSync.Settings.Load
import WidgetSync.Value.Display

/-!
# Which Notices Are Shown

The level from which on notices are shown, and the lines that show them.

The settings name the level. Several names stand for a place on the common scale;
a name that nobody knows means the usual place. Two further names belong to the
scale's own workings and can be no level at all.

## Main definitions

* `Threshold.ofName`: The place that a name stands for.
* `Threshold.shown`: The lines of the notices that are shown.
-/

namespace WidgetSync

namespace Threshold

/-- The names of places on the common scale. -/
def names : Table Int :=
  [("NOTSET", 0), ("DEBUG", 10), ("INFO", 20), ("WARN", 30), ("WARNING", 30), ("ERROR", 40),
   ("FATAL", 50), ("CRITICAL", 50)]

/-- The usual place. -/
def usual : Int := Level.warning.rank

/-- The text that one of the names for inner workings stands for. -/
def recordLayout : String := "%(levelname)s:%(name)s:%(message)s"

/-- The place that a name stands for, whatever its case. -/
def ofName (name : String) : Except Fault Int :=
  match Settings.capitals name with
  | "BASIC_FORMAT" => .error (.invalid ("Unknown level: " ++ quoted recordLayout))
  | "_STYLES" => .error .unsuited
  | known => .ok ((names.get? known).getD usual)

/-- The line that shows a notice. -/
def line (n : Notice) : String :=
  s!"{n.level.name} {n.channel}: {n.text}\n"

/-- The lines of the notices that reach a place on the scale. -/
def shown (place : Int) (notices : List Notice) : String :=
  String.join ((notices.filter fun n => place ≤ n.level.rank).map line)

/-- The lines of notices that come before a level is chosen: their bare texts, if
    they reach the usual place. -/
def early (notices : List Notice) : String :=
  String.join ((notices.filter fun n => usual ≤ n.level.rank).map fun n => n.text ++ "\n")

end Threshold

end WidgetSync
