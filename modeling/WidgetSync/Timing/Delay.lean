import WidgetSync.Value.Kind

/-!
# Lengths of Time as Values

What a value means as a length of time, for each kind of timer.

Hosts and settings name lengths of time in seconds, as values. A clock made of
doubles takes a double, where anything below zero counts as zero. A timer service
that counts whole thousandths of a second takes their number.

## Main definitions

* `Value.delay`: A delay for a clock.
* `Value.milliseconds`: A delay in thousandths of a second.
-/

namespace WidgetSync

namespace Value

/-- The delay for a clock of doubles. An integer below zero, however far, counts as
    zero. -/
def delay : Value → Except Fault Float
  | .int n => if n ≤ 0 then .ok 0.0 else seconds (.int n)
  | v => v.seconds

/-- A text so many times behind itself. -/
def repeated (times : Nat) (s : String) : String :=
  String.ofList (List.replicate times s.toList).flatten

/-- A thousand times the value: of a number its product, of a text its repetition. -/
def thousandfold : Value → Value
  | .bool b => .int (1000 * ofTruth b)
  | .int n => .int (1000 * n)
  | .float x => .float (x * 1000.0)
  | .text s => .text (repeated 1000 s)
  | .raw s => .text (repeated 1000 s)
  | v => v

/-- The delay in whole thousandths of a second, not below zero. -/
def milliseconds (v : Value) : Except Fault Int :=
  v.thousandfold.integer.map (max 0)

end Value

end WidgetSync
