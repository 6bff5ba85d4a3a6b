import WidgetSync.Calendar
import WidgetSync.Table

/-!
# Values

What a property, a coordinate or a setting can hold.

A text document, a tree sent by a host and a settings file name values of many
kinds, and the program keeps each as it came. Plain data are the values that a
data format knows. The others belong to widgets: source text that is passed
through untouched, grouped properties, handlers of signals and objects given in
place. Since a host may send anything, the parts of a handler and the type of an
object are values too.

## Main definitions

* `Value`: The values.
* `Value.asText?`: The characters of a text, be it quoted or source text.
-/

namespace WidgetSync

/-- What a property, a coordinate or a setting can hold. -/
inductive Value where
  /-- No value. -/
  | null
  /-- A truth value. -/
  | bool (b : Bool)
  /-- An integer of any size. -/
  | int (n : Int)
  /-- A double. -/
  | float (x : Float)
  /-- A text. -/
  | text (s : String)
  /-- Source text that is written out as it is: a binding or an unknown form. -/
  | raw (s : String)
  /-- A date, a time of day or both. -/
  | moment (m : Moment)
  /-- A list. -/
  | list (items : List Value)
  /-- Named plain data. -/
  | record (entries : List (String × Value))
  /-- Grouped properties, such as those of a font or a border. -/
  | group (fields : List (String × Value))
  /-- A handler of a signal: its code, and whether it is written as a block. -/
  | handler (code block : Value)
  /-- An object given in place: its type and its properties. -/
  | object (type : Value) (properties : List (String × Value))
deriving Inhabited

/-- Named values in order of arrival. -/
abbrev Fields := Table Value

namespace Value

/-- The characters of a text, quoted or source. -/
def asText? : Value → Option String
  | .text s => some s
  | .raw s => some s
  | _ => none

/-- The value is source text. -/
def isRaw : Value → Bool
  | .raw _ => true
  | _ => false

end Value

end WidgetSync
