import WidgetSync.Decimal.Layout
import WidgetSync.Decimal.Reader
import WidgetSync.Text.Printable
import WidgetSync.Value

/-!
# Values Shown to People

The two texts of a value: as it reads in a sentence, and spelled out.

Spelled out, a text stands in quotes, single ones unless only double ones avoid
an escape, and characters that cannot be printed are shown by their number. A
list or a record always spells its parts out. In a sentence a text stands for
itself.

## Main definitions

* `quoted`: A text in quotes.
* `Value.spelled`: A value spelled out.
* `Value.plain`: A value as it reads in a sentence.
* `Value.writable`: Every integer in the value is short enough to be written.
-/

namespace WidgetSync

/-- Numbers in sentences. -/
def Decimal.shown : Decimal.Layout where
  undefined := "nan"
  infinity := "inf"

/-- A number in hexadecimal, filled with zeros to the given width. -/
def hexadecimal (width n : Nat) : List Char :=
  let ds := Nat.toDigits 16 n
  List.replicate (width - ds.length) '0' ++ ds

/-- One character of a quoted text. -/
def quotedChar (quote c : Char) : List Char :=
  if c = quote ∨ c = '\\' then ['\\', c]
  else if c = '\n' then ['\\', 'n']
  else if c = '\r' then ['\\', 'r']
  else if c = '\t' then ['\\', 't']
  else if Text.isPrintable c then [c]
  else if c.toNat < 0x100 then '\\' :: 'x' :: hexadecimal 2 c.toNat
  else if c.toNat < 0x10000 then '\\' :: 'u' :: hexadecimal 4 c.toNat
  else '\\' :: 'U' :: hexadecimal 8 c.toNat

/-- A text in quotes: single ones, or double ones if the text has single quotes
    and no double ones. -/
def quoted (s : String) : String :=
  let cs := s.toList
  let quote := if cs.contains '\'' && !cs.contains '"' then '"' else '\''
  String.ofList (quote :: cs.flatMap (quotedChar quote) ++ [quote])

/-- Texts between braces. -/
def braced (inner : String) : String :=
  "\x7b" ++ inner ++ "\x7d"

namespace Value

mutual

/-- The value spelled out. -/
def spelled : Value → String
  | .null => "None"
  | .bool true => "True"
  | .bool false => "False"
  | .int n => toString n
  | .float x => Decimal.shown.write x
  | .text s => quoted s
  | .raw s => s!"RawValue({quoted s})"
  | .moment m => m.spelled
  | .list items => "[" ++ ", ".intercalate (spelledAll items) ++ "]"
  | .record entries => braced (", ".intercalate (spelledEntries entries))
  | .group fields =>
    "PropertyGroup(fields=" ++ braced (", ".intercalate (spelledEntries fields)) ++ ")"
  | .handler code block => s!"SignalHandler(code={code.spelled}, block={block.spelled})"
  | .object type properties =>
    s!"InlineObject(type={type.spelled}, properties="
      ++ braced (", ".intercalate (spelledEntries properties)) ++ ")"

/-- The values of a list spelled out. -/
def spelledAll : List Value → List String
  | [] => []
  | v :: vs => v.spelled :: spelledAll vs

/-- The entries of a record spelled out. -/
def spelledEntries : List (String × Value) → List String
  | [] => []
  | (k, v) :: es => (quoted k ++ ": " ++ v.spelled) :: spelledEntries es

end

/-- The value as it reads in a sentence. -/
def plain : Value → String
  | .text s => s
  | .raw s => s
  | .moment m => m.plain
  | v => v.spelled

mutual

/-- Every integer in the value is short enough to be written. -/
def writable : Value → Bool
  | .int n => n.natAbs < Nat.pow 10 Decimal.digitLimit
  | .list items => writableAll items
  | .record entries => writableEntries entries
  | .group fields => writableEntries fields
  | .handler code block => code.writable && block.writable
  | .object type properties => type.writable && writableEntries properties
  | _ => true

/-- Every integer in the list is short enough to be written. -/
def writableAll : List Value → Bool
  | [] => true
  | v :: vs => v.writable && writableAll vs

/-- Every integer in the entries is short enough to be written. -/
def writableEntries : List (String × Value) → Bool
  | [] => true
  | (_, v) :: es => v.writable && writableEntries es

end

end Value

end WidgetSync
