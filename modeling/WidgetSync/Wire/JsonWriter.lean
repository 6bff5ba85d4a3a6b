import WidgetSync.Decimal.Layout
import WidgetSync.Markup.Writer

/-!
# Writing JSON

Plain data as JSON text, one member or element on a line.

Lines are indented by two blanks for each level. Characters are written as they
are; only quotes, backslashes and control characters are escaped. Values that
are no plain data have no JSON text.

## Main definitions

* `Json.write`: The text of plain data.
-/

namespace WidgetSync

namespace Json

/-- Numbers in JSON text. -/
def number : Decimal.Layout where
  undefined := "NaN"
  infinity := "Infinity"

/-- One character inside a quoted text. -/
def escaped (c : Char) : List Char :=
  if c = '"' ∨ c = '\\' then ['\\', c]
  else if c = '\n' then ['\\', 'n']
  else if c = '\r' then ['\\', 'r']
  else if c = '\t' then ['\\', 't']
  else if c.toNat = 0x8 then ['\\', 'b']
  else if c.toNat = 0xC then ['\\', 'f']
  else if c.toNat < 0x20 then '\\' :: 'u' :: hexadecimal 4 c.toNat
  else [c]

/-- A text in quotes. -/
def quote (s : String) : String :=
  String.ofList ('"' :: s.toList.flatMap escaped ++ ['"'])

/-- A line end and the indentation of a level. -/
def lineAt (level : Nat) : String :=
  String.ofList ('\n' :: List.replicate (2 * level) ' ')

/-- Parts between brackets, each on a line of its own one level further in. -/
def enclosed (opening closing : String) (level : Nat) (parts : List String) : String :=
  if parts.isEmpty then opening ++ closing
  else
    opening ++ lineAt (level + 1) ++ ("," ++ lineAt (level + 1)).intercalate parts
      ++ lineAt level ++ closing

mutual

/-- The text of a value at a level. -/
def writeAt (level : Nat) : Value → Except Fault String
  | .null => .ok "null"
  | .bool b => .ok (if b then "true" else "false")
  | .int n => if Value.writable (.int n) then .ok (toString n) else .error Markup.unwritable
  | .float x => .ok (number.write x)
  | .text s => .ok (quote s)
  | .raw s => .ok (quote s)
  | .list items => do
    let parts ← writeItems (level + 1) items
    return enclosed "[" "]" level parts
  | .record entries => do
    let parts ← writeMembers (level + 1) entries
    return enclosed "\x7b" "\x7d" level parts
  | _ => .error .unsuited

/-- The texts of the elements of a list. -/
def writeItems (level : Nat) : List Value → Except Fault (List String)
  | [] => .ok []
  | v :: vs => do
    let first ← writeAt level v
    let others ← writeItems level vs
    return first :: others

/-- The texts of the members of a record. -/
def writeMembers (level : Nat) : List (String × Value) → Except Fault (List String)
  | [] => .ok []
  | (k, v) :: entries => do
    let first ← writeAt level v
    let others ← writeMembers level entries
    return (quote k ++ ": " ++ first) :: others

end

/-- The text of plain data. -/
def write (v : Value) : Except Fault String :=
  writeAt 0 v

end Json

end WidgetSync
