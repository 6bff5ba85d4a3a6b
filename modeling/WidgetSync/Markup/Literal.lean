import WidgetSync.Catalog
import WidgetSync.Markup.Token
import WidgetSync.Value.Kind

/-!
# Literals

Between the source text of a value and the value it stands for.

A known property tells which kind of literal to expect. If the source text is
such a literal, the property gets the value that it stands for; a binding or
anything else stays source text, so that it can be written out as it came. A
text that is marked as localized counts as the text itself.

## Main definitions

* `unescape`: The characters that the inside of a quoted text stands for.
* `stringLiteral?`: The text that a literal stands for.
* `numberLiteral?`: The number that a literal stands for.
* `valueOf`: The value that source text stands for, for a known property or not.
* `quote`: A text as a literal.
-/

namespace WidgetSync

namespace Markup

/-- The value of a hexadecimal digit. -/
def hexValue? (c : Char) : Option Nat :=
  if c.isDigit then some (c.toNat - '0'.toNat)
  else if 'a' ≤ c ∧ c ≤ 'f' then some (c.toNat - 'a'.toNat + 10)
  else if 'A' ≤ c ∧ c ≤ 'F' then some (c.toNat - 'A'.toNat + 10)
  else none

/-- The number that hexadecimal digits stand for; `none` if one is no digit. -/
def hexNumber? (cs : List Char) : Option Nat :=
  cs.foldlM (fun n c => (hexValue? c).map fun d => n * 16 + d) 0

/-- The character with a number. A number that belongs to none gives the
    replacement character. -/
def charOf (n : Nat) : Char :=
  if n.isValidChar then Char.ofNat n else Char.ofNat 0xFFFD

/-- The character that a letter behind a backslash stands for. -/
def simpleEscape (c : Char) : Char :=
  match c with
  | 'n' => '\n'
  | 't' => '\t'
  | 'r' => '\r'
  | 'b' => Char.ofNat 0x8
  | 'f' => Char.ofNat 0xC
  | 'v' => Char.ofNat 0xB
  | '0' => Char.ofNat 0
  | other => other

/-- What a backslash and the text behind it stand for: a character, and how many
    characters of that text belong to the escape. -/
def escape? : List Char → Option (Char × Nat)
  | [] => none
  | c :: cs =>
    let digits := if c = 'u' then 4 else if c = 'x' then 2 else 0
    if digits ≠ 0 ∧ digits ≤ cs.length then
      match hexNumber? (cs.take digits) with
      | some n => some (charOf n, digits + 1)
      | none => some (simpleEscape c, 1)
    else some (simpleEscape c, 1)

/-- The characters that the inside of a quoted text stands for. A backslash at the
    end stands for itself. -/
def unescape : List Char → List Char
  | [] => []
  | c :: cs =>
    if c = '\\' then
      match escape? cs with
      | some (d, n) => d :: unescape (cs.drop n)
      | none => [c]
    else c :: unescape cs
termination_by cs => cs.length
decreasing_by all_goals (simp only [List.length_cons, List.length_drop]; omega)

/-- The inside of the quoted text that starts behind its first quote, and what
    follows the closing quote. Lines may end inside. -/
def quotedInside? (quote : Char) : List Char → Option (List Char × List Char)
  | [] => none
  | '\\' :: cs =>
    match cs with
    | c :: ds => (quotedInside? quote ds).map fun (inside, rest) => ('\\' :: c :: inside, rest)
    | [] => none
  | c :: cs =>
    if c = quote then some ([], cs)
    else (quotedInside? quote cs).map fun (inside, rest) => (c :: inside, rest)

/-- The quoted text that a text starts with: its quote, its inside and what follows. -/
def quotedStart? : List Char → Option (Char × List Char × List Char)
  | [] => none
  | c :: cs =>
    if c = '"' ∨ c = '\'' then (quotedInside? c cs).map fun (inside, rest) => (c, inside, rest)
    else none

/-- Nothing follows, or one line feed. -/
def isEnd (cs : List Char) : Bool :=
  cs.isEmpty || cs == ['\n']

/-- The inside of a text that consists of one quoted text. -/
def wholeQuoted? (cs : List Char) : Option (List Char) :=
  match quotedStart? cs with
  | some (_, inside, rest) => if isEnd rest then some inside else none
  | none => none

/-- The mark in front of a localized text. -/
def localizedMark : List Char :=
  "qsTr(".toList

/-- The inside of a quoted text that is marked as localized. -/
def localized? (cs : List Char) : Option (List Char) :=
  if localizedMark.isPrefixOf cs then
    match quotedStart? (Text.trimStart (cs.drop localizedMark.length)) with
    | some (_, inside, rest) =>
      match Text.trimStart rest with
      | ')' :: behind => if isEnd behind then some inside else none
      | _ => none
    | none => none
  else none

/-- The text that a literal stands for, be it marked as localized or not. -/
def stringLiteral? (raw : String) : Option String :=
  let cs := raw.toList
  ((localized? cs).or (wholeQuoted? cs)).map fun inside => String.ofList (unescape inside)

/-- Why an integer cannot be read or written. -/
def tooManyDigits (digits : Nat) : Fault :=
  .invalid (s!"Exceeds the limit ({Decimal.digitLimit} digits) for integer string conversion: "
    ++ s!"value has {digits} digits; use sys.set_int_max_str_digits() to increase the limit")

/-- The power of ten that its text stands for. -/
def ExponentText.value (e : ExponentText) : Int :=
  let n : Int := Text.digitsValue e.digits
  if e.sign = some '-' then -n else n

/-- The number that its text stands for: a double if there is a point or a power of
    ten, else an integer. An integer with too many digits is a fault. -/
def NumberText.value (n : NumberText) : Except Fault Value :=
  if n.point || n.exponent.isSome then
    let power := (n.exponent.map ExponentText.value).getD 0
    .ok (.float (Decimal.ofParts n.negative n.whole n.places power))
  else if Decimal.digitLimit < n.whole.length then .error (tooManyDigits n.whole.length)
  else
    let size : Int := Text.digitsValue n.whole
    .ok (.int (if n.negative then -size else size))

/-- The number that a literal stands for. -/
def numberLiteral? (raw : String) : Except Fault (Option Value) :=
  let cs := Catalog.withoutFinalLineFeed raw.toList
  match numberText? cs with
  | some n => if n.length = cs.length then n.value.map some else .ok none
  | none => .ok none

/-- The text is a name without points. -/
def isSimpleName (cs : List Char) : Bool :=
  match cs with
  | c :: cs => (c.isAlpha || c == '_') && cs.all Text.isWord
  | [] => false

/-- The name that source text picks out of a scope. -/
def scopedName? (scope : Option String) (raw : String) : Option String :=
  match scope with
  | none => none
  | some scope =>
    let front := scope.toList ++ ['.']
    if scope.isEmpty || !front.isPrefixOf raw.toList then none
    else
      let name := raw.toList.drop front.length
      if isSimpleName (Catalog.withoutFinalLineFeed name) then some (String.ofList name) else none

/-- The value that source text stands for where a spelling is known. Source text
    that is no literal of the kind stays source text. -/
def valueOf (raw : String) (spelling : Option Catalog.Spelling) : Except Fault Value :=
  match spelling with
  | none => .ok (.raw raw)
  | some ⟨.bool, _⟩ =>
    .ok (if raw = "true" then .bool true else if raw = "false" then .bool false else .raw raw)
  | some ⟨.number, _⟩ => (numberLiteral? raw).map fun n => n.getD (.raw raw)
  | some ⟨.enum, scope⟩ => .ok (((scopedName? scope raw).map Value.text).getD (.raw raw))
  | some ⟨_, _⟩ => .ok (((stringLiteral? raw).map Value.text).getD (.raw raw))

/-- One character inside a literal. -/
def escaped (c : Char) : List Char :=
  match c with
  | '\\' => ['\\', '\\']
  | '"' => ['\\', '"']
  | '\n' => ['\\', 'n']
  | '\r' => ['\\', 'r']
  | '\t' => ['\\', 't']
  | other => [other]

/-- A text as a literal. -/
def quote (s : String) : String :=
  String.ofList ('"' :: s.toList.flatMap escaped ++ ['"'])

end Markup

end WidgetSync
