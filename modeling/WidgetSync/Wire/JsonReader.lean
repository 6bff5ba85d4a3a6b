import WidgetSync.Markup.Literal
import WidgetSync.Value.Kind

/-!
# Reading JSON

Plain data from their JSON text.

The reader follows the grammar of the format, with three names added for the
doubles that are no numbers. A number is a double if it has a point or an
exponent, otherwise an integer. Of a member that is given twice the last value
counts, in the place of the first. Control characters may not stand bare in a
text. Nothing but blanks may stand around the value.

## Main definitions

* `Json.read?`: The data that a text stands for.
-/

namespace WidgetSync

namespace Json

/-- The characters that may stand between the parts of a text. -/
def isSpace (c : Char) : Bool :=
  c == ' ' || c == '\t' || c == '\n' || c == '\r'

/-- The text without the blanks it starts with. -/
def skipSpace (cs : List Char) : List Char :=
  cs.dropWhile isSpace

/-- The number of the character that four digits name, and the rest. -/
def codeUnit? (cs : List Char) : Option (Nat × List Char) :=
  if 4 ≤ cs.length then (Markup.hexNumber? (cs.take 4)).map fun n => (n, cs.drop 4) else none

/-- The character of an escape by number. Two escapes together name a character
    that is too high for one. -/
def codePoint? (cs : List Char) : Option (Char × List Char) :=
  match codeUnit? cs with
  | none => none
  | some (high, rest) =>
    match rest with
    | '\\' :: 'u' :: more =>
      if 0xD800 ≤ high ∧ high ≤ 0xDBFF then
        match codeUnit? more with
        | none => none
        | some (low, behind) =>
          if 0xDC00 ≤ low ∧ low ≤ 0xDFFF then
            some (Markup.charOf (0x10000 + (high - 0xD800) * 0x400 + (low - 0xDC00)), behind)
          else some (Markup.charOf high, rest)
      else some (Markup.charOf high, rest)
    | _ => some (Markup.charOf high, rest)

/-- The character of an escape, from the text behind the backslash. -/
def escape? : List Char → Option (Char × List Char)
  | '"' :: cs => some ('"', cs)
  | '\\' :: cs => some ('\\', cs)
  | '/' :: cs => some ('/', cs)
  | 'b' :: cs => some (Char.ofNat 0x8, cs)
  | 'f' :: cs => some (Char.ofNat 0xC, cs)
  | 'n' :: cs => some ('\n', cs)
  | 'r' :: cs => some ('\r', cs)
  | 't' :: cs => some ('\t', cs)
  | 'u' :: cs => codePoint? cs
  | _ => none

/-- The rest of a quoted text, after some characters in reverse, and what follows
    its closing quote. No more than `fuel` characters are read. -/
def readText? (fuel : Nat) (read : List Char) (cs : List Char) : Option (String × List Char) :=
  match fuel, cs with
  | 0, _ => none
  | _, [] => none
  | fuel + 1, c :: cs =>
    if c = '"' then some (String.ofList read.reverse, cs)
    else if c = '\\' then
      match escape? cs with
      | some (d, rest) => readText? fuel (d :: read) rest
      | none => none
    else if c.toNat < 0x20 then none
    else readText? fuel (c :: read) cs

/-- The digits of the basic alphabet that a text starts with. -/
def digitsOf (cs : List Char) : List Char :=
  cs.takeWhile Char.isDigit

/-- The places behind the point, if there is a point with a digit behind it. -/
def placesOf (cs : List Char) : List Char :=
  match cs with
  | '.' :: ds => digitsOf ds
  | _ => []

/-- The sign and the digits of the power of ten, if there is one. -/
def powerOf? (cs : List Char) : Option Markup.ExponentText :=
  match cs with
  | mark :: ds =>
    if mark = 'e' ∨ mark = 'E' then
      let (sign, rest) : Option Char × List Char :=
        match ds with
        | '+' :: es => (some '+', es)
        | '-' :: es => (some '-', es)
        | es => (none, es)
      if (digitsOf rest).isEmpty then none else some ⟨sign, digitsOf rest⟩
    else none
  | [] => none

/-- The number that a text starts with. Zero stands alone before the point. -/
def numberText? (negative : Bool) (cs : List Char) : Option Markup.NumberText :=
  let whole := match cs with
    | '0' :: _ => ['0']
    | _ => digitsOf cs
  if whole.isEmpty then none
  else
    let behind := cs.drop whole.length
    let places := placesOf behind
    let point := !places.isEmpty
    let power := powerOf? (if point then behind.drop (places.length + 1) else behind)
    some ⟨negative, whole, point, places, power⟩

/-- A number and what follows it. -/
def readNumber? (cs : List Char) : Option (Value × List Char) :=
  let parsed := match cs with
    | '-' :: ds => numberText? true ds
    | ds => numberText? false ds
  match parsed with
  | none => none
  | some n =>
    match n.value with
    | .ok v => some (v, cs.drop n.length)
    | .error _ => none

/-- What follows a word that a text starts with. -/
def afterWord? (word : String) (cs : List Char) : Option (List Char) :=
  if word.toList.isPrefixOf cs then some (cs.drop word.length) else none

/-- A value that is a word: nothing, a truth value, or a double that is no number. -/
def readWord? (cs : List Char) : Option (Value × List Char) :=
  let words : List (String × Value) :=
    [("null", .null), ("true", .bool true), ("false", .bool false),
     ("NaN", .float (0.0 / 0.0)), ("Infinity", .float (1.0 / 0.0)),
     ("-Infinity", .float (-1.0 / 0.0))]
  words.findSome? fun (word, v) => (afterWord? word cs).map fun rest => (v, rest)

mutual

/-- A value and what follows it. No more than `fuel` values are nested. -/
def readValue? (fuel : Nat) (cs : List Char) : Option (Value × List Char) :=
  match fuel with
  | 0 => none
  | fuel + 1 =>
    match cs with
    | '"' :: ds => (readText? (ds.length + 1) [] ds).map fun (s, rest) => (.text s, rest)
    | '[' :: ds =>
      match skipSpace ds with
      | ']' :: rest => some (.list [], rest)
      | es => (readItems? fuel es).map fun (items, rest) => (.list items, rest)
    | '\x7b' :: ds =>
      match skipSpace ds with
      | '\x7d' :: rest => some (.record [], rest)
      | es =>
        (readMembers? fuel es).map fun (members, rest) => (.record (Table.ofEntries members), rest)
    | ds => (readWord? ds).or (readNumber? ds)

/-- The elements of a list from the first on, and what follows the list. -/
def readItems? (fuel : Nat) (cs : List Char) : Option (List Value × List Char) :=
  match fuel with
  | 0 => none
  | fuel + 1 =>
    match readValue? fuel cs with
    | none => none
    | some (v, rest) =>
      match skipSpace rest with
      | ']' :: behind => some ([v], behind)
      | ',' :: behind =>
        (readItems? fuel (skipSpace behind)).map fun (vs, after) => (v :: vs, after)
      | _ => none

/-- The members of a record from the first on, and what follows the record. -/
def readMembers? (fuel : Nat) (cs : List Char) : Option (List (String × Value) × List Char) :=
  match fuel, cs with
  | 0, _ => none
  | fuel + 1, '"' :: ds =>
    match readText? (ds.length + 1) [] ds with
    | none => none
    | some (name, rest) =>
      match skipSpace rest with
      | ':' :: behind =>
        match readValue? fuel (skipSpace behind) with
        | none => none
        | some (v, rest) =>
          match skipSpace rest with
          | '\x7d' :: behind => some ([(name, v)], behind)
          | ',' :: behind =>
            (readMembers? fuel (skipSpace behind)).map fun (ms, after) => ((name, v) :: ms, after)
          | _ => none
      | _ => none
  | _ + 1, _ => none

end

/-- The data that a text stands for. Every value and every separator takes a
    character, so the length of the text bounds the nesting. -/
def read? (text : String) : Option Value :=
  let cs := text.toList
  match readValue? (2 * cs.length + 1) (skipSpace cs) with
  | some (v, rest) => if (skipSpace rest).isEmpty then some v else none
  | none => none

end Json

end WidgetSync
