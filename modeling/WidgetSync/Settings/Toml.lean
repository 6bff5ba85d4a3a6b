import WidgetSync.Decimal.Reader
import WidgetSync.Markup.Literal
import WidgetSync.Value

/-!
# Reading TOML

The form of settings files: lines that give values to names, under headings that
open tables.

A text is read statement by statement into a record of records. Beside the
record the reader keeps two sets of paths: those that may not be opened by a
heading any more, and those that are closed for good since they were written as
one value. A statement that violates them, or the grammar, spoils the whole
text; what exactly was wrong does not matter to anybody here.

## Main definitions

* `Toml.readValue?`: A value at the start of a text.
* `Toml.Draft`: What was read so far.
* `Toml.read?`: The tables of a text.
-/

namespace WidgetSync

namespace Toml

/-- A chain of names that leads into nested tables. -/
abbrev Path := List String

/-- A part that was read, and the rest of the text. -/
abbrev Parsed (α : Type) := Option (α × List Char)

/-! ### Characters -/

/-- A blank inside a line. -/
def isBlank (c : Char) : Bool :=
  c == ' ' || c == '\t'

/-- A blank or the end of a line. -/
def isLayout (c : Char) : Bool :=
  isBlank c || c == '\n'

/-- A control character that may not stand in a line. -/
def isControl (c : Char) : Bool :=
  (c.toNat < 0x20 || c.toNat = 0x7F) && c != '\t'

/-- A character of a name without quotes. -/
def isBare (c : Char) : Bool :=
  c.isAlphanum || c == '-' || c == '_'

/-- The text with line feeds for line ends of two characters. -/
def joinLineEnds : List Char → List Char
  | '\r' :: '\n' :: cs => '\n' :: joinLineEnds cs
  | c :: cs => c :: joinLineEnds cs
  | [] => []

/-- The text behind the blanks it starts with. -/
def skipBlanks (cs : List Char) : List Char :=
  cs.dropWhile isBlank

/-- The text behind the comment it starts with, if there is one. -/
def skipComment? : List Char → Option (List Char)
  | '#' :: cs =>
    if (cs.takeWhile (· != '\n')).any isControl then none else some (cs.dropWhile (· != '\n'))
  | cs => some cs

/-- The text behind blanks, line ends and comments. -/
def skipLayout? (fuel : Nat) (cs : List Char) : Option (List Char) :=
  match fuel, cs.dropWhile isLayout with
  | fuel + 1, '#' :: ds => (skipComment? ('#' :: ds)).bind (skipLayout? fuel)
  | _, ds => some ds

/-! ### Texts -/

/-- The character that digits of base sixteen name. Halves of a pair are none. -/
def namedChar? (count : Nat) (cs : List Char) : Parsed Char :=
  if cs.length < count then none
  else
    match Markup.hexNumber? (cs.take count) with
    | some n => if n.isValidChar then some (Char.ofNat n, cs.drop count) else none
    | none => none

/-- The character of an escape, from the text behind the backslash. -/
def escape? : List Char → Parsed Char
  | 'b' :: cs => some (Char.ofNat 0x8, cs)
  | 't' :: cs => some ('\t', cs)
  | 'n' :: cs => some ('\n', cs)
  | 'f' :: cs => some (Char.ofNat 0xC, cs)
  | 'r' :: cs => some ('\r', cs)
  | '"' :: cs => some ('"', cs)
  | '\\' :: cs => some ('\\', cs)
  | 'u' :: cs => namedChar? 4 cs
  | 'U' :: cs => namedChar? 8 cs
  | _ => none

/-- The rest of a text in double quotes on one line, after some characters in
    reverse. -/
def quotedText? (fuel : Nat) (read : List Char) (cs : List Char) : Parsed String :=
  match fuel, cs with
  | fuel + 1, c :: cs =>
    if c = '"' then some (String.ofList read.reverse, cs)
    else if c = '\\' then
      (escape? cs).bind fun (d, rest) => quotedText? fuel (d :: read) rest
    else if isControl c then none
    else quotedText? fuel (c :: read) cs
  | _, _ => none

/-- The rest of a text in single quotes on one line. -/
def plainText? (cs : List Char) : Parsed String :=
  let inside := cs.takeWhile (· != '\'')
  match cs.dropWhile (· != '\'') with
  | _ :: rest => if inside.any isControl then none else some (String.ofList inside, rest)
  | [] => none

/-- One or two quotes before the closing three belong to the text. -/
def withQuotes (quote : Char) (read : List Char) (cs : List Char) : String × List Char :=
  match cs with
  | a :: b :: rest =>
    if a = quote ∧ b = quote then (String.ofList (read ++ [a, b]), rest)
    else if a = quote then (String.ofList (read ++ [a]), b :: rest)
    else (String.ofList read, a :: b :: rest)
  | [a] => if a = quote then (String.ofList (read ++ [a]), []) else (String.ofList read, [a])
  | [] => (String.ofList read, [])

/-- The text behind a backslash that ends a line: all layout is skipped. -/
def continuedLine? (cs : List Char) : Option (List Char) :=
  match skipBlanks cs with
  | '\n' :: rest => some (rest.dropWhile isLayout)
  | _ => none

/-- The rest of a text in three double quotes, after some characters in reverse. -/
def longQuotedText? (fuel : Nat) (read : List Char) (cs : List Char) : Parsed String :=
  match fuel, cs with
  | _ + 1, '"' :: '"' :: '"' :: cs => some (withQuotes '"' read.reverse cs)
  | fuel + 1, '\\' :: cs =>
    match cs with
    | [] => none
    | d :: _ =>
      if isLayout d then (continuedLine? cs).bind (longQuotedText? fuel read)
      else (escape? cs).bind fun (e, rest) => longQuotedText? fuel (e :: read) rest
  | fuel + 1, c :: cs =>
    if isControl c && c != '\n' then none else longQuotedText? fuel (c :: read) cs
  | _, _ => none

/-- The rest of a text in three single quotes, after some characters in reverse. -/
def longPlainText? (read : List Char) : List Char → Parsed String
  | '\'' :: '\'' :: '\'' :: cs => some (withQuotes '\'' read.reverse cs)
  | c :: cs => if isControl c && c != '\n' then none else longPlainText? (c :: read) cs
  | [] => none

/-- The text without a line end at its start. -/
def dropLineEnd : List Char → List Char
  | '\n' :: cs => cs
  | cs => cs

/-- A text of any of the four forms. -/
def readText? : List Char → Parsed String
  | '"' :: '"' :: '"' :: cs => longQuotedText? (cs.length + 1) [] (dropLineEnd cs)
  | '"' :: cs => quotedText? (cs.length + 1) [] cs
  | '\'' :: '\'' :: '\'' :: cs => longPlainText? [] (dropLineEnd cs)
  | '\'' :: cs => plainText? cs
  | _ => none

/-! ### Names -/

/-- One name of a path: bare, or in quotes on one line. -/
def namePart? : List Char → Parsed String
  | '"' :: cs => quotedText? (cs.length + 1) [] cs
  | '\'' :: cs => plainText? cs
  | cs =>
    let name := cs.takeWhile isBare
    if name.isEmpty then none else some (String.ofList name, cs.drop name.length)

/-- The names of a path from the first on, with points between them, and the text
    behind the blanks after it. -/
def readPath? (fuel : Nat) (cs : List Char) : Parsed Path :=
  match fuel with
  | 0 => none
  | fuel + 1 =>
    (namePart? cs).bind fun (name, rest) =>
      match skipBlanks rest with
      | '.' :: behind => (readPath? fuel (skipBlanks behind)).map fun (path, after) =>
          (name :: path, after)
      | behind => some ([name], behind)

/-! ### Dates and numbers -/

/-- A number of exactly so many digits, within bounds. -/
def fixedNumber? (count low high : Nat) (cs : List Char) : Parsed Nat :=
  let ds := cs.take count
  if ds.length = count ∧ ds.all Char.isDigit then
    let n := Text.digitsValue ds
    if low ≤ n ∧ n ≤ high then some (n, cs.drop count) else none
  else none

/-- The text behind a character. -/
def behind? (c : Char) : List Char → Option (List Char)
  | d :: cs => if d = c then some cs else none
  | [] => none

/-- The millionths of a second behind the point; further digits are dropped. -/
def readMicro (cs : List Char) : Nat × List Char :=
  match cs with
  | '.' :: rest =>
    let ds := rest.takeWhile Char.isDigit
    if ds.isEmpty then (0, cs)
    else
      let six := ds.take 6
      (Text.digitsValue (six ++ List.replicate (6 - six.length) '0'), rest.drop ds.length)
  | _ => (0, cs)

/-- A time of day. -/
def readTime? (cs : List Char) : Option (TimeOfDay × List Char) := do
  let (hour, cs) ← fixedNumber? 2 0 23 cs
  let cs ← behind? ':' cs
  let (minute, cs) ← fixedNumber? 2 0 59 cs
  let cs ← behind? ':' cs
  let (second, cs) ← fixedNumber? 2 0 59 cs
  let (micro, cs) := readMicro cs
  return (⟨hour, minute, second, micro⟩, cs)

/-- The hours and minutes of a distance to universal time, in minutes. -/
def readHours? (cs : List Char) : Option (Nat × List Char) := do
  let (hour, cs) ← fixedNumber? 2 0 23 cs
  let cs ← behind? ':' cs
  let (minute, cs) ← fixedNumber? 2 0 59 cs
  return (60 * hour + minute, cs)

/-- The distance to universal time, if it is given. -/
def readOffset (cs : List Char) : Option Int × List Char :=
  match cs with
  | c :: rest =>
    if c = 'Z' ∨ c = 'z' then (some 0, rest)
    else if c = '+' ∨ c = '-' then
      match readHours? rest with
      | some (minutes, after) => (some (if c = '-' then -minutes else minutes), after)
      | none => (none, cs)
    else (none, cs)
  | [] => (none, cs)

/-- The three parts of a date, which need not exist. -/
def readDate? (cs : List Char) : Option (Date × List Char) := do
  let (year, cs) ← fixedNumber? 4 0 9999 cs
  let cs ← behind? '-' cs
  let (month, cs) ← fixedNumber? 2 1 12 cs
  let cs ← behind? '-' cs
  let (day, cs) ← fixedNumber? 2 1 31 cs
  return (⟨year, month, day⟩, cs)

/-- The time behind a date, if there is one. -/
def timeBehind? : List Char → Parsed TimeOfDay
  | c :: cs => if c = 'T' ∨ c = 't' ∨ c = ' ' then readTime? cs else none
  | [] => none

/-- A date with or without a time, or a time. The outer option says whether the text
    has that form, the inner one whether the date exists. -/
def readMoment? (cs : List Char) : Option (Parsed Moment) :=
  match readDate? cs with
  | some (date, rest) =>
    if !date.valid then some none
    else
      match timeBehind? rest with
      | some (time, after) =>
        let (offset, after) := readOffset after
        some (some (.both date time offset, after))
      | none => some (some (.date date, rest))
  | none => (readTime? cs).map fun (time, rest) => some (.time time, rest)

/-- The digits that a text starts with, where single underscores may stand between
    two of them, and the rest. -/
def digitRun (isDigit : Char → Bool) : List Char → List Char × List Char
  | c :: '_' :: d :: cs =>
    if isDigit c then
      if isDigit d then
        let (ds, rest) := digitRun isDigit (d :: cs)
        (c :: ds, rest)
      else ([c], '_' :: d :: cs)
    else ([], c :: '_' :: d :: cs)
  | c :: cs =>
    if isDigit c then
      let (ds, rest) := digitRun isDigit cs
      (c :: ds, rest)
    else ([], c :: cs)
  | [] => ([], [])

/-- The number that digits of a base stand for. -/
def baseValue (base : Nat) (ds : List Char) : Nat :=
  ds.foldl (fun n c => n * base + (Markup.hexValue? c).getD 0) 0

/-- An integer in base sixteen, eight or two. -/
def readBased? : List Char → Parsed Value
  | '0' :: mark :: cs =>
    let base := match mark with
      | 'x' => 16
      | 'o' => 8
      | 'b' => 2
      | _ => 0
    let isDigit := fun c => match Markup.hexValue? c with
      | some d => decide (d < base)
      | none => false
    match digitRun isDigit cs with
    | ([], _) => none
    | (ds, rest) => some (.int (baseValue base ds), rest)
  | _ => none

/-- The digits before the point: a zero alone, or a run that starts otherwise. -/
def wholeDigits (cs : List Char) : List Char × List Char :=
  match cs with
  | '0' :: rest => (['0'], rest)
  | cs => digitRun Char.isDigit cs

/-- The digits behind the point. -/
def placeDigits (cs : List Char) : List Char × List Char :=
  match cs with
  | '.' :: rest =>
    match digitRun Char.isDigit rest with
    | ([], _) => ([], cs)
    | parsed => parsed
  | _ => ([], cs)

/-- The sign and the digits of a power of ten. -/
def powerDigits? (cs : List Char) : Parsed Int :=
  match cs with
  | mark :: rest =>
    if mark = 'e' ∨ mark = 'E' then
      let (negative, rest) := match rest with
        | '+' :: ds => (false, ds)
        | '-' :: ds => (true, ds)
        | ds => (false, ds)
      match digitRun Char.isDigit rest with
      | ([], _) => none
      | (ds, after) =>
        let n : Int := Text.digitsValue ds
        some (if negative then -n else n, after)
    else none
  | [] => none

/-- A decimal number without its sign: a double if it has places or a power of ten.
    The outer option says whether the text has that form, the inner one whether an
    integer has few enough digits. -/
def readDecimal? (negative : Bool) (cs : List Char) : Option (Parsed Value) :=
  match wholeDigits cs with
  | ([], _) => none
  | (whole, rest) =>
    let (places, rest) := placeDigits rest
    match powerDigits? rest with
    | some (power, after) =>
      some (some (.float (Decimal.ofParts negative whole places power), after))
    | none =>
      if places.isEmpty then
        if Decimal.digitLimit < whole.length then some none
        else
          let n : Int := Text.digitsValue whole
          some (some (.int (if negative then -n else n), rest))
      else some (some (.float (Decimal.ofParts negative whole places 0), rest))

/-- A double that is no number or infinite, without its sign. -/
def readSpecial? (negative : Bool) : List Char → Parsed Value
  | 'i' :: 'n' :: 'f' :: cs => some (.float (if negative then -1.0 / 0.0 else 1.0 / 0.0), cs)
  | 'n' :: 'a' :: 'n' :: cs => some (.float (0.0 / 0.0), cs)
  | _ => none

/-- The number that a text starts with. -/
def readNumber? (cs : List Char) : Parsed Value :=
  match readBased? cs with
  | some parsed => some parsed
  | none =>
    let (negative, ds) := match cs with
      | '-' :: ds => (true, ds)
      | '+' :: ds => (false, ds)
      | ds => (false, ds)
    match readDecimal? negative ds with
    | some parsed => parsed
    | none => readSpecial? negative ds

/-! ### Tables -/

/-- The table at the end of a path, changed; tables that are not there are created.
    Where the path meets a list it goes on in its last element, if `lists` allows
    it. There may be no table at the end of the path. -/
def within (lists : Bool) : Path → (Fields → Option Fields) → Fields → Option Fields
  | [], change, table => change table
  | name :: path, change, table =>
    match (table.get? name).getD (.record []) with
    | .record inner =>
      (within lists path change inner).map fun changed => table.set name (.record changed)
    | .list items =>
      match lists, items.getLast? with
      | true, some (.record inner) =>
        (within lists path change inner).map fun changed =>
          table.set name (.list (items.dropLast ++ [.record changed]))
      | _, _ => none
    | _ => none

/-- The table with a new entry. -/
def addEntry (name : String) (value : Value) (table : Fields) : Option Fields :=
  if table.has name then none else some (table.set name value)

/-- The table with one more empty table in the list of a name. -/
def addElement (name : String) (table : Fields) : Option Fields :=
  match table.get? name with
  | none => some (table.set name (.list [.record []]))
  | some (.list items) => some (table.set name (.list (items ++ [.record []])))
  | some _ => none

/-- The value was written as one: it is closed for additions. -/
def isClosed : Value → Bool
  | .list _ => true
  | .record _ => true
  | _ => false

/-- Some path of the set leads to the path or to a table around it. -/
def reaches (paths : List Path) (path : Path) : Bool :=
  paths.any fun p => p.isPrefixOf path

/-- A truth value. -/
def readTruth? : List Char → Parsed Value
  | 't' :: 'r' :: 'u' :: 'e' :: cs => some (.bool true, cs)
  | 'f' :: 'a' :: 'l' :: 's' :: 'e' :: cs => some (.bool false, cs)
  | _ => none

/-- A value that has no parts: a text, a truth value, a moment or a number. -/
def readSimple? (cs : List Char) : Parsed Value :=
  match cs with
  | '"' :: _ => (readText? cs).map fun (s, rest) => (.text s, rest)
  | '\'' :: _ => (readText? cs).map fun (s, rest) => (.text s, rest)
  | _ =>
    match readTruth? cs with
    | some parsed => some parsed
    | none =>
      match readMoment? cs with
      | some parsed => parsed.map fun (m, rest) => (.moment m, rest)
      | none => readNumber? cs

mutual

/-- A value and the rest of the text. No more than `fuel` values are nested. -/
def readValue? (fuel : Nat) (cs : List Char) : Parsed Value :=
  match fuel with
  | 0 => none
  | fuel + 1 =>
    match cs with
    | '[' :: ds => (readElements? fuel ds).map fun (items, rest) => (.list items, rest)
    | '\x7b' :: ds =>
      match skipBlanks ds with
      | '\x7d' :: rest => some (.record [], rest)
      | es => (readEntries? fuel [] [] es).map fun (table, rest) => (.record table, rest)
    | ds => readSimple? ds

/-- The elements of a list up to its closing bracket, which may follow a comma. -/
def readElements? (fuel : Nat) (cs : List Char) : Parsed (List Value) :=
  match fuel, skipLayout? cs.length cs with
  | 0, _ => none
  | _, none => none
  | fuel + 1, some start =>
    match start with
    | ']' :: rest => some ([], rest)
    | _ =>
      match readValue? fuel start with
      | none => none
      | some (v, rest) =>
        match skipLayout? rest.length rest with
        | some (']' :: behind) => some ([v], behind)
        | some (',' :: behind) =>
          (readElements? fuel behind).map fun (vs, after) => (v :: vs, after)
        | _ => none

/-- The entries of a table on one line up to its closing brace, after some entries
    and the paths that these have closed. -/
def readEntries? (fuel : Nat) (table : Fields) (closed : List Path) (cs : List Char) :
    Parsed Fields :=
  match fuel, readPath? (cs.length + 1) cs with
  | fuel + 1, some (path, '=' :: rest) =>
    match readValue? fuel (skipBlanks rest) with
    | none => none
    | some (v, rest) =>
      if reaches closed path then none
      else
        match within false path.dropLast (addEntry (path.getLast?.getD "") v) table with
        | none => none
        | some changed =>
          match skipBlanks rest with
          | '\x7d' :: behind => some (changed, behind)
          | ',' :: behind =>
            readEntries? fuel changed (if isClosed v then path :: closed else closed)
              (skipBlanks behind)
          | _ => none
  | _, _ => none

end

/-! ### Statements -/

/-- What was read so far. -/
structure Draft where
  /-- The tables. -/
  table : Fields := []
  /-- The path of the heading that is in force. -/
  header : Path := []
  /-- The paths that no heading may open any more. -/
  opened : List Path := []
  /-- The paths that join `opened` with the next heading. -/
  waiting : List Path := []
  /-- The paths that are closed together with everything below them. -/
  closed : List Path := []

namespace Draft

/-- The draft at a new heading. -/
def atHeading (d : Draft) : Draft :=
  { d with opened := d.waiting ++ d.opened, waiting := [] }

/-- The draft after a heading that opens a table. -/
def openTable? (d : Draft) (path : Path) : Option Draft :=
  if d.opened.contains path || reaches d.closed path then none
  else
    (within true path some d.table).map fun table =>
      { d with table, header := path, opened := path :: d.opened }

/-- The draft after a heading that opens one more table of a list. What was said
    about the former element no longer holds. -/
def openElement? (d : Draft) (path : Path) : Option Draft :=
  if reaches d.closed path then none
  else
    let outside := fun p : Path => !path.isPrefixOf p
    (within true path.dropLast (addElement (path.getLast?.getD "")) d.table).map fun table =>
      { d with
        table
        header := path
        opened := path :: d.opened.filter outside
        closed := d.closed.filter outside }

/-- The paths of the tables that a dotted name passes through, under a heading. -/
def passed (header path : Path) : List Path :=
  (List.range path.length).tail.map fun n => header ++ path.take n

/-- The draft after a value was given to a name. -/
def assign? (d : Draft) (path : Path) (value : Value) : Option Draft :=
  let inside := d.header ++ path.dropLast
  if (passed d.header path).any d.opened.contains || reaches d.closed inside then none
  else
    (within true inside (addEntry (path.getLast?.getD "") value) d.table).map fun table =>
      { d with
        table
        waiting := passed d.header path ++ d.waiting
        closed := if isClosed value then (d.header ++ path) :: d.closed else d.closed }

/-- Reads a statement: a heading or a value for a name. -/
def statement? (d : Draft) (cs : List Char) : Parsed Draft :=
  match cs with
  | '[' :: '[' :: ds =>
    match readPath? (ds.length + 1) (skipBlanks ds) with
    | some (path, ']' :: ']' :: rest) => (d.atHeading.openElement? path).map fun d => (d, rest)
    | _ => none
  | '[' :: ds =>
    match readPath? (ds.length + 1) (skipBlanks ds) with
    | some (path, ']' :: rest) => (d.atHeading.openTable? path).map fun d => (d, rest)
    | _ => none
  | ds =>
    match readPath? (ds.length + 1) ds with
    | some (path, '=' :: rest) =>
      (readValue? (2 * rest.length + 1) (skipBlanks rest)).bind fun (v, rest) =>
        (d.assign? path v).map fun d => (d, rest)
    | _ => none

/-- Reads lines: each holds a statement or none, and perhaps a comment. -/
def lines? (fuel : Nat) (d : Draft) (cs : List Char) : Option Draft :=
  match fuel with
  | 0 => none
  | fuel + 1 =>
    let start := skipBlanks cs
    let stated : Parsed Draft := match start with
      | [] => some (d, [])
      | '\n' :: _ => some (d, start)
      | '#' :: _ => some (d, start)
      | _ => d.statement? start
    match stated with
    | none => none
    | some (d, rest) =>
      match skipComment? (skipBlanks rest) with
      | some [] => some d
      | some ('\n' :: next) => lines? fuel d next
      | _ => none

end Draft

/-- The tables of a text, if it is well formed. Every line takes a character, so the
    length of the text bounds their number. -/
def read? (cs : List Char) : Option Fields :=
  let cs := joinLineEnds cs
  (Draft.lines? (cs.length + 1) {} cs).map (·.table)

end Toml

end WidgetSync
