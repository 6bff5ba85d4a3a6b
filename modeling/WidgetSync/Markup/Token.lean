import WidgetSync.Text.Digit
import WidgetSync.Text.Word

/-!
# Tokens

The words of a document's text.

A text is cut into lexemes from left to right. Blanks and comments are skipped,
but nothing is lost: each token remembers what was skipped before it, so a list
of tokens together with what follows the last one is the text again. A line feed
is a token, since it ends a statement. A comment that spans lines ends one too,
so it counts as a line feed; its characters are kept like those of any token.

A quote that no closing quote answers on the same line, and any other character
that starts nothing, is a token by itself.

## Main definitions

* `Kind`, `Token`: The tokens.
* `NumberText`: The parts of a number in a text.
* `lexeme`: The kind and length of the first lexeme.
* `Scan`, `scan`: The tokens of a text and what follows them.
* `spans`: Where the tokens stand.
-/

namespace WidgetSync

namespace Markup

/-- The kinds of tokens. -/
inductive Kind where
  /-- The end of a line. -/
  | newline
  /-- A text in quotes. -/
  | string
  /-- A number. -/
  | number
  /-- A name, perhaps with points in it. -/
  | name
  /-- An opening brace. -/
  | opening
  /-- A closing brace. -/
  | closing
  /-- A colon. -/
  | colon
  /-- A semicolon. -/
  | semicolon
  /-- Any other character. -/
  | other
deriving DecidableEq, Repr

/-- A word of the text. -/
structure Token where
  /-- Its kind. -/
  kind : Kind
  /-- What was skipped before it. -/
  gap : List Char
  /-- Its own characters in the text. -/
  body : List Char
deriving DecidableEq, Repr

/-- What the token says: its characters, and for the end of a line a line feed. -/
def Token.text (t : Token) : String :=
  if t.kind = .newline then "\n" else String.ofList t.body

/-- The character may start a name. -/
def startsName (c : Char) : Bool :=
  c.isAlpha || c == '_' || c == '$'

/-- The character may stand inside a name. -/
def continuesName (c : Char) : Bool :=
  Text.isWord c || c == '$'

/-- The number of characters that continue a name. A point continues it if the
    next character starts a name again. -/
def nameLength : List Char → Nat
  | [] => 0
  | c :: cs =>
    if continuesName c then nameLength cs + 1
    else if c = '.' then
      match cs with
      | d :: ds => if startsName d then nameLength ds + 2 else 0
      | [] => 0
    else 0

/-- The power of ten behind a number. -/
structure ExponentText where
  /-- The sign, if there is one. -/
  sign : Option Char
  /-- The digits. -/
  digits : List Char
deriving DecidableEq, Repr

/-- The parts of a number in a text. -/
structure NumberText where
  /-- A minus sign stands in front. -/
  negative : Bool
  /-- The digits before the point. -/
  whole : List Char
  /-- There is a point. -/
  point : Bool
  /-- The digits behind the point. -/
  places : List Char
  /-- The power of ten. -/
  exponent : Option ExponentText
deriving DecidableEq, Repr

/-- The number of characters of the power of ten with its mark. -/
def ExponentText.length (e : ExponentText) : Nat :=
  1 + (if e.sign.isSome then 1 else 0) + e.digits.length

/-- The number of characters of the number. -/
def NumberText.length (n : NumberText) : Nat :=
  (if n.negative then 1 else 0) + n.whole.length + (if n.point then 1 else 0) + n.places.length
    + (match n.exponent with
       | some e => e.length
       | none => 0)

/-- The power of ten that a text starts with: a mark, perhaps a sign, and digits. -/
def exponentText? : List Char → Option ExponentText
  | mark :: cs =>
    if mark = 'e' ∨ mark = 'E' then
      let (sign, rest) : Option Char × List Char :=
        match cs with
        | '+' :: ds => (some '+', ds)
        | '-' :: ds => (some '-', ds)
        | ds => (none, ds)
      let digits := rest.takeWhile Text.isDigit
      if digits.isEmpty then none else some ⟨sign, digits⟩
    else none
  | [] => none

/-- The number without a sign that a text starts with: digits on at least one side
    of the point, or digits without a point, and perhaps a power of ten. -/
def unsignedText? (negative : Bool) (cs : List Char) : Option NumberText :=
  let whole := cs.takeWhile Text.isDigit
  match cs.drop whole.length with
  | '.' :: ds =>
    let places := ds.takeWhile Text.isDigit
    if whole.isEmpty && places.isEmpty then none
    else some ⟨negative, whole, true, places, exponentText? (ds.drop places.length)⟩
  | ds => if whole.isEmpty then none else some ⟨negative, whole, false, [], exponentText? ds⟩

/-- The number that a text starts with. -/
def numberText? : List Char → Option NumberText
  | '-' :: cs => unsignedText? true cs
  | cs => unsignedText? false cs

/-- The number of characters up to and with the closing quote, after `n` others. A
    backslash covers the next character; a bare line feed ends the search. -/
def quotedLength? (quote : Char) (n : Nat) : List Char → Option Nat
  | [] => none
  | '\\' :: cs =>
    match cs with
    | _ :: ds => quotedLength? quote (n + 2) ds
    | [] => none
  | c :: cs =>
    if c = quote then some (n + 1)
    else if c = '\n' then none
    else quotedLength? quote (n + 1) cs

/-- The number of characters up to and with the end of a block comment, after `n`
    others. -/
def commentLength? (n : Nat) : List Char → Option Nat
  | '*' :: '/' :: _ => some (n + 2)
  | _ :: cs => commentLength? (n + 1) cs
  | [] => none

/-- The character separates tokens without being one. -/
def isSpace (c : Char) : Bool :=
  c == ' ' || c == '\t' || c == '\r' || c == Char.ofNat 0xC || c == Char.ofNat 0xB

/-- What a text starts with: a token of a kind, or something to skip. -/
inductive Lexeme where
  /-- A token. -/
  | token (kind : Kind)
  /-- Blanks, or a comment on one line. -/
  | skipped
deriving DecidableEq, Repr

/-- The first lexeme of the text `c :: cs`, and how many characters it has besides
    the first. -/
def lexeme (c : Char) (cs : List Char) : Lexeme × Nat :=
  if c = '/' then
    match cs with
    | '/' :: ds => (.skipped, 1 + (ds.takeWhile (· != '\n')).length)
    | '*' :: ds =>
      match commentLength? 1 ds with
      | some n => if (ds.take (n - 1)).contains '\n' then (.token .newline, n) else (.skipped, n)
      | none => (.token .other, 0)
    | _ => (.token .other, 0)
  else if c = '\n' then (.token .newline, 0)
  else if isSpace c then (.skipped, (cs.takeWhile isSpace).length)
  else if c = '"' ∨ c = '\'' then
    match quotedLength? c 0 cs with
    | some n => (.token .string, n)
    | none => (.token .other, 0)
  else
    match numberText? (c :: cs) with
    | some n => (.token .number, n.length - 1)
    | none =>
      if startsName c then (.token .name, nameLength cs)
      else if c = '{' then (.token .opening, 0)
      else if c = '}' then (.token .closing, 0)
      else if c = ':' then (.token .colon, 0)
      else if c = ';' then (.token .semicolon, 0)
      else (.token .other, 0)

/-- A text cut into tokens. -/
structure Scan where
  /-- The tokens. -/
  tokens : List Token
  /-- What was skipped behind the last one. -/
  tail : List Char
deriving DecidableEq, Repr

/-- Cuts a text into tokens, with a gap that was skipped before it. -/
def scanFrom (gap : List Char) : List Char → Scan
  | [] => ⟨[], gap⟩
  | c :: cs =>
    match lexeme c cs with
    | (.skipped, n) => scanFrom (gap ++ c :: cs.take n) (cs.drop n)
    | (.token kind, n) =>
      let rest := scanFrom [] (cs.drop n)
      ⟨⟨kind, gap, c :: cs.take n⟩ :: rest.tokens, rest.tail⟩
termination_by cs => cs.length
decreasing_by all_goals (simp only [List.length_cons, List.length_drop]; omega)

/-- Cuts a text into tokens. -/
def scan (cs : List Char) : Scan :=
  scanFrom [] cs

/-- The tokens with the positions where they start and end, when the gap of the
    first starts at a position. -/
def spansFrom (position : Nat) : List Token → List (Token × Nat × Nat)
  | [] => []
  | t :: ts =>
    let start := position + t.gap.length
    let stop := start + t.body.length
    (t, start, stop) :: spansFrom stop ts

/-- The tokens with the positions where they start and end. -/
def spans (ts : List Token) : List (Token × Nat × Nat) :=
  spansFrom 0 ts

/-- The part of the text from the gap of the first token to the end of the last. -/
def withGaps (ts : List Token) : List Char :=
  ts.flatMap fun t => t.gap ++ t.body

/-- The part of the text from the start of the first token to the end of the last. -/
def covered : List Token → List Char
  | [] => []
  | t :: ts => t.body ++ withGaps ts

end Markup

end WidgetSync
