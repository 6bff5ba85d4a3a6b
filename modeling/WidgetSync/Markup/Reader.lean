import WidgetSync.Document
import WidgetSync.Markup.HandlerCode
import WidgetSync.Markup.Literal
import WidgetSync.Node.Ids

/-!
# Reading Documents

From the text of a document to its window and widgets.

The text is a sequence of statements. A statement opens a block, closes one,
gives a property a value, or is skipped; one step reads one statement. The
blocks that are open form a stack. Each carries what has been read of it, and
closing a block hands that to the block below, so at every moment the stack is
a partial document.

Every text is read to its end. A brace that closes nothing and a statement that
is not understood are skipped, and blocks that are still open at the end are
closed there. Only an integer with too many digits stops the reader; what was
read before it is kept.

## Main definitions

* `Frame`: A block that is open.
* `Reading`: What has been read so far.
* `Remark`: What the reader has to say about a place in the text.
* `Reading.step`: Reads one statement.
* `Reading.run`: Reads to the end.
* `readDocument`: The document that a text describes, and the notices on it.

## Theorems

* `valueLength_le`: A value ends where its tokens end.
-/

namespace WidgetSync

namespace Markup

/-- A block that is open. -/
inductive Frame where
  /-- The block of the window. Its widgets are the roots of the document. -/
  | window
  /-- The block of a widget. -/
  | node (node : Node)
  /-- The block of grouped properties, under their name. -/
  | group (name : String) (fields : Fields)
  /-- The block of an object that is the value of a property. If a widget was
      declared inside, its source text will be the value instead. The tokens are
      those from its type on. -/
  | object (key type : String) (properties : Fields) (holdsWidget : Bool) (source : List Token)

/-- The name of a kind of block in remarks. -/
def Frame.title : Frame → String
  | .window => "window"
  | .node _ => "node"
  | .group .. => "group"
  | .object .. => "object"

/-- What the reader has to say about a place in the text. A place is given by the
    number of tokens that were left there. -/
inductive Remark where
  /-- A statement was not understood. -/
  | skipped (left : Nat)
  /-- A brace closed nothing. -/
  | unmatched (left : Nat)
  /-- A brace was never closed. -/
  | openBrace (left : Nat)
  /-- A block was closed by the end of the text. -/
  | openBlock (title : String)
  /-- A property has no value. -/
  | noValue (key : String)
deriving DecidableEq, Repr

/-- What has been read of a document. -/
structure Reading where
  /-- The attributes of the window. -/
  window : Window
  /-- The widgets that are complete and stand in no other. -/
  roots : Forest := []
  /-- A block was opened before. Only the first block can be that of the window. -/
  declared : Bool := false
  /-- The blocks that are open, the innermost first. -/
  frames : List Frame := []

namespace Reading

/-- The properties of the innermost block. -/
def bag (r : Reading) : Fields :=
  match r.frames with
  | .node n :: _ => n.properties
  | .group _ fields :: _ => fields
  | .object _ _ properties _ _ :: _ => properties
  | _ => r.window.properties

/-- The reading with other properties in the innermost block. -/
def setBag (r : Reading) (fields : Fields) : Reading :=
  match r.frames with
  | .node n :: fs => { r with frames := .node { n with properties := fields } :: fs }
  | .group name _ :: fs => { r with frames := .group name fields :: fs }
  | .object key type _ holds source :: fs =>
    { r with frames := .object key type fields holds source :: fs }
  | _ => { r with window := { r.window with properties := fields } }

/-- Gives a property of the innermost block a value. -/
def store (r : Reading) (key : String) (value : Value) : Reading :=
  r.setBag (r.bag.set key value)

/-- The fields of the group with a name, empty if there is no such group yet. -/
def groupFields (r : Reading) (name : String) : Fields :=
  match r.bag.get? name with
  | some (.group fields) => fields
  | _ => []

/-- Opens a block. -/
def push (r : Reading) (f : Frame) : Reading :=
  { r with frames := f :: r.frames }

/-- Hands a complete widget to the innermost block. In a group there is no place
    for it; an object will be kept as source text. -/
def adopt (r : Reading) (n : Node) : Reading :=
  match r.frames with
  | .node p :: fs => { r with frames := .node { p with children := p.children ++ [n] } :: fs }
  | .group .. :: _ => r
  | .object key type properties _ source :: fs =>
    { r with frames := .object key type properties true source :: fs }
  | _ => { r with roots := r.roots ++ [n] }

/-- The source text of an object, from its type to the tokens that are left. -/
def objectText (source rest : List Token) : String :=
  String.ofList (Text.trim (covered (source.take (source.length - rest.length))))

/-- Closes the innermost block. An object in which a widget was declared becomes
    its source text, unless the reader was stopped inside. -/
def close (r : Reading) (stopped : Bool) (rest : List Token) : Reading :=
  match r.frames with
  | [] => r
  | .window :: fs => { r with frames := fs }
  | .node n :: fs => adopt { r with frames := fs } n
  | .group name fields :: fs => store { r with frames := fs } name (.group fields)
  | .object key type properties holds source :: fs =>
    store { r with frames := fs } key
      (if holds && !stopped then .raw (objectText source rest)
       else .object (.text type) properties)

/-- Closes the given number of blocks. -/
def closeMany (r : Reading) (stopped : Bool) : Nat → Reading
  | 0 => r
  | k + 1 => closeMany (r.close stopped []) stopped k

/-- Closes all blocks. -/
def closeAll (r : Reading) (stopped : Bool) : Reading :=
  r.closeMany stopped r.frames.length

end Reading

/-- The token ends a value outside of brackets. -/
def Token.endsValue (t : Token) : Bool :=
  t.kind == .newline || t.kind == .semicolon || t.kind == .closing

/-- The token opens a bracket. -/
def Token.isOpener (t : Token) : Bool :=
  t.body == ['\x7b'] || t.body == ['('] || t.body == ['[']

/-- The token closes a bracket. -/
def Token.isCloser (t : Token) : Bool :=
  t.body == ['\x7d'] || t.body == [')'] || t.body == [']']

/-- The number of tokens of a value, inside some open brackets. The value goes on
    to the end of the line, a semicolon or a closing brace, but not inside
    brackets. -/
def valueLength (depth : Nat) : List Token → Nat
  | [] => 0
  | t :: ts =>
    if depth = 0 ∧ t.endsValue = true then 0
    else if t.isOpener then valueLength (depth + 1) ts + 1
    else if t.isCloser then valueLength (depth - 1) ts + 1
    else valueLength depth ts + 1

/-- The number of open brackets behind a token, when some are open before it. -/
def Token.depthBehind (t : Token) (depth : Nat) : Nat :=
  if t.isOpener then depth + 1 else if t.isCloser then depth - 1 else depth

/-- Outside of brackets a value ends before a token that ends it. -/
theorem valueLength_stop {depth : Nat} {t : Token} (h : depth = 0 ∧ t.endsValue = true)
    (ts : List Token) : valueLength depth (t :: ts) = 0 := by
  rw [valueLength, if_pos h]

/-- It goes on behind any other token. -/
theorem valueLength_go {depth : Nat} {t : Token} (h : ¬(depth = 0 ∧ t.endsValue = true))
    (ts : List Token) : valueLength depth (t :: ts) = valueLength (t.depthBehind depth) ts + 1 := by
  rw [valueLength, if_neg h, Token.depthBehind]
  split
  · rfl
  · split
    · rfl
    · rfl

/-- A value ends where its tokens end. -/
theorem valueLength_le (depth : Nat) (ts : List Token) : valueLength depth ts ≤ ts.length := by
  induction ts generalizing depth with
  | nil => exact Nat.zero_le _
  | cons t ts ih =>
      rw [List.length_cons]
      by_cases hends : depth = 0 ∧ t.endsValue = true
      · rw [valueLength_stop hends]
        exact Nat.zero_le _
      · rw [valueLength_go hends]
        exact Nat.succ_le_succ (ih _)

/-- The source text of the value that some tokens start with. -/
def valueText (ts : List Token) : String :=
  String.ofList (Text.trim (covered (ts.take (valueLength 0 ts))))

/-- The number of tokens before the brace that closes a block, inside some further
    open braces. -/
def blockLength? (depth : Nat) : List Token → Option Nat
  | [] => none
  | t :: ts =>
    match t.kind with
    | .opening => (blockLength? (depth + 1) ts).map (· + 1)
    | .closing =>
      match depth with
      | 0 => some 0
      | d + 1 => (blockLength? d ts).map (· + 1)
    | _ => (blockLength? depth ts).map (· + 1)

/-- The first token is of the kind. -/
def starts (kind : Kind) : List Token → Bool
  | [] => false
  | t :: _ => t.kind == kind

/-- The token is a name with a capital in front. -/
def Token.isCapital (t : Token) : Bool :=
  t.kind == .name && (match t.body with
    | c :: _ => c.isUpper
    | [] => false)

/-- The words that start the declaration of a property. -/
def declarationWords : List String :=
  ["property", "readonly", "default", "required"]

/-- What reading one statement leads to. -/
inductive Step where
  /-- Goes on behind the first token of the statement and some further ones. -/
  | next (reading : Reading) (used : Nat) (remarks : List Remark)
  /-- Stops. -/
  | stop (reading : Reading)

/-- Goes on with a reading, or stops with another one if there is no value. -/
def Step.given (value : Except Fault Value) (stopped : Reading) (used : Nat)
    (keep : Value → Reading) : Step :=
  match value with
  | .ok v => .next (keep v) used []
  | .error _ => .stop stopped

namespace Reading

/-- Skips a statement. -/
def skip (r : Reading) (t : Token) (ts : List Token) : Step :=
  .next r (valueLength 0 (t :: ts) - 1) [.skipped (ts.length + 1)]

/-- The attribute of the window that source text can give a value, and the window
    with that value. Everything else is an ordinary property. -/
def windowAttribute (w : Window) (key raw : String) : Except Fault (Option Window) :=
  if key = "id" then .ok (some w)
  else if key = "width" then
    (numberLiteral? raw).map fun n => n.map fun v => { w with width := v }
  else if key = "height" then
    (numberLiteral? raw).map fun n => n.map fun v => { w with height := v }
  else if key = "title" then
    .ok ((stringLiteral? raw).map fun s => { w with title := .text s })
  else if key = "visible" ∧ raw = "true" then .ok (some { w with visible := .bool true })
  else if key = "visible" ∧ raw = "false" then .ok (some { w with visible := .bool false })
  else .ok none

/-- The node with a coordinate or size under one of the four names. -/
def setGeometry (n : Node) (key : String) (value : Value) : Node :=
  match key with
  | "x" => { n with x := value }
  | "y" => { n with y := value }
  | "width" => { n with width := value }
  | "height" => { n with height := value }
  | _ => n

/-- The widget after a value for its id or geometry; `none` for other keys. A
    number replaces what the property was bound to, anything else binds it. -/
def nodeAttribute (n : Node) (key raw : String) : Except Fault (Option Node) :=
  if key = "id" then
    let given := match stringLiteral? raw with
      | some s => if s.isEmpty then raw else s
      | none => raw
    .ok (some { n with id := .text (safeId given) })
  else if Catalog.geometry.contains key then
    (numberLiteral? raw).map fun
      | some v => some { setGeometry n key v with properties := n.properties.erase key }
      | none => some { n with properties := n.properties.set key (.raw raw) }
  else .ok none

/-- The parts of a name before and behind its first point. -/
def splitName? (key : String) : Option (String × String) :=
  let cs := key.toList
  let head := cs.takeWhile (· != '.')
  match cs.drop head.length with
  | _ :: rest => some (String.ofList head, String.ofList rest)
  | [] => none

/-- Gives a property of the innermost block the value of a literal or binding. -/
def assign (r : Reading) (key raw : String) (used : Nat) : Step :=
  let ordinary := Step.given (valueOf raw (Catalog.spelling? key)) r used (r.store key)
  let dotted := (splitName? key).map fun (head, field) =>
    let fields := r.groupFields head
    Step.given (valueOf raw (Catalog.spelling? field (some head)))
      (r.store head (.group fields)) used fun v => r.store head (.group (fields.set field v))
  match r.frames with
  | .group name _ :: _ =>
    Step.given (valueOf raw (Catalog.spelling? key (some name))) r used (r.store key)
  | .node n :: fs =>
    match dotted with
    | some step => step
    | none =>
      match nodeAttribute n key raw with
      | .error _ => .stop r
      | .ok (some n) => .next { r with frames := .node n :: fs } used []
      | .ok none => ordinary
  | .window :: _ =>
    match dotted with
    | some step => step
    | none =>
      match windowAttribute r.window key raw with
      | .error _ => .stop r
      | .ok (some w) => .next { r with window := w } used []
      | .ok none => ordinary
  | _ =>
    match dotted with
    | some step => step
    | none => ordinary

/-- Reads the value of a property from the tokens behind the colon. -/
def property (r : Reading) (tail : List Char) (key : String) (ts : List Token) : Step :=
  match ts with
  | [] => .next r 1 []
  | v :: vs =>
    if v.kind = .opening then
      let (inner, used, remarks) : List Char × Nat × List Remark :=
        match blockLength? 0 vs with
        | some n =>
          let behind := match vs.drop n with
            | closing :: _ => closing.gap
            | [] => []
          (withGaps (vs.take n) ++ behind, n + 3, [])
        | none => (withGaps vs ++ tail, vs.length + 2, [.openBrace ts.length])
      let value :=
        if Catalog.isHandlerName key then
          Value.handler (.text (String.ofList (handlerCode inner))) (.bool (inner.contains '\n'))
        else .raw (braced (String.ofList inner))
      .next (r.store key value) used remarks
    else if v.isCapital && starts .opening vs then
      .next (r.push (.object key v.text [] false ts)) 3 []
    else
      let raw := valueText ts
      let used := valueLength 0 ts + 1
      if raw.isEmpty then .next r used [.noValue key]
      else if Catalog.isHandlerName key then
        .next (r.store key (.handler (.text raw) (.bool false))) used []
      else r.assign key raw used

/-- Reads a declaration of a property: several words, a colon and a value. All
    words together are the name. -/
def declaration (r : Reading) (ts : List Token) : Step :=
  let words := ts.takeWhile fun t => t.kind == .name
  match ts.drop words.length with
  | [] => .next r (words.length - 1) []
  | c :: rest =>
    if c.kind = .colon ∧ 2 ≤ words.length then
      let raw := valueText rest
      let used := words.length + valueLength 0 rest
      if raw.isEmpty then .next r used []
      else .next (r.store (" ".intercalate (words.map Token.text)) (.raw raw)) used []
    else
      .next r (words.length - 1 + valueLength 0 (c :: rest)) [.skipped (rest.length + 1)]

/-- Reads a statement inside a block. -/
def member (r : Reading) (tail : List Char) (t : Token) (ts : List Token) : Step :=
  if t.kind = .closing then .next (r.close false ts) 0 []
  else if t.kind = .newline ∨ t.kind = .semicolon then .next r 0 []
  else if t.kind ≠ .name then r.skip t ts
  else if starts .opening ts then
    if t.isCapital then .next (r.push (.node (Node.ofType t.text))) 1 []
    else .next (r.push (.group t.text (r.groupFields t.text))) 1 []
  else if starts .colon ts then r.property tail t.text (ts.drop 1)
  else if declarationWords.contains t.text then r.declaration (t :: ts)
  else r.skip t ts

/-- Reads a statement outside of all blocks. -/
def topLevel (r : Reading) (t : Token) (ts : List Token) : Step :=
  if t.kind = .newline ∨ t.kind = .semicolon then .next r 0 []
  else if t.kind = .name ∧ (t.text = "import" ∨ t.text = "pragma") then
    .next r (ts.takeWhile fun u => u.kind != .newline).length []
  else if t.kind = .name ∧ starts .opening ts = true then
    let opened :=
      if !r.declared && Catalog.rootContainers.contains t.text then Frame.window
      else .node (Node.ofType t.text)
    .next ({ r with declared := true }.push opened) 1 []
  else if t.kind = .closing then .next r 0 [.unmatched (ts.length + 1)]
  else r.skip t ts

/-- Reads one statement. -/
def step (r : Reading) (tail : List Char) (t : Token) (ts : List Token) : Step :=
  if r.frames.isEmpty then r.topLevel t ts else r.member tail t ts

/-- Where reading ended. -/
structure Ending where
  /-- What was read, with all blocks closed. -/
  reading : Reading
  /-- The reader was stopped. -/
  stopped : Bool
  /-- The remarks, in order. -/
  remarks : List Remark

/-- Reads statements until the tokens are used up or the reader is stopped. -/
def run (r : Reading) (tail : List Char) : List Token → Ending
  | [] => ⟨r.closeAll false, false, r.frames.map fun f => .openBlock f.title⟩
  | t :: ts =>
    match r.step tail t ts with
    | .stop r => ⟨r.closeAll true, true, []⟩
    | .next r used remarks =>
      let rest := run r tail (ts.drop used)
      { rest with remarks := remarks ++ rest.remarks }
termination_by ts => ts.length
decreasing_by simp only [List.length_cons, List.length_drop]; omega

end Reading

/-- The position of the token at which a number of tokens were left. -/
def positionOf (ts : List Token) (left : Nat) : Nat :=
  match (spans ts).drop (ts.length - left) with
  | (_, start, _) :: _ => start
  | [] => 0

/-- What a remark says. -/
def Remark.text (ts : List Token) : Remark → String
  | .skipped left => s!"skipped unsupported statement at offset {positionOf ts left}"
  | .unmatched left => s!"discarding unmatched '\x7d' at offset {positionOf ts left}"
  | .openBrace left => s!"unterminated block starting at offset {positionOf ts left}"
  | .openBlock title => s!"unterminated {title} block closed at end of input"
  | .noValue key => s!"property {quoted key} has no value"

/-- The notice that a remark is passed on as. -/
def Remark.notice (ts : List Token) (r : Remark) : Notice :=
  ⟨.debug, "qmlsync.parser", r.text ts⟩

/-- The notice that the reader was stopped. -/
def stoppedNotice : Notice :=
  ⟨.warning, "qmlsync.parser", "QML parse failed; keeping partial tree"⟩

/-- The document that a text describes, and the notices on it. All widgets get safe
    and unique ids. -/
def readDocument (s : Settings) (source : String) : Document × List Notice :=
  let scanned := scan source.toList
  let ending := Reading.run { window := .usual s } scanned.tail scanned.tokens
  let assigned := Forest.assignIds ending.reading.roots
  let remarks := ending.remarks.map (Remark.notice scanned.tokens)
  let stopped := if ending.stopped then [stoppedNotice] else []
  (⟨ending.reading.window, assigned.nodes⟩, remarks ++ stopped ++ assigned.notices)

end Markup

end WidgetSync
