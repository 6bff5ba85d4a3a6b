import WidgetSync.Markup.Reader
import WidgetSync.Markup.Writer
import WidgetSync.Text.Word
import WidgetSync.Wire.JsonReader
import WidgetSync.Wire.JsonWriter
import WidgetSync.Wire.Tagged

/-!
# Formats

The written forms of a document.

A format reads a text into a document and writes a document as a text. Reading
never fails: what it cannot make sense of is left out and noticed. A format may
also recognise its texts by how they look.

There are two. The text that people edit is markup; it is recognised by a
container that opens at the start of a line, or by an import of the widget
library there. The text that hosts exchange is JSON; it is recognised by the
bracket that it starts with.

## Main definitions

* `Format`: What a format can do.
* `Format.markup`, `Format.json`: The two formats.
-/

namespace WidgetSync

/-- A written form of documents. -/
structure Format where
  /-- The name by which the format is chosen. -/
  name : String
  /-- The endings of its files. -/
  extensions : List String
  /-- The text looks like this format. -/
  detects : String → Bool
  /-- The document that a text describes, and what there is to say about the text. -/
  read : Settings → String → Document × List Notice
  /-- Reading the text asks for the settings before there is anything to say about
      it. -/
  asksFirst : String → Bool
  /-- The text of a document. -/
  write : Document → Except Fault String

namespace Markup

/-- What follows a word, and then any blanks, at the start of a text. -/
def afterWord? (word : String) (cs : List Char) : Option (List Char) :=
  if word.toList.isPrefixOf cs then some (Text.trimStart (cs.drop word.length)) else none

/-- The text starts with an import of the widget library, under its whole name. -/
def startsWithImport (cs : List Char) : Bool :=
  match "import".toList.isPrefixOf cs, cs.drop "import".length with
  | true, c :: rest =>
    Text.isBlank c &&
      (let name := Text.trimStart rest
       "QtQuick".toList.isPrefixOf name &&
        match name.drop "QtQuick".length with
        | [] => true
        | d :: _ => !Text.isWord d)
  | _, _ => false

/-- The text starts with a container that opens. -/
def startsWithContainer (cs : List Char) : Bool :=
  ["ApplicationWindow", "Window", "Item"].any fun type =>
    match afterWord? type cs with
    | some ('\x7b' :: _) => true
    | _ => false

/-- Behind its leading blanks the text starts like a document. -/
def startsDocument (cs : List Char) : Bool :=
  let cs := Text.trimStart cs
  startsWithImport cs || startsWithContainer cs

/-- Some line of the text starts like a document. Blanks at the start of a line may
    reach over further lines. -/
def startsOnSomeLine : List Char → Bool
  | [] => false
  | c :: cs => (c == '\n' && startsDocument cs) || startsOnSomeLine cs

/-- The text looks like markup. -/
def looksLikeMarkup (content : String) : Bool :=
  startsDocument content.toList || startsOnSomeLine content.toList

end Markup

namespace Json

/-- The text looks like JSON: a record or a list. -/
def looksLikeJson (content : String) : Bool :=
  match Text.trimStart content.toList with
  | c :: _ => c == '\x7b' || c == '['
  | [] => false

/-- The notice on a text that describes no document. -/
def invalidNotice : Notice :=
  ⟨.warning, "qmlsync.formats.json", "invalid JSON tree document"⟩

/-- The document that a text describes, if it describes one. -/
def readDocument? (s : Settings) (content : String) : Option Document :=
  (read? content).bind fun data => (Document.ofData s data).toOption

/-- The document that a text describes; an empty one, with a notice, if it
    describes none. -/
def readDocument (s : Settings) (content : String) : Document × List Notice :=
  match readDocument? s content with
  | some d => (d, [])
  | none => (.empty s, [invalidNotice])

/-- Reading the text gets as far as making a window. What is wrong with the text
    after that is said after the settings were asked for. -/
def reachesWindow (content : String) : Bool :=
  match read? content with
  | some (.list items) => (Node.forestOfData items).isOk
  | some (.record entries) => (Window.parts (Document.windowData entries)).isOk
  | _ => false

/-- The text of a document, with a line end. -/
def writeDocument (d : Document) : Except Fault String :=
  (write d.toData).map (· ++ "\n")

end Json

namespace Format

/-- The format of the text that people edit. -/
def markup : Format where
  name := "qml"
  extensions := [".qml"]
  detects := Markup.looksLikeMarkup
  read := Markup.readDocument
  asksFirst := fun _ => true
  write := Markup.writeDocument

/-- The format of the text that hosts exchange. -/
def json : Format where
  name := "json"
  extensions := [".json"]
  detects := Json.looksLikeJson
  read := Json.readDocument
  asksFirst := Json.reachesWindow
  write := Json.writeDocument

end Format

end WidgetSync
