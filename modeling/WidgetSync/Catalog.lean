import WidgetSync.Table
import WidgetSync.Text.Word

/-!
# The Widget Catalog

What is known about widget types and property names.

The reader and the writer of documents look at the same tables: how large a new
widget is, which import its type needs, and how the value of a known property is
spelled. A property or a field that no table lists is passed through as source
text.

## Main definitions

* `rootContainers`: The types that hold the window instead of a widget.
* `baseImports`, `requiredImport`: The imports of a document.
* `defaultSize`: The size of a new widget.
* `Kind`, `Spelling`: How the value of a known property is spelled.
* `spelling?`: The spelling of a property or of a field in a group.
* `isHandlerName`: The name of a handler.
-/

namespace WidgetSync

namespace Catalog

/-- Types whose attributes belong to the window and whose children are the roots
    of the document. -/
def rootContainers : List String :=
  ["ApplicationWindow", "Window"]

/-- The imports of every document. -/
def baseImports : List String :=
  ["import QtQuick 2.15", "import QtQuick.Controls 2.15"]

/-- Types that need a further import. -/
def typeImports : Table String :=
  [("WebEngineView", "import QtWebEngine 1.15"),
   ("Chart", "import QtCharts 2.15"),
   ("ChartView", "import QtCharts 2.15"),
   ("MediaPlayer", "import QtMultimedia 5.15"),
   ("VideoOutput", "import QtMultimedia 5.15"),
   ("WebView", "import QtWebView 1.15"),
   ("Window", "import QtQuick.Window 2.15"),
   ("Dialog", "import QtQuick.Window 2.15"),
   ("Layout", "import QtQuick.Layouts 1.15"),
   ("GridLayout", "import QtQuick.Layouts 1.15"),
   ("RowLayout", "import QtQuick.Layouts 1.15"),
   ("ColumnLayout", "import QtQuick.Layouts 1.15")]

/-- The import that a type needs beyond those of every document. -/
def requiredImport (type : String) : Option String :=
  typeImports.get? type

/-- The width and height of a widget that names none and whose type is unknown. -/
def fallbackSize : Int × Int :=
  (100, 30)

/-- The width and height of widgets of known types. -/
def defaultSizes : Table (Int × Int) :=
  -- Basic widgets
  [("Button", (120, 35)),
   ("Label", (100, 25)),
   ("TextField", (200, 35)),
   ("TextArea", (250, 100)),
   ("Image", (150, 150)),
   ("Rectangle", (150, 100)),
   -- Layouts
   ("Row", (300, 50)),
   ("Column", (150, 200)),
   ("Grid", (200, 150)),
   ("RowLayout", (300, 50)),
   ("ColumnLayout", (150, 200)),
   ("GridLayout", (200, 150)),
   -- Input controls
   ("CheckBox", (120, 30)),
   ("RadioButton", (120, 30)),
   ("Slider", (200, 30)),
   ("ProgressBar", (200, 25)),
   ("ComboBox", (150, 35)),
   ("SpinBox", (120, 35)),
   ("Switch", (60, 30)),
   -- Views and containers
   ("ListView", (200, 150)),
   ("TreeView", (250, 200)),
   ("TabView", (400, 300)),
   ("ScrollView", (250, 200)),
   ("SwipeView", (300, 200)),
   ("StackView", (300, 200)),
   ("GroupBox", (200, 150)),
   ("Frame", (200, 150)),
   ("Page", (400, 300)),
   ("Pane", (200, 150)),
   ("Drawer", (250, 400)),
   ("Dialog", (300, 200)),
   ("Popup", (200, 150)),
   ("ToolBar", (400, 50)),
   ("MenuBar", (400, 30)),
   -- Media and charts
   ("VideoOutput", (320, 240)),
   ("ChartView", (400, 300))]

/-- The width and height of a new widget of a type. -/
def defaultSize (type : String) : Int × Int :=
  (defaultSizes.get? type).getD fallbackSize

/-- What kind of value a known property has. -/
inductive Kind where
  /-- A text for people, marked as localized. -/
  | text
  /-- A text for the program. -/
  | string
  /-- A color, written like a text for the program. -/
  | color
  /-- A name out of a scope. -/
  | enum
  /-- A number. -/
  | number
  /-- A truth value. -/
  | bool
deriving DecidableEq, Repr

/-- How the value of a known property is spelled. -/
structure Spelling where
  /-- The kind of the value. -/
  kind : Kind
  /-- The scope that names are written with. -/
  scope : Option String := none
deriving DecidableEq, Repr

/-- The properties that say where a widget is and how large. -/
def geometry : List String :=
  ["x", "y", "width", "height"]

/-- The known properties of widgets and windows. -/
def properties : Table Spelling :=
  [("text", ⟨.text, none⟩),
   ("placeholderText", ⟨.text, none⟩),
   ("title", ⟨.text, none⟩),
   ("color", ⟨.color, none⟩),
   ("selectionColor", ⟨.color, none⟩),
   ("source", ⟨.string, none⟩),
   ("textRole", ⟨.string, none⟩),
   ("enabled", ⟨.bool, none⟩),
   ("visible", ⟨.bool, none⟩),
   ("checked", ⟨.bool, none⟩),
   ("checkable", ⟨.bool, none⟩),
   ("flat", ⟨.bool, none⟩),
   ("highlighted", ⟨.bool, none⟩),
   ("readOnly", ⟨.bool, none⟩),
   ("editable", ⟨.bool, none⟩),
   ("clip", ⟨.bool, none⟩),
   ("interactive", ⟨.bool, none⟩),
   ("opacity", ⟨.number, none⟩),
   ("value", ⟨.number, none⟩),
   ("from", ⟨.number, none⟩),
   ("to", ⟨.number, none⟩),
   ("stepSize", ⟨.number, none⟩),
   ("radius", ⟨.number, none⟩),
   ("spacing", ⟨.number, none⟩),
   ("rows", ⟨.number, none⟩),
   ("columns", ⟨.number, none⟩),
   ("rowSpacing", ⟨.number, none⟩),
   ("columnSpacing", ⟨.number, none⟩),
   ("padding", ⟨.number, none⟩),
   ("z", ⟨.number, none⟩),
   ("rotation", ⟨.number, none⟩),
   ("scale", ⟨.number, none⟩),
   ("currentIndex", ⟨.number, none⟩),
   ("maximumLength", ⟨.number, none⟩),
   ("fillMode", ⟨.enum, some "Image"⟩),
   ("wrapMode", ⟨.enum, some "Text"⟩),
   ("elide", ⟨.enum, some "Text"⟩),
   ("horizontalAlignment", ⟨.enum, some "Text"⟩),
   ("verticalAlignment", ⟨.enum, some "Text"⟩),
   ("echoMode", ⟨.enum, some "TextInput"⟩),
   ("orientation", ⟨.enum, some "Qt"⟩),
   ("layoutDirection", ⟨.enum, some "Qt"⟩)]

/-- The known fields of grouped properties. -/
def groups : Table (Table Spelling) :=
  [("font",
     [("family", ⟨.string, none⟩),
      ("pixelSize", ⟨.number, none⟩),
      ("pointSize", ⟨.number, none⟩),
      ("bold", ⟨.bool, none⟩),
      ("italic", ⟨.bool, none⟩),
      ("underline", ⟨.bool, none⟩),
      ("strikeout", ⟨.bool, none⟩),
      ("letterSpacing", ⟨.number, none⟩),
      ("weight", ⟨.enum, some "Font"⟩),
      ("capitalization", ⟨.enum, some "Font"⟩)]),
   ("border",
     [("width", ⟨.number, none⟩),
      ("color", ⟨.color, none⟩)]),
   ("anchors",
     [("margins", ⟨.number, none⟩),
      ("leftMargin", ⟨.number, none⟩),
      ("rightMargin", ⟨.number, none⟩),
      ("topMargin", ⟨.number, none⟩),
      ("bottomMargin", ⟨.number, none⟩),
      ("horizontalCenterOffset", ⟨.number, none⟩),
      ("verticalCenterOffset", ⟨.number, none⟩),
      ("alignWhenCentered", ⟨.bool, none⟩)]),
   -- Attached to the children of layouts
   ("Layout",
     [("fillWidth", ⟨.bool, none⟩),
      ("fillHeight", ⟨.bool, none⟩),
      ("preferredWidth", ⟨.number, none⟩),
      ("preferredHeight", ⟨.number, none⟩),
      ("minimumWidth", ⟨.number, none⟩),
      ("minimumHeight", ⟨.number, none⟩),
      ("maximumWidth", ⟨.number, none⟩),
      ("maximumHeight", ⟨.number, none⟩),
      ("row", ⟨.number, none⟩),
      ("column", ⟨.number, none⟩),
      ("rowSpan", ⟨.number, none⟩),
      ("columnSpan", ⟨.number, none⟩),
      ("margins", ⟨.number, none⟩)])]

/-- The spelling of a property, or of a field if a group is named; `none` for
    names that no table lists. -/
def spelling? (key : String) (group : Option String := none) : Option Spelling :=
  match group with
  | some name => ((groups.get? name).getD []).get? key
  | none => properties.get? key

/-- The part of a name behind its last point. -/
def lastSegment (cs : List Char) : List Char :=
  (cs.reverse.takeWhile (· != '.')).reverse

/-- The text without one line feed at its end. -/
def withoutFinalLineFeed (cs : List Char) : List Char :=
  match cs.reverse with
  | '\n' :: front => front.reverse
  | _ => cs

/-- The name of a handler: behind the last point stands `on`, then a capital of
    the basic alphabet, then word characters. One line feed may follow. -/
def isHandlerName (key : String) : Bool :=
  match withoutFinalLineFeed (lastSegment key.toList) with
  | 'o' :: 'n' :: c :: cs => c.isUpper && cs.all Text.isWord
  | _ => false

end Catalog

end WidgetSync
