import WidgetSync.Decimal.Reader
import WidgetSync.Format.Registry
import WidgetSync.Value.Display

/-!
# Arguments

What the arguments of the command line ask for.

Every argument is classified first: options start with a dash and may be cut
short as long as only one is meant, an argument may be attached to its option by
an equals sign, and behind two dashes there are no options. Negative numbers and
arguments with blanks that name no option are plain. Then the options are applied
in order; the first plain argument names the input. What is left over is a
misuse, as is an option that lacks its argument, has one too many or does not
accept it.

## Main definitions

* `Switch`, `Request`, `Misuse`: Options, what they ask for, and what can be wrong.
* `Argument.classify`: The class of an argument.
* `Request.read`: What the arguments ask for.
-/

namespace WidgetSync

namespace CommandLine

/-- The options. -/
inductive Switch where
  /-- Shows how the program is used. -/
  | help
  /-- Names the format of the input. -/
  | source
  /-- Names the format of the output. -/
  | target
  /-- Only checks whether the input is canonical. -/
  | check
  /-- Sets the title of the window. -/
  | title
  /-- Sets the width of the window. -/
  | width
  /-- Sets the height of the window. -/
  | height
  /-- Shows all notices. -/
  | verbose
deriving DecidableEq, Repr

/-- The spellings of the options, in the order in which they are searched. -/
def spellings : Table Switch :=
  [("-h", .help), ("--help", .help), ("--from", .source), ("--to", .target), ("--check", .check),
   ("--title", .title), ("--width", .width), ("--height", .height), ("--verbose", .verbose),
   ("-v", .verbose)]

/-- The name of an option in a report: all its spellings. -/
def Switch.name : Switch → String
  | .help => "-h/--help"
  | .source => "--from"
  | .target => "--to"
  | .check => "--check"
  | .title => "--title"
  | .width => "--width"
  | .height => "--height"
  | .verbose => "--verbose/-v"

/-- The option takes an argument. -/
def Switch.takesArgument : Switch → Bool
  | .source | .target | .title | .width | .height => true
  | _ => false

/-- What the arguments ask for. -/
structure Request where
  /-- The name of the input. -/
  file : Option String := none
  /-- The format of the input. -/
  source : Option String := none
  /-- The format of the output. -/
  target : String := Format.markup.name
  /-- The input is only checked. -/
  check : Bool := false
  /-- The title that the window should have. -/
  title : Option String := none
  /-- The width that the window should have. -/
  width : Option Int := none
  /-- The height that the window should have. -/
  height : Option Int := none
  /-- All notices are shown. -/
  verbose : Bool := false
deriving DecidableEq, Repr

/-- What can be wrong with arguments. -/
inductive Misuse where
  /-- Several options can be meant. -/
  | ambiguous (argument : String) (candidates : List String)
  /-- An option lacks its argument. -/
  | noArgument (switch : Switch)
  /-- An option takes no argument and has one. -/
  | surplus (switch : Switch) (argument : String)
  /-- An argument should be an integer. -/
  | noInteger (switch : Switch) (argument : String)
  /-- An argument should name a format. -/
  | noFormat (switch : Switch) (argument : String) (choices : List String)
  /-- Nobody knows what to do with some arguments. -/
  | leftOver (arguments : List String)
deriving DecidableEq, Repr

/-- What is reported about a misuse. -/
def Misuse.message : Misuse → String
  | .ambiguous argument candidates =>
    let listed := ", ".intercalate candidates
    s!"ambiguous option: {argument} could match {listed}"
  | .noArgument switch => s!"argument {switch.name}: expected one argument"
  | .surplus switch argument =>
    s!"argument {switch.name}: ignored explicit argument {quoted argument}"
  | .noInteger switch argument =>
    s!"argument {switch.name}: invalid int value: {quoted argument}"
  | .noFormat switch argument choices =>
    let listed := ", ".intercalate (choices.map quoted)
    s!"argument {switch.name}: invalid choice: {quoted argument} (choose from {listed})"
  | .leftOver arguments => "unrecognized arguments: " ++ " ".intercalate arguments

/-- How an argument is attached to its option. -/
inductive Attached where
  /-- Behind an equals sign. -/
  | equals (text : List Char)
  /-- Right behind the letter of the option. -/
  | glued (text : List Char)
deriving DecidableEq, Repr

/-- The text that is attached. -/
def Attached.text : Attached → List Char
  | .equals text => text
  | .glued text => text

/-- The classes of arguments. -/
inductive Argument where
  /-- A plain argument. -/
  | plain (text : String)
  /-- Two dashes: there are no options behind them. -/
  | dashes
  /-- An option, under one of its spellings. -/
  | option (switch : Switch) (spelling : String) (attached : Option Attached)
  /-- It looks like an option but is none. -/
  | unknown (text : String)
deriving DecidableEq, Repr

/-- The part before the first equals sign, and the part behind it if there is one. -/
def splitEquals (cs : List Char) : List Char × Option (List Char) :=
  match cs.dropWhile (· != '=') with
  | _ :: behind => (cs.takeWhile (· != '='), some behind)
  | [] => (cs, none)

/-- The argument reads as a negative number. One line feed may follow. -/
def isNegativeNumber (cs : List Char) : Bool :=
  match Catalog.withoutFinalLineFeed cs with
  | '-' :: ds =>
    match ds.dropWhile Text.isDigit with
    | [] => !ds.isEmpty
    | '.' :: places => !places.isEmpty && places.all Text.isDigit
    | _ => false
  | _ => false

/-- The options that an argument which is no spelling can mean. Behind two dashes it
    may be cut short; behind one dash the option is a letter, and the rest is
    attached to it. -/
def candidates (argument : String) : List (Switch × String × Option Attached) :=
  match argument.toList with
  | '-' :: '-' :: cs =>
    let (name, attached) := splitEquals ('-' :: '-' :: cs)
    (spellings.filter fun s => name.isPrefixOf s.1.toList).map fun (spelling, switch) =>
      (switch, spelling, attached.map .equals)
  | '-' :: c :: cs =>
    let letter := String.ofList ['-', c]
    (spellings.filter fun s => s.1 == letter).map fun (spelling, switch) =>
      (switch, spelling, some (.glued cs))
  | _ => []

/-- An argument with an equals sign behind a spelling. -/
def withEquals? (argument : String) : Option Argument :=
  match splitEquals argument.toList with
  | (name, some behind) =>
    let spelling := String.ofList name
    (spellings.get? spelling).map fun switch => .option switch spelling (some (.equals behind))
  | _ => none

/-- An argument that starts with a dash and is no spelling. -/
def classifyDashed (argument : String) : Except Misuse Argument :=
  match withEquals? argument with
  | some a => .ok a
  | none =>
    match candidates argument with
    | [(switch, spelling, attached)] => .ok (.option switch spelling attached)
    | [] =>
      if isNegativeNumber argument.toList || argument.toList.contains ' ' then
        .ok (.plain argument)
      else .ok (.unknown argument)
    | several => .error (.ambiguous argument (several.map fun c => c.2.1))

/-- The class of an argument that does not stand behind two dashes. -/
def classify (argument : String) : Except Misuse Argument :=
  match argument.toList with
  | '-' :: cs =>
    match spellings.get? argument with
    | some switch => .ok (.option switch argument none)
    | none => if cs.isEmpty then .ok (.plain argument) else classifyDashed argument
  | _ => .ok (.plain argument)

/-- The classes of arguments. -/
def classifyAll : List String → Except Misuse (List Argument)
  | [] => .ok []
  | "--" :: arguments => .ok (.dashes :: arguments.map .plain)
  | argument :: arguments => do
    let first ← classify argument
    let others ← classifyAll arguments
    return first :: others

/-- Why the arguments do not make a request. -/
inductive Refusal where
  /-- They ask for help instead. -/
  | help
  /-- They are misused. -/
  | misuse (m : Misuse)
deriving DecidableEq, Repr

/-- What was made of the arguments so far. -/
structure Draft where
  /-- The request. -/
  request : Request := {}
  /-- The place of the input is taken. -/
  taken : Bool := false
  /-- The arguments that nobody knows what to do with. -/
  leftOver : List String := []

namespace Draft

/-- The draft with more arguments left over. -/
def leave (d : Draft) (arguments : List String) : Draft :=
  { d with leftOver := d.leftOver ++ arguments }

/-- The draft after an option without an argument. -/
def raise (d : Draft) : Switch → Except Refusal Draft
  | .help => .error .help
  | .check => .ok { d with request := { d.request with check := true } }
  | .verbose => .ok { d with request := { d.request with verbose := true } }
  | _ => .ok d

/-- The name of a format, if it is one. -/
def formatName (switch : Switch) (argument : String) : Except Refusal String :=
  let choices := Registry.usual.formats.names
  if choices.contains argument then .ok argument
  else .error (.misuse (.noFormat switch argument choices))

/-- The integer that an argument stands for. -/
def integer (switch : Switch) (argument : String) : Except Refusal Int :=
  match Decimal.readInteger? argument.toList with
  | some n => .ok n
  | none => .error (.misuse (.noInteger switch argument))

/-- The draft after an option with its argument. -/
def assign (d : Draft) (switch : Switch) (argument : String) : Except Refusal Draft := do
  let r := d.request
  match switch with
  | .source =>
    let name ← formatName switch argument
    return { d with request := { r with source := some name } }
  | .target =>
    let name ← formatName switch argument
    return { d with request := { r with target := name } }
  | .title => return { d with request := { r with title := some argument } }
  | .width =>
    let n ← integer switch argument
    return { d with request := { r with width := some n } }
  | .height =>
    let n ← integer switch argument
    return { d with request := { r with height := some n } }
  | _ => return d

/-- The text behind a letter: behind an equals sign, glued, or none. -/
def attachedBehind : List Char → Option Attached
  | [] => none
  | '=' :: cs => some (.equals cs)
  | cs => some (.glued cs)

/-- The options of a run of letters behind one dash, and what is left over of it. -/
def cluster (switch : Switch) : Option Attached → Except Refusal (List Switch × List String)
  | none => .ok ([switch], [])
  | some (.equals text) => .error (.misuse (.surplus switch (String.ofList text)))
  | some (.glued text) => letters switch text
where
  /-- The options of the letters behind an option. -/
  letters (switch : Switch) : List Char → Except Refusal (List Switch × List String)
    | [] => .error (.misuse (.surplus switch ""))
    | c :: cs =>
      if c = '-' then .error (.misuse (.surplus switch (String.ofList (c :: cs))))
      else
        match spellings.get? (String.ofList ['-', c]) with
        | none => .ok ([switch], [String.ofList ('-' :: c :: cs)])
        | some next =>
          match cs with
          | [] => .ok ([switch, next], [])
          | '=' :: text => .error (.misuse (.surplus next (String.ofList text)))
          | d :: ds => (letters next (d :: ds)).map fun (others, rest) => (switch :: others, rest)

/-- The draft after an option that takes no argument. -/
def flag (d : Draft) (switch : Switch) (spelling : String) (attached : Option Attached) :
    Except Refusal Draft := do
  if spelling.startsWith "--" then
    match attached with
    | some a => throw (.misuse (.surplus switch (String.ofList a.text)))
    | none => d.raise switch
  else
    let (switches, rest) ← cluster switch attached
    switches.foldlM raise (d.leave rest)

/-- The draft after a plain argument. -/
def place (d : Draft) (text : String) : Draft :=
  if d.taken then d.leave [text]
  else { d with taken := true, request := { d.request with file := some text } }

/-- The draft after all arguments. Two dashes before the input belong to it. -/
def readAll (d : Draft) : List Argument → Except Refusal Draft
  | [] => .ok d
  | .plain text :: .dashes :: arguments =>
    if d.taken then readAll (d.leave [text, "--"]) arguments
    else readAll (d.place text) arguments
  | .plain text :: arguments => readAll (d.place text) arguments
  | .dashes :: .plain text :: arguments =>
    if d.taken then readAll (d.leave ["--", text]) arguments
    else readAll (d.place text) arguments
  | .dashes :: arguments =>
    readAll (if d.taken then d.leave ["--"] else { d with taken := true }) arguments
  | .unknown text :: arguments => readAll (d.leave [text]) arguments
  | .option switch spelling attached :: arguments =>
    if switch.takesArgument then
      match attached, arguments with
      | some a, rest => do
        let d ← d.assign switch (String.ofList a.text)
        readAll d rest
      | none, .plain text :: rest => do
        let d ← d.assign switch text
        readAll d rest
      | none, _ => .error (.misuse (.noArgument switch))
    else do
      let d ← d.flag switch spelling attached
      readAll d arguments

end Draft

/-- What the arguments ask for. -/
def Request.read (arguments : List String) : Except Refusal Request :=
  match classifyAll arguments with
  | .error m => .error (.misuse m)
  | .ok classes => do
    let d ← ({} : Draft).readAll classes
    if d.leftOver.isEmpty then return d.request
    else throw (.misuse (.leftOver d.leftOver))

end CommandLine

end WidgetSync
