import WidgetSync.Decimal.Reader
import WidgetSync.Fault
import WidgetSync.Value.Display

/-!
# What Values Can Do

Truth, sameness, order, membership and conversion for values of every kind.

Each of these is defined for some kinds only. Truth and sameness are defined for
all: an empty value is false, and values are the same when they stand for the
same number, the same characters or the same parts. The other operations answer
with a fault on a value they are not defined for.

## Main definitions

* `Value.truth`: The value counts as true.
* `Value.same`: Two values are the same.
* `Value.isNegative`: The value is below zero.
* `Value.mentions`: A text occurs in the value.
* `Value.member`: The entry of a record.
* `Value.elements`: The values to go through one by one.
* `Value.entries`: The entries of a record.
* `Value.integer`: The integer that the value stands for.
* `Value.seconds`: The length of time that the value stands for.
* `Value.canName`: The value can serve as a name in a table.
-/

namespace WidgetSync

namespace Value

/-- The value counts as true: it is neither nothing, nor zero, nor empty. -/
def truth : Value → Bool
  | .null => false
  | .bool b => b
  | .int n => n != 0
  | .float x => x != 0.0
  | .text s => !s.isEmpty
  | .raw s => !s.isEmpty
  | .list items => !items.isEmpty
  | .record entries => !entries.isEmpty
  | _ => true

/-- The integer that a truth value counts as. -/
def ofTruth (b : Bool) : Int :=
  if b then 1 else 0

/-- The integer and the double are the same number. -/
def sameNumber (n : Int) (x : Float) : Bool :=
  !x.isNaN && !x.isInf && Decimal.compareInteger n x == .eq

mutual

/-- The two values are the same: equal as numbers, in their characters, or part by
    part. The entries of a record have no order here. -/
def same : Value → Value → Bool
  | .null, .null => true
  | .bool a, .bool b => a == b
  | .bool a, .int n => ofTruth a == n
  | .bool a, .float x => sameNumber (ofTruth a) x
  | .int m, .bool b => m == ofTruth b
  | .int m, .int n => m == n
  | .int m, .float x => sameNumber m x
  | .float x, .bool b => sameNumber (ofTruth b) x
  | .float x, .int n => sameNumber n x
  | .float x, .float y => x == y
  | .text s, .text t => s == t
  | .text s, .raw t => s == t
  | .raw s, .text t => s == t
  | .raw s, .raw t => s == t
  | .moment a, .moment b => a == b
  | .list as, .list bs => sameAll as bs
  | .record as, .record bs => as.length == bs.length && sameEntries as bs
  | .group as, .group bs => as.length == bs.length && sameEntries as bs
  | .handler c b, .handler c' b' => same c c' && same b b'
  | .object t ps, .object t' ps' => same t t' && (ps.length == ps'.length && sameEntries ps ps')
  | _, _ => false

/-- The lists hold the same values in the same order. -/
def sameAll : List Value → List Value → Bool
  | [], [] => true
  | a :: as, b :: bs => same a b && sameAll as bs
  | _, _ => false

/-- Each of the first entries has the same value among the second. -/
def sameEntries : List (String × Value) → List (String × Value) → Bool
  | [], _ => true
  | (k, a) :: as, bs =>
    (match Table.get? bs k with
     | some b => same a b
     | none => false) && sameEntries as bs

end

/-- The value is a number below zero; only numbers can be asked. -/
def isNegative : Value → Except Fault Bool
  | .bool _ => .ok false
  | .int n => .ok (n < 0)
  | .float x => .ok (x < 0.0)
  | _ => .error .unsuited

/-- The characters occur in the text without a gap. -/
def occursIn (part : List Char) : List Char → Bool
  | [] => part.isEmpty
  | c :: cs => part.isPrefixOf (c :: cs) || occursIn part cs

/-- The text occurs in the value: inside a text, among the elements of a list or
    among the names of a record. -/
def mentions (needle : String) : Value → Except Fault Bool
  | .text s => .ok (occursIn needle.toList s.toList)
  | .raw s => .ok (occursIn needle.toList s.toList)
  | .list items => .ok (items.any fun v => same v (.text needle))
  | .record entries => .ok (Table.has entries needle)
  | _ => .error .unsuited

/-- The value of a record under a name that it mentions. -/
def member (name : String) : Value → Except Fault Value
  | .record entries =>
    match Table.get? entries name with
    | some v => .ok v
    | none => .error (.missing name)
  | _ => .error .unsuited

/-- The values that the value consists of: the elements of a list, the names of a
    record, the characters of a text. -/
def elements : Value → Except Fault (List Value)
  | .list items => .ok items
  | .record entries => .ok (entries.map fun e => .text e.1)
  | .text s => .ok (s.toList.map fun c => .text (String.singleton c))
  | .raw s => .ok (s.toList.map fun c => .text (String.singleton c))
  | _ => .error .unsuited

/-- The entries of a record; nothing else has any. -/
def entries : Value → Except Fault Fields
  | .record entries => .ok entries
  | _ => .error .lacking

/-- The reason why a text is no integer; a long text is shown in part. -/
def noInteger (s : String) : String :=
  s!"invalid literal for int() with base 10: {String.ofList ((quoted s).toList.take 200)}"

/-- The integer that the value stands for. A double loses its places. -/
def integer : Value → Except Fault Int
  | .bool b => .ok (ofTruth b)
  | .int n => .ok n
  | .float x =>
    if x.isNaN then .error (.invalid "cannot convert float NaN to integer")
    else if x.isInf then .error .overflow
    else .ok (Decimal.truncated x)
  | .text s => readText s
  | .raw s => readText s
  | _ => .error .unsuited
where
  /-- The integer that a text stands for. -/
  readText (s : String) : Except Fault Int :=
    match Decimal.readInteger? s.toList with
    | some n => .ok n
    | none => .error (.invalid (noInteger s))

/-- The length of time in seconds that the value stands for. -/
def seconds : Value → Except Fault Float
  | .bool b => .ok (if b then 1.0 else 0.0)
  | .int n =>
    match Decimal.ofInteger? n with
    | some x => .ok x
    | none => .error .overflow
  | .float x => .ok x
  | _ => .error .unsuited

/-- The value can serve as a name in a table: it has no parts that could change. -/
def canName : Value → Bool
  | .null | .bool _ | .int _ | .float _ | .text _ | .raw _ | .moment _ => true
  | _ => false

end Value

end WidgetSync
