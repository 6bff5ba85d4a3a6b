/-!
# Reading Bytes as Text

The strict reader of the eight-bit encoding of the character standard.

A lead byte announces how many bytes follow and narrows the range of the first
of them, which shuts out overlong forms, surrogates and code points above the
last one. Reading stops at the first byte that does not fit; the report names
the bytes of the sequence that were read, and why it was given up.

## Main definitions

* `Lead`: What a lead byte announces.
* `Malformed`: Where and why bytes are no text.
* `decode`: The text that some bytes stand for.
* `Malformed.message`: The report in words.
-/

namespace WidgetSync

namespace Text

/-- Why a byte sequence was given up. -/
inductive Malformation where
  /-- No sequence starts with this byte. -/
  | start
  /-- A byte that continues the sequence was expected. -/
  | continuation
  /-- The input ends inside the sequence. -/
  | ending
deriving DecidableEq, Repr

/-- The report on bytes that are no text. -/
structure Malformed where
  /-- The position of the first byte of the sequence. -/
  position : Nat
  /-- The number of bytes read of the sequence, at least one. -/
  count : Nat
  /-- The first byte of the sequence. -/
  byte : UInt8
  /-- Why the sequence was given up. -/
  reason : Malformation
deriving DecidableEq, Repr

/-- What a lead byte announces: the bits it carries, the number of bytes that
    follow, and the range of the first of these. -/
structure Lead where
  /-- The bits of the code point that the lead byte carries. -/
  bits : Nat
  /-- The number of bytes that follow. -/
  follows : Nat
  /-- The least value of the first of them. -/
  low : Nat
  /-- The greatest value of the first of them. -/
  high : Nat

/-- The announcement of a byte, `none` when no sequence starts with it. -/
def lead? (b : UInt8) : Option Lead :=
  let n := b.toNat
  if n < 0x80 then some ⟨n, 0, 0x80, 0xBF⟩
  else if n < 0xC2 then none
  else if n < 0xE0 then some ⟨n - 0xC0, 1, 0x80, 0xBF⟩
  else if n < 0xF0 then
    some ⟨n - 0xE0, 2, if n = 0xE0 then 0xA0 else 0x80, if n = 0xED then 0x9F else 0xBF⟩
  else if n < 0xF5 then
    some ⟨n - 0xF0, 3, if n = 0xF0 then 0x90 else 0x80, if n = 0xF4 then 0x8F else 0xBF⟩
  else none

/-- The code point of a sequence whose lead byte has been read, or the number of
    bytes that continued it and the reason for giving up. The range holds for the
    next byte only. -/
def continued (code low high : Nat) : Nat → List UInt8 → Except (Nat × Malformation) Nat
  | 0, _ => .ok code
  | _ + 1, [] => .error (0, .ending)
  | k + 1, b :: bs =>
    if low ≤ b.toNat ∧ b.toNat ≤ high then
      match continued (code * 64 + (b.toNat - 0x80)) 0x80 0xBF k bs with
      | .ok n => .ok n
      | .error (done, why) => .error (done + 1, why)
    else .error (0, .continuation)

/-- The text that the bytes from a position on stand for. -/
def decodeFrom (position : Nat) : List UInt8 → Except Malformed (List Char)
  | [] => .ok []
  | b :: bs =>
    match lead? b with
    | none => .error ⟨position, 1, b, .start⟩
    | some l =>
      match continued l.bits l.low l.high l.follows bs with
      | .error (done, why) => .error ⟨position, done + 1, b, why⟩
      | .ok code =>
        match decodeFrom (position + 1 + l.follows) (bs.drop l.follows) with
        | .ok cs => .ok (Char.ofNat code :: cs)
        | .error e => .error e
termination_by bs => bs.length
decreasing_by simp only [List.length_cons, List.length_drop]; omega

/-- The text that the bytes stand for. -/
def decode (bytes : List UInt8) : Except Malformed (List Char) :=
  decodeFrom 0 bytes

/-- The reason in words. -/
def Malformation.message : Malformation → String
  | .start => "invalid start byte"
  | .continuation => "invalid continuation byte"
  | .ending => "unexpected end of data"

/-- A byte as two hexadecimal digits. -/
def hexByte (b : UInt8) : String :=
  let digits := Nat.toDigits 16 b.toNat
  String.ofList (if digits.length < 2 then '0' :: digits else digits)

/-- The report in words. A single byte is shown, several are counted. -/
def Malformed.message (m : Malformed) : String :=
  let place :=
    if m.count = 1 then s!"byte 0x{hexByte m.byte} in position {m.position}"
    else s!"bytes in position {m.position}-{m.position + m.count - 1}"
  s!"'utf-8' codec can't decode {place}: {m.reason.message}"

end Text

end WidgetSync
