/-
  Text in byte strings, as UTF-8.

  `Utf8.encode` writes the code points in turn.  `Utf8.decode` never fails:
  the longest start of a well-formed sequence that cannot be completed, or a
  byte that starts none, is read as one replacement character, and reading
  goes on with the byte that broke the sequence.

  The decoder takes one byte at a time.  Between bytes it holds the code point
  begun, how many continuation bytes it still needs, and the range of the next
  one: the first continuation byte has a narrower range after `E0`, `ED`, `F0`
  and `F4`, which keeps out overlong forms, surrogates and code points beyond
  the last.
-/
import Netplay.Bytes.Reader

namespace Netplay

namespace Utf8

/-- What stands for an ill-formed sequence. -/
def replacement : Char := '\uFFFD'

/-- A code point begun. -/
structure Begun where
  bits : Nat
  /-- Continuation bytes needed after the next one. -/
  more : Nat
  /-- The least byte that may come next. -/
  low : UInt8
  /-- The greatest byte that may come next. -/
  high : UInt8

/-- The decoder between two bytes: the code point begun, if any, and the text
    so far, last character first. -/
structure Decoder where
  begun : Option Begun := none
  text : List Char := []

namespace Decoder

def emit (d : Decoder) (c : Char) : Decoder := ⟨none, c :: d.text⟩

/-- A byte where a character may start. -/
def start (d : Decoder) (b : UInt8) : Decoder :=
  if b < 0x80 then d.emit (Char.ofNat b.toNat)
  else if b < 0xC2 then d.emit replacement
  else if b < 0xE0 then ⟨some ⟨b.toNat % 32, 0, 0x80, 0xBF⟩, d.text⟩
  else if b = 0xE0 then ⟨some ⟨b.toNat % 16, 1, 0xA0, 0xBF⟩, d.text⟩
  else if b = 0xED then ⟨some ⟨b.toNat % 16, 1, 0x80, 0x9F⟩, d.text⟩
  else if b < 0xF0 then ⟨some ⟨b.toNat % 16, 1, 0x80, 0xBF⟩, d.text⟩
  else if b = 0xF0 then ⟨some ⟨b.toNat % 8, 2, 0x90, 0xBF⟩, d.text⟩
  else if b < 0xF4 then ⟨some ⟨b.toNat % 8, 2, 0x80, 0xBF⟩, d.text⟩
  else if b = 0xF4 then ⟨some ⟨b.toNat % 8, 2, 0x80, 0x8F⟩, d.text⟩
  else d.emit replacement

def push (d : Decoder) (b : UInt8) : Decoder :=
  match d.begun with
  | none => d.start b
  | some s =>
    if s.low ≤ b ∧ b ≤ s.high then
      let bits := s.bits * 64 + b.toNat % 64
      match s.more with
      | 0 => d.emit (Char.ofNat bits)
      | more + 1 => ⟨some ⟨bits, more, 0x80, 0xBF⟩, d.text⟩
    else (d.emit replacement).start b

/-- The end of the input: a code point begun and not completed is replaced. -/
def finish (d : Decoder) : List Char :=
  (match d.begun with
    | none => d.text
    | some _ => replacement :: d.text).reverse

end Decoder

/-- The text of a byte string, ill-formed sequences replaced. -/
def decode (bs : Bytes) : String :=
  String.ofList (bs.foldl Decoder.push {}).finish

def encode (s : String) : Bytes := s.toList.flatMap String.utf8EncodeChar

end Utf8

namespace Reader

def text : Reader String := do return Utf8.decode (← prefixed)

end Reader

end Netplay
