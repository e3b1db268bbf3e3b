/-
  The IEEE 802.3 cyclic redundancy check: reflected polynomial `0xEDB88320`,
  register preset to all ones and inverted at the end.

  A message is read byte by byte, least significant bit first.  `Crc32.bit`
  is one division step and `Crc32.byte` eight of them, so the register after a
  message is a fold, and the check of a concatenation continues the register
  of its front.
-/
import Netplay.Bytes.Word

namespace Netplay

namespace Crc32

/-- The generator polynomial, bits reversed. -/
def polynomial : UInt32 := 0xEDB88320

/-- One division step: shift out the lowest bit and subtract the polynomial if
    it was set. -/
def bit (r : UInt32) : UInt32 :=
  if r &&& 1 = 0 then r >>> 1 else (r >>> 1) ^^^ polynomial

def byte (r : UInt32) (b : UInt8) : UInt32 :=
  bit (bit (bit (bit (bit (bit (bit (bit (r ^^^ b.toUInt32))))))))

def feed (r : UInt32) (bs : Bytes) : UInt32 := bs.foldl byte r

theorem feed_append (r : UInt32) (a b : Bytes) : feed r (a ++ b) = feed (feed r a) b :=
  List.foldl_append

end Crc32

/-- The check value of a byte string. -/
def crc32 (bs : Bytes) : UInt32 := Crc32.feed 0xffffffff bs ^^^ 0xffffffff

end Netplay
