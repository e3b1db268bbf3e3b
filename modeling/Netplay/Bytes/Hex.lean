/-
  Hexadecimal digits: written in lower case, read in either.
-/
import Netplay.Bytes.Word

namespace Netplay

namespace Hex

/-- The lower-case digit of a number below sixteen. -/
def digit (n : Nat) : Char :=
  if n < 10 then Char.ofNat (48 + n) else Char.ofNat (87 + n)

/-- The last `width` digits of `n`. -/
def digits : Nat → Nat → List Char
  | 0, _ => []
  | width + 1, n => digits width (n / 16) ++ [digit (n % 16)]

def padded (width n : Nat) : String := String.ofList (digits width n)

def value? (c : Char) : Option Nat :=
  if '0' ≤ c ∧ c ≤ '9' then some (c.toNat - 48)
  else if 'a' ≤ c ∧ c ≤ 'f' then some (c.toNat - 87)
  else if 'A' ≤ c ∧ c ≤ 'F' then some (c.toNat - 55)
  else none

/-- The number that digits spell. -/
def number? (s : String) : Option Nat :=
  s.toList.foldlM (fun n c => (value? c).map (n * 16 + ·)) 0

/-- The bytes that pairs of digits spell, put behind those in `done`, last
    byte first. -/
def pairsOnto : List Char → Bytes → Option Bytes
  | hi :: lo :: rest, done =>
    match value? hi, value? lo with
    | some h, some l => pairsOnto rest (UInt8.ofNat (h * 16 + l) :: done)
    | _, _ => none
  | [], done => some done.reverse
  | [_], _ => none

def toBytes? (s : String) : Option Bytes := pairsOnto s.toList []

def ofBytes (bs : Bytes) : String := String.ofList (bs.flatMap fun b => digits 2 b.toNat)

end Hex

end Netplay
